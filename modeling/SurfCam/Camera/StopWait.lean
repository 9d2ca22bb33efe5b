import SurfCam.Camera.Footprint
import SurfCam.Camera.Locks
import SurfCam.System

/-!
# Waiting for the camera to stop

`camera_->stop()` returns when the callbacks of all queued requests have run, and a callback locks
`pipelinePushMutex_` or `completionMutex`.  The caller owns neither while it waits, unless the wait
of `takePicture` has timed out.
-/

namespace SurfCam

open Interaction CameraManager Contract

namespace StopWait

/-- No wait for a completion ends by its timeout. -/
def completes (_ : World) : Label Sys Tid Signal → Bool
  | .act _ .waitReacquire completed => completed
  | _ => true

/-- The thread owns neither of the mutexes that the callbacks lock. -/
def Free (t : Tid) (w : World) : Prop :=
  w.owner .pipelinePushMutex_ ≠ some t ∧ w.owner .completionMutex ≠ some t

theorem owners_trans {t : Tid} {w w' w'' : World}
    (h : ∀ m, w'.owner m = some t → w.owner m = some t)
    (h' : ∀ m, w''.owner m = some t → w'.owner m = some t) (m : Mutex)
    (ho : w''.owner m = some t) : w.owner m = some t :=
  h m (h' m ho)

/-- A thread comes to own a mutex by its own calls only. -/
theorem owner_of_act {t u : Tid} {c : SysCall} {r : c.Reply} {w w' : World} (hne : t ≠ u)
    (hact : system.act u c r w = some w') (m : Mutex) (ho : w'.owner m = some t) :
    w.owner m = some t := by
  rcases system_act.mp hact with ⟨-, rfl⟩
  exact World.owner_of_others (Ne.symm hne) ho

theorem owner_of_env {t : Tid} {e : Signal} {w w' : World} (henv : system.env e w = some w')
    (m : Mutex) (ho : w'.owner m = some t) : w.owner m = some t := by
  cases henv
  exact ho

/-- The caller is free where it waits for the camera to stop; the callbacks lock no other mutex. -/
def contract : Contract system (fun w l => completes w l = true) where
  inv _ := True
  pre t c w :=
    (t = .caller 0 → c = .stopEnd → Free t w) ∧
      (t = .callback → ∀ m, c = .lock m → m = .pipelinePushMutex_ ∨ m = .completionMutex)
  rely t w w' := ∀ m, w'.owner m = some t → w.owner m = some t
  rely_refl _ _ _ h := h
  rely_trans := @owners_trans
  inv_act _ _ _ _ := trivial
  inv_env _ _ _ := trivial
  rely_act hne _ _ _ hact := owner_of_act hne hact
  rely_env _ _ henv := owner_of_env henv

/-- What the caller does not own it does not come to own by what the others do. -/
theorem not_owner_rely {t : Tid} {m : Mutex} (w w' : World) (hr : contract.rely t w w')
    (_ : contract.inv w') (h : w.owner m ≠ some t) : w'.owner m ≠ some t :=
  fun ho => h (hr m ho)

theorem free_rely {t : Tid} (w w' : World) (hr : contract.rely t w w') (hi : contract.inv w')
    (h : Free t w) : Free t w' :=
  ⟨not_owner_rely w w' hr hi h.1, not_owner_rely w w' hr hi h.2⟩

/-- The calls that leave their thread free. -/
def Plain (c : SysCall) : Prop :=
  c.takes .pipelinePushMutex_ = false ∧ c.takes .completionMutex = false

theorem plain_of_operationCall {c : SysCall} (h : operationCall c = true) : Plain c := by
  cases c with
  | lock m => cases m <;> first | exact ⟨rfl, rfl⟩ | cases h
  | relock m => cases m <;> first | exact ⟨rfl, rfl⟩ | cases h
  | _ => first | exact ⟨rfl, rfl⟩ | cases h

theorem plain_of_requestCall {c : SysCall} (h : requestCall c = true) : Plain c := by
  cases c <;> first | exact ⟨rfl, rfl⟩ | cases h

/-- Code of plain calls, and of parts that keep the caller free, keeps it free. -/
theorem keeps_free {α : Type} {X : ∀ α : Type, Prog Sys α → Prop} {p : Prog Sys α}
    (hX : ∀ α p, X α p → contract.Keeps (.caller 0) (Free (.caller 0)) p) (hp : p.Built Plain X) :
    contract.Keeps (.caller 0) (Free (.caller 0)) p := by
  refine keeps_of_built free_rely (fun c hc w _ hw => ?_) hX hp
  refine ⟨⟨fun _ _ => hw, nofun⟩, fun r w' _ hact => ?_⟩
  rcases system_act.mp hact with ⟨-, rfl⟩
  exact ⟨fun ho => hw.1 (World.owner_of_not_takes hc.1 ho),
    fun ho => hw.2 (World.owner_of_not_takes hc.2 ho)⟩

/-- A call that takes no mutex `m`, and does not wait for the camera, may be made while another
mutex is owned. -/
theorem keeps_not_owner {m : Mutex} {c : SysCall} (hm : c.takes m = false) (hc : c ≠ .stopEnd)
    {w : World} (h : w.owner m ≠ some (.caller 0)) :
    contract.pre (.caller 0) c w ∧ ∀ r w', completes w (.act (.caller 0) c r) = true →
      system.act (.caller 0) c r w = some w' → w'.owner m ≠ some (.caller 0) := by
  refine ⟨⟨fun _ hstop => absurd hstop hc, nofun⟩, fun r w' _ hact ho => ?_⟩
  rcases system_act.mp hact with ⟨-, rfl⟩
  exact h (World.owner_of_not_takes hm ho)

/-- The caller holds `pipelinePushMutex_` for the shutdown of the pipeline, and does not wait for
the camera meanwhile. -/
theorem keeps_shutdown :
    contract.Keeps (.caller 0) (Free (.caller 0)) shutdownGstreamerPipeline := by
  have hB := not_owner_rely (t := .caller 0) (m := .completionMutex)
  refine keeps_lockGuard free_rely hB ?_ ?_ ?_
  · exact fun w _ hw => keeps_not_owner (c := .lock _) rfl nofun hw.2
  · refine fun w _ hw => ⟨⟨fun _ => nofun, nofun⟩, fun r w' _ hact => ?_⟩
    rcases system_act.mp hact with ⟨-, rfl⟩
    exact ⟨World.not_owner_after_unlock, fun ho => hw (World.owner_of_not_takes rfl ho)⟩
  · refine keeps_of_built hB (fun c hc w _ hw => ?_) (fun _ _ h => h.elim)
      (built_shutdownLocked (P := fun c => shutdownCall c = true) (X := Prog.noParts) fun c h => h)
    apply keeps_not_owner _ _ hw
    · cases c <;> first | rfl | cases hc
    · rintro rfl
      cases hc

/-- With no timeout the wait ends completed, and the caller does not stop the camera while it owns
`completionMutex`. -/
theorem keeps_awaitCompletion :
    contract.Keeps (.caller 0) (Free (.caller 0)) awaitCompletion := by
  have hB := not_owner_rely (t := .caller 0) (m := .pipelinePushMutex_)
  refine keeps_lockGuard free_rely hB ?_ ?_ ?_
  · exact fun w _ hw => keeps_not_owner (c := .lock _) rfl nofun hw.1
  · refine fun w _ hw => ⟨⟨fun _ => nofun, nofun⟩, fun r w' _ hact => ?_⟩
    rcases system_act.mp hact with ⟨-, rfl⟩
    exact ⟨fun ho => hw (World.owner_of_not_takes rfl ho), World.not_owner_after_unlock⟩
  · intro w hw
    -- the wait replies true, so the camera is not stopped in here
    have hwait : contract.wp (.caller 0) waitForCompletion
        (fun b w => b = true ∧ w.owner .pipelinePushMutex_ ≠ some (.caller 0))
        (fun w => w.owner .pipelinePushMutex_ ≠ some (.caller 0)) w := by
      refine wp_call_of hB hw fun w _ hw => ?_
      have hload := keeps_not_owner (c := .load .completed) rfl nofun hw
      refine ⟨hload.1, fun b w' hok hs => ?_⟩
      cases b with
      | true => exact fun v hr hi => ⟨rfl, hB w' v hr hi (hload.2 _ w' hok hs)⟩
      | false =>
        refine wp_call_of hB (hload.2 _ w' hok hs) fun w _ hw => ?_
        have hrelease := keeps_not_owner (c := .waitRelease) rfl nofun hw
        refine ⟨hrelease.1, fun _ w' hok hs => ?_⟩
        refine fun v hr hi => ?_
        have hv := hB w' v hr hi (hrelease.2 _ w' hok hs)
        have hacquire := keeps_not_owner (c := .waitReacquire) rfl nofun hv
        exact ⟨hacquire.1, fun b v' hok hs u hr hi =>
          ⟨hok, hB v' u hr hi (hacquire.2 b v' hok hs)⟩⟩
    refine wp_bind_of hwait fun b w _ hb => ?_
    rcases hb with ⟨rfl, hb⟩
    exact fun w' hr hi => hB w w' hr hi hb

/-- The parts of the operations with a proof of their own. -/
def parts (α : Type) (p : Prog Sys α) : Prop :=
  Prog.onlyPart shutdownGstreamerPipeline α p ∨ Prog.onlyPart awaitCompletion α p

theorem keeps_parts : ∀ α p, parts α p → contract.Keeps (.caller 0) (Free (.caller 0)) p := by
  rintro α p (⟨rfl, rfl⟩ | ⟨rfl, rfl⟩)
  · exact keeps_shutdown
  · exact keeps_awaitCompletion

theorem built_operation {legacy : Bool} (op : Operation) : (operate legacy op).Built Plain parts := by
  have hs : shutdownGstreamerPipeline.Built Plain parts := .part (.inl ⟨rfl, rfl⟩)
  have hw : awaitCompletion.Built Plain parts := .part (.inr ⟨rfl, rfl⟩)
  have hP : ∀ c, operationCall c = true → Plain c := fun c => plain_of_operationCall
  have hR : ∀ c, requestCall c = true → Plain c := fun c => plain_of_requestCall
  have hT : ∀ c, teardownCall c = true → Plain c := fun c h => hP c (by simp [operationCall, h])
  have hC : ∀ c, photoCall c = true → Plain c := fun c h => hP c (by simp [operationCall, h])
  exact built_operate hP hs (built_queueBuffer hR (built_keepRequest hT hR)
    (built_rollbackUnlocked hT hs)) (built_photoRequest hC hw hR) op

/-- The callbacks lock no other mutexes. -/
theorem lock_of_completionCall {m : Mutex} (h : completionCall (.lock m) = true) :
    m = .pipelinePushMutex_ ∨ m = .completionMutex := by
  cases m <;> simp [completionCall, slotCall, slotGuardCall, recycleCall] at h ⊢

/-- The caller is free between two operations. -/
def proof (legacy : Bool) : contract.Proof (code legacy) where
  holds
    | .caller 0, _, w => Free (.caller 0) w
    | .callback, _, _ => True
    | .gst _, _, _ => True
    | _, _, _ => False
  body t pc w _ h := by
    cases t with
    | caller n =>
      cases n with
      | zero =>
        have hkeeps := keeps_free keeps_parts
          (built_callerBody legacy ⟨rfl, rfl⟩ built_operation pc)
        exact wp_mono (hkeeps w h) (fun _ _ _ hfree _ _ => hfree) fun _ _ _ => trivial
      | succ n => exact h.elim
    | callback =>
      refine wp_mono (wp_of_built (built_callbackBody legacy fun _ h => h) ?_)
        (fun _ _ _ _ _ _ => trivial) fun _ _ h => h
      refine fun c hc _ _ => ⟨nofun, ?_⟩
      rintro - m rfl
      exact lock_of_completionCall hc
    | gst n =>
      refine wp_mono (wp_of_built (built_gstBody pc fun _ h => h) ?_) (fun _ _ _ _ _ _ => trivial)
        fun _ _ h => h
      exact fun _ _ _ _ => ⟨nofun, nofun⟩
    | _ => exact h.elim

theorem valid_start (legacy : Bool) : (proof legacy).Valid (callerStart legacy) := by
  apply valid_callerStart _ trivial
  · exact fun w hr hi => free_rely .init w hr hi ⟨nofun, nofun⟩
  · exact fun _ _ => trivial
  · exact fun _ _ _ _ => trivial

/-- In every run in which no wait for a completion times out: while an operation waits for the
camera to stop, no callback waits for a mutex that its thread owns. -/
theorem stop_does_not_deadlock {legacy : Bool} {cfg : Config (code legacy) World}
    (hrun : Run system (fun w l => completes w l = true) (callerStart legacy) cfg)
    (hstop : cfg.pending (.caller 0) = some .stopEnd) {m : Mutex}
    (hlock : cfg.pending .callback = some (.lock m)) : cfg.world.owner m ≠ some (.caller 0) := by
  have hvalid := (proof legacy).sound (valid_start legacy) hrun
  rcases (hvalid.pre hlock).2 rfl m rfl with rfl | rfl
  · exact ((hvalid.pre hstop).1 rfl rfl).1
  · exact ((hvalid.pre hstop).1 rfl rfl).2

/-- A picture ends the session first: a callback waits for the push mutex while `takePicture` waits
for the camera. -/
theorem stop_does_not_deadlock_video :
    ∃ cfg : Config (code false) World, cfg.pending (.caller 0) = some .stopEnd ∧
      cfg.pending .callback = some (.lock .pipelinePushMutex_) ∧
        cfg.world.owner .pipelinePushMutex_ ≠ some (.caller 0) := by
  obtain ⟨cfg, hrun, htest⟩ := exec_reaches system completes (callerStart false)
    (runs (.caller 0) .initializeCamera 12 ++ runs (.caller 0) (.startVideoMode 1280 720 30) 54 ++
      runs .callback .stopVideoMode 5 ++ runs (.caller 0) .takePicture 18)
    (fun cfg => cfg.pending (.caller 0) = some .stopEnd ∧
      cfg.pending .callback = some (.lock .pipelinePushMutex_)) (by decide +kernel)
  rcases of_decide_eq_true htest with ⟨hstop, hlock⟩
  exact ⟨cfg, hstop, hlock, stop_does_not_deadlock hrun hstop hlock⟩

/-- The wait of `takePicture` times out: it stops the camera with `completionMutex` locked, and the
slot of the cancelled request waits for that mutex. -/
theorem timeout_deadlocks :
    ∃ cfg : Config (code false) World, Run system anyStep (callerStart false) cfg ∧
      cfg.pending (.caller 0) = some .stopEnd ∧
        cfg.pending .callback = some (.lock .completionMutex) ∧
          cfg.world.owner .completionMutex = some (.caller 0) := by
  obtain ⟨cfg, hrun, htest⟩ := exec_reaches system (fun _ _ => true) (callerStart false)
    (runs (.caller 0) .initializeCamera 12 ++ runs (.caller 0) .takePicture 24 ++
      runs .callback .takePicture 2)
    (fun cfg => cfg.pending (.caller 0) = some .stopEnd ∧
      cfg.pending .callback = some (.lock .completionMutex) ∧
        cfg.world.owner .completionMutex = some (.caller 0)) (by decide +kernel)
  exact ⟨cfg, hrun.mono fun _ _ _ => trivial, of_decide_eq_true htest⟩

end StopWait

end SurfCam
