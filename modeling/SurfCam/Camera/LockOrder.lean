import SurfCam.Camera.Locks
import SurfCam.System

/-!
# The order of the locks

Any number of threads call the operations of one `CameraManager`, in any order.  Every mutex has a
rank, `camera_->stop()` has one between the mutexes that its callers own and those that the slots
lock, and a thread waits only at a rank above all that it owns.
-/

namespace SurfCam

open Interaction CameraManager Contract

/-- A thread that calls operations for ever. -/
def operationsBody (legacy : Bool) : Prog Sys (Option Bool) := do
  let op ← sys .nextOperation
  let _ ← CameraManager.operate legacy op
  return some true

/-- The callers call any operations, as often as they like. -/
def crowd (legacy : Bool) : Code Sys Tid where
  Pc := Tid.Pc
  body
    | .caller _ => fun _ => operationsBody legacy
    | t => (code legacy).body t

/-- All callers call a newly constructed `CameraManager`. -/
def crowdStart (legacy : Bool) : Config (crowd legacy) World where
  world := .init
  prog
    | .caller _ => .ret (some false)
    | t => backgroundStart legacy t

/-- Where the proof of the callers begins, in whatever surroundings. -/
theorem valid_crowdStart {legacy : Bool} {W E : Type} {M : Machine Sys Tid W E}
    {ok : W → Label Sys Tid E → Prop} {C : Contract M ok} (P : C.Proof (crowd legacy)) {w₀ : W}
    (hi : C.inv w₀)
    (hcaller : ∀ n w, C.rely (.caller n) w₀ w → C.inv w → P.holds (.caller n) false w)
    (hcallback : ∀ w, C.rely .callback w₀ w → C.inv w → P.holds .callback () w)
    (hgst : ∀ n w, C.rely (.gst n) w₀ w → C.inv w → P.holds (.gst n) .begin w) :
    P.Valid ⟨w₀, (crowdStart legacy).prog⟩ := by
  refine ⟨hi, fun t => ?_⟩
  -- every thread has ended or is at its first control point
  have hat : ∀ next, (crowdStart legacy).prog t = .ret next →
      (∀ w, C.rely t w₀ w → C.inv w → ∀ pc, next = some pc → P.holds t pc w) →
      P.OnTrack ⟨w₀, (crowdStart legacy).prog⟩ t :=
    fun next hp h => Proof.onTrack_ret hp h
  cases t with
  | caller n =>
    apply hat (some false) rfl
    intro w hr hw pc hpc
    cases hpc
    exact hcaller n w hr hw
  | callback =>
    apply hat (some ()) rfl
    intro w hr hw pc hpc
    cases hpc
    exact hcallback w hr hw
  | gst n =>
    apply hat (some .begin) rfl
    intro w hr hw pc hpc
    cases hpc
    exact hgst n w hr hw
  | _ => exact hat none rfl fun _ _ _ _ => nofun

namespace LockOrder

/-- `t` waits for `u`, which owns the mutex that `t` locks, or runs the slots that the
`camera_->stop()` of `t` waits for.  The mutex of a single photo is left out. -/
inductive Waits {K : Code Sys Tid} (cfg : Config K World) (t u : Tid) : Prop where
  | mutex (m : Mutex) : m ≠ .completionMutex →
      cfg.pending t = some (.lock m) ∨ cfg.pending t = some (.relock m) →
      cfg.world.owner m = some u → Waits cfg t u
  | stop : cfg.pending t = some .stopEnd → cfg.world.device.delivering.isSome →
      u = .callback → Waits cfg t u

def rank : Mutex → Nat
  | .videoTeardownMutex_ => 0
  | .cameraOpsMutex_ => 1
  | _ => 3

/-- The rank of what a call waits for. -/
def climbs : SysCall → Option Nat
  | .lock m | .relock m => if m = .completionMutex then none else some (rank m)
  | .stopEnd => some 2
  | _ => none

/-- A thread waits above all that it owns, and the callbacks above `camera_->stop()`. -/
def contract : Contract system anyStep where
  inv _ := True
  pre t c w := ∀ l, climbs c = some l →
    (∀ m, m ≠ .completionMutex → w.owner m = some t → rank m < l) ∧ (t = .callback → 2 < l)
  rely t w w' := ∀ m, w'.owner m = some t → w.owner m = some t
  rely_refl _ _ _ := id
  rely_trans h h' m := h m ∘ h' m
  inv_act _ _ _ _ := trivial
  inv_env _ _ _ := trivial
  rely_act hne _ _ _ hact m := by
    rcases system_act.mp hact with ⟨-, rfl⟩
    exact World.owner_of_others hne.symm
  rely_env _ _ henv _ := by
    cases henv
    exact id

/-- The thread owns no mutexes but those in `H`. -/
def Held (t : Tid) (H : List Mutex) (w : World) : Prop :=
  ∀ m, m ≠ .completionMutex → w.owner m = some t → m ∈ H

/-- The program gives up what it locks: it may be run where the thread owns `H`. -/
def Within (t : Tid) (H : List Mutex) (α : Type) (p : Prog Sys α) : Prop :=
  contract.Keeps t (Held t H) p

/-- All of `H` is below the rank `l`. -/
def Below (H : List Mutex) (l : Nat) : Prop := ∀ m ∈ H, rank m < l

instance (H : List Mutex) (l : Nat) : Decidable (Below H l) :=
  inferInstanceAs (Decidable (∀ m ∈ H, rank m < l))

section

variable {t : Tid} {H : List Mutex} {w : World}

theorem held_rely (w w' : World) (hr : contract.rely t w w') (_ : contract.inv w')
    (h : Held t H w) : Held t H w' := fun m hm ho => h m hm (hr m ho)

theorem pre_of_below {c : SysCall} (h : Held t H w)
    (hc : ∀ l, climbs c = some l → Below H l ∧ (t = .callback → 2 < l)) :
    contract.pre t c w :=
  fun l hl => ⟨fun m hm ho => (hc l hl).1 m (h m hm ho), (hc l hl).2⟩

/-- A call that takes no mutex. -/
theorem held_after {c : SysCall} {r : c.Reply} (h : Held t H w)
    (hc : ∀ m, m ≠ .completionMutex → c.takes m = false) : Held t H (w.after t c r) :=
  fun m hm ho => h m hm (World.owner_of_not_takes (hc m hm) ho)

/-- The calls that may be made where the thread owns `H`. -/
def Free (H : List Mutex) (c : SysCall) : Prop :=
  climbs c = none ∨ c = .stopEnd ∧ Below H 2

theorem not_takes_of_free {c : SysCall} (hc : Free H c) (m : Mutex) (hm : m ≠ .completionMutex) :
    c.takes m = false := by
  rcases hc with hc | ⟨rfl, -⟩
  · cases c with
    | lock m' =>
      refine decide_eq_false fun he => ?_
      rw [climbs, if_neg (he ▸ hm)] at hc
      cases hc
    | relock m' =>
      refine decide_eq_false fun he => ?_
      rw [climbs, if_neg (he ▸ hm)] at hc
      cases hc
    | waitReacquire => exact decide_eq_false hm
    | _ => rfl
  · rfl

theorem within_of_calls {α : Type} {P : SysCall → Prop} {p : Prog Sys α}
    (hP : ∀ c, P c → Free H c ∧ (t = .callback → climbs c = none))
    (hp : p.Built P (Within t H)) : Within t H α p := by
  refine keeps_of_built held_rely (fun c hc w _ h => ?_) (fun _ _ h => h) hp
  rcases hP c hc with ⟨hfree, hnone⟩
  refine ⟨pre_of_below h fun l hl => ⟨?_, fun he => ?_⟩, fun r w' _ hact => ?_⟩
  · rcases hfree with hc | ⟨rfl, hbelow⟩
    · cases hc.symm.trans hl
    · cases hl
      exact hbelow
  · cases (hnone he).symm.trans hl
  · rcases system_act.mp hact with ⟨-, rfl⟩
    exact held_after h (not_takes_of_free hfree)

/-- Code that locks in its parts only. -/
theorem within_of_built {α : Type} {p : Prog Sys α} (ht : t ≠ .callback)
    (hp : p.Built (Free H) (Within t H)) : Within t H α p :=
  within_of_calls (fun _ hc => ⟨hc, fun he => absurd he ht⟩) hp

/-- Code that waits in its parts only. -/
theorem within_of_quiet {α : Type} {p : Prog Sys α}
    (hp : p.Built (fun c => climbs c = none) (Within t H)) : Within t H α p :=
  within_of_calls (fun _ hc => ⟨.inl hc, fun _ => hc⟩) hp

/-- The rule of a lock guard: its mutex is above all that is owned. -/
theorem within_lockGuard {α : Type} {m : Mutex} {scope : Prog Sys α} (hm : Below H (rank m))
    (ht : t = .callback → 2 < rank m) (h : Within t (m :: H) α scope) :
    Within t H α (lockGuard m scope) := by
  refine keeps_lockGuard held_rely held_rely (fun w _ hw => ⟨?_, ?_⟩) (fun w _ hw => ⟨?_, ?_⟩) h
  · refine pre_of_below hw fun l hl => ?_
    rw [climbs, Option.ite_none_left_eq_some] at hl
    cases hl.2
    exact ⟨hm, ht⟩
  · intro r w' _ hact m' hm' ho
    rcases system_act.mp hact with ⟨-, rfl⟩
    -- what is owned behind the lock was owned before, or is its mutex
    rcases World.owner_of_after ho with ho | ⟨-, htakes⟩
    · exact .tail _ (hw m' hm' ho)
    · exact of_decide_eq_true htakes ▸ .head _
  · exact fun l => nofun
  · intro r w' _ hact m' hm' ho
    rcases system_act.mp hact with ⟨-, rfl⟩
    -- the unlock gives the mutex of the guard back, so the rest of `m :: H` is left
    rcases List.mem_cons.mp (hw m' hm' (World.owner_of_not_takes rfl ho)) with rfl | hmem
    · exact absurd ho World.not_owner_after_unlock
    · exact hmem

end

/-! ## The operations -/

/-- A set of calls that does not wait for a mutex. -/
theorem free_of {calls : SysCall → Bool} (hlock : ∀ m, calls (.lock m) = false)
    (hrelock : ∀ m, calls (.relock m) = false) {H : List Mutex} (hH : Below H 2) {c : SysCall}
    (h : calls c = true) : Free H c := by
  cases c with
  | lock m => cases (hlock m).symm.trans h
  | relock m => cases (hrelock m).symm.trans h
  | stopEnd => exact .inr ⟨rfl, hH⟩
  | _ => exact .inl rfl

section

variable {t : Tid} {H : List Mutex} {legacy : Bool}

theorem free_of_stopCall (hH : Below H 2) (c : SysCall) (h : stopCall c = true) : Free H c :=
  free_of (fun _ => rfl) (fun _ => rfl) hH h

theorem free_of_shutdownCall {c : SysCall} (h : shutdownCall c = true) : Free H c := by
  cases c <;> first | exact .inl rfl | cases h

theorem free_of_pipelineCall (hH : Below H 2) (c : SysCall) (h : pipelineCall c = true) :
    Free H c := free_of (fun _ => rfl) (fun _ => rfl) hH h

theorem free_of_videoCall (hH : Below H 2) (c : SysCall) (h : videoCall c = true) : Free H c :=
  free_of (fun _ => rfl) (fun _ => rfl) hH h

theorem free_of_requestCall {c : SysCall} (h : requestCall c = true) : Free H c := by
  cases c <;> first | exact .inl rfl | cases h

theorem free_of_photoCall (hH : Below H 2) (c : SysCall) (h : photoCall c = true) : Free H c :=
  free_of (fun _ => rfl) (fun _ => rfl) hH h

theorem free_of_acquireCall (hH : Below H 2) (c : SysCall) (h : acquireCall c = true) :
    Free H c := free_of (fun _ => rfl) (fun _ => rfl) hH h

/-- `completionMutex` is left out. -/
theorem free_of_waitCall (hH : Below H 2) (c : SysCall) (h : waitCall c = true) : Free H c := by
  cases c with
  | lock m =>
    have hm : m = .completionMutex := of_decide_eq_true h
    exact .inl (if_pos hm)
  | stopEnd => exact .inr ⟨rfl, hH⟩
  | _ => first | exact .inl rfl | cases h

variable (ht : t ≠ .callback)

include ht

theorem within_clearRequests (hH : Below H 3) : Within t H Unit clearRequests :=
  within_lockGuard hH (fun he => absurd he ht) (within_of_built ht (.call (.inl rfl)))

theorem within_resetAllocator (hH : Below H 3) : Within t H Unit resetAllocator :=
  within_lockGuard hH (fun he => absurd he ht) (within_of_built ht (.call (.inl rfl)))

theorem within_keepRequest (hH : Below H 3) (request : Nat) :
    Within t H Unit (keepRequest request) :=
  within_lockGuard hH (fun he => absurd he ht)
    (within_of_built ht (.bind (.call (.inl rfl)) fun _ => built_orThrow _))

theorem within_shutdown (hH : Below H 3) : Within t H Unit shutdownGstreamerPipeline :=
  within_lockGuard hH (fun he => absurd he ht)
    (within_of_built ht (built_shutdownLocked fun _ => free_of_shutdownCall))

theorem within_rollbackFailedVideoStart :
    Within t [] Unit (rollbackFailedVideoStart legacy) := by
  have hH : Below [.videoTeardownMutex_] 2 := by decide
  have hS := free_of_stopCall hH
  refine within_lockGuard (by decide) (fun he => absurd he ht) (within_of_built ht ?_)
  exact .bind (built_disconnectVideoRequestSlot hS) fun _ =>
    .bind (built_stopCameraIfRunning hS) fun _ =>
      .bind (.part (within_clearRequests ht (by decide))) fun _ =>
        .bind (.part (within_shutdown ht (by decide))) fun _ =>
          .bind (.part (within_resetAllocator ht (by decide))) fun _ =>
            .bind (.call (.inl rfl)) fun _ => .call (.inl rfl)

/-- The teardown locks `cameraOpsMutex_` below `videoTeardownMutex_`. -/
theorem within_teardown : Within t [.videoTeardownMutex_] Unit (teardown legacy) := by
  have hH : Below [.videoTeardownMutex_] 2 := by decide
  have hS := free_of_stopCall hH
  have hlocked : Within t [.videoTeardownMutex_] Unit (lockGuard .cameraOpsMutex_ do
      clearRequests
      shutdownGstreamerPipeline) := by
    refine within_lockGuard (by decide) (fun he => absurd he ht) (within_of_built ht ?_)
    exact .bind (.part (within_clearRequests ht (by decide))) fun _ =>
      .part (within_shutdown ht (by decide))
  refine within_of_built ht ?_
  exact .bind (built_disconnectVideoRequestSlot hS) fun _ =>
    .bind (built_stopCameraIfRunning hS) fun _ => .bind (.part hlocked) fun _ =>
      .part (within_resetAllocator ht (by decide))

theorem within_stopVideoMode : Within t [] Bool (stopVideoMode legacy) := by
  have hteardown : (teardown legacy).Built (Free [.videoTeardownMutex_])
      (Within t [.videoTeardownMutex_]) := .part (within_teardown ht)
  have hcall : ∀ c, stopCall c = true → (sys c).Built (Free [.videoTeardownMutex_])
      (Within t [.videoTeardownMutex_]) := fun c h => .call (free_of_stopCall (by decide) c h)
  refine within_lockGuard (by decide) (fun he => absurd he ht) (within_of_built ht ?_)
  refine .bind (hcall _ rfl) fun _ => .ite (.ret _) (.tryCatch ?_ (.bind ?_ fun _ => .ret _))
  · exact .bind (hcall _ rfl) fun _ => .bind (hcall _ rfl) fun _ => .bind hteardown fun _ =>
      .bind (hcall _ rfl) fun _ => .bind (hcall _ rfl) fun _ => .ret _
  · exact .bind (hcall _ rfl) fun _ => .bind (hcall _ rfl) fun _ =>
      .bind (.tryCatch hteardown (.ret _)) fun _ => hcall _ rfl

/-! ### What is done with `cameraOpsMutex_` given up -/

omit ht in
theorem held_unlocked {w : World} {r : (SysCall.unlock .cameraOpsMutex_).Reply}
    (h : Held t [.cameraOpsMutex_] w) :
    Held t [] (w.after t (.unlock .cameraOpsMutex_) r) := by
  intro m hm ho
  rcases List.mem_cons.mp (h m hm (World.owner_of_not_takes rfl ho)) with rfl | hmem
  · exact absurd ho World.not_owner_after_unlock
  · exact hmem

omit ht in
theorem held_of_none {w : World} (h : Held t [] w) : Held t H w :=
  fun m hm ho => absurd (h m hm ho) List.not_mem_nil

omit ht in
/-- `lock.unlock()` in front of the rest. -/
theorem wp_unlock {α : Type} {f : Unit → Prog Sys α} {Q : α → World → Prop} {X : World → Prop}
    {w : World} (h : Held t [.cameraOpsMutex_] w)
    (hf : ∀ w, Held t [] w → contract.wp t (f ()) Q X w) :
    contract.wp t (sys (.unlock .cameraOpsMutex_) >>= f) Q X w := by
  refine wp_call_of held_rely h fun w _ h => ⟨fun _ => nofun, fun _ w' _ hact => ?_⟩
  rcases system_act.mp hact with ⟨-, rfl⟩
  exact hf _ (held_unlocked h)

/-- `lock.lock()`, where nothing is owned. -/
theorem wp_relock {w : World} (h : Held t [] w) :
    contract.wp t (sys (.relock .cameraOpsMutex_)) (fun _ => Held t [.cameraOpsMutex_])
      (Held t [.cameraOpsMutex_]) w := by
  intro w' hr hi
  have h := held_rely w w' hr hi h
  refine ⟨pre_of_below h fun l hl => ⟨fun m hm => absurd hm List.not_mem_nil, ?_⟩, ?_⟩
  · exact fun he => absurd he ht
  · intro r w'' _ hact v hr hi
    rcases system_act.mp hact with ⟨-, rfl⟩
    refine held_rely _ v hr hi fun m hm ho => ?_
    rcases World.owner_of_after ho with ho | ⟨-, htakes⟩
    · exact absurd (h m hm ho) List.not_mem_nil
    · exact of_decide_eq_true htakes ▸ .head _

theorem within_stopVideoModeUnlocked :
    Within t [.cameraOpsMutex_] Unit (stopVideoModeUnlocked legacy) := by
  intro w h
  refine wp_unlock h fun w h => ?_
  refine wp_bind_of (wp_mono (within_stopVideoMode ht w h) (fun _ _ _ h => h)
    fun _ _ h => held_of_none h) fun _ w _ h => wp_relock ht h

theorem within_rollbackUnlocked :
    Within t [.cameraOpsMutex_] Bool (rollbackUnlocked legacy) := by
  intro w h
  refine wp_unlock h fun w h => ?_
  have hrollback : contract.wp t
      ((rollbackFailedVideoStart legacy).ensuring (sys (.relock .cameraOpsMutex_)))
      (fun _ => Held t [.cameraOpsMutex_]) (Held t [.cameraOpsMutex_]) w :=
    wp_ensuring_of (wp_mono (within_rollbackFailedVideoStart ht w h)
      (fun _ _ _ h => wp_relock ht h) fun _ _ h => wp_relock ht h)
  exact wp_bind_of hrollback fun _ w _ h v hr hi => held_rely w v hr hi h

theorem built_leaveOwning :
    (leaveVideoMode legacy).Built (Free [.cameraOpsMutex_]) (Within t [.cameraOpsMutex_]) :=
  built_leaveVideoMode (free_of_stopCall (by decide)) (.part (within_stopVideoModeUnlocked ht))

/-! ### What is done with `cameraOpsMutex_` owned -/

theorem within_startVideoMode (width height fps : Nat) :
    Within t [] Bool (startVideoMode legacy width height fps) := by
  have hH : Below [.cameraOpsMutex_] 2 := by decide
  have hb : (rollbackUnlocked legacy).Built (Free [.cameraOpsMutex_])
      (Within t [.cameraOpsMutex_]) := .part (within_rollbackUnlocked ht)
  have hs : shutdownGstreamerPipeline.Built (Free [.cameraOpsMutex_])
      (Within t [.cameraOpsMutex_]) := .part (within_shutdown ht (by decide))
  refine within_lockGuard (by decide) (fun he => absurd he ht) (within_of_built ht ?_)
  have hG := free_of_pipelineCall hH
  exact built_startVideoModeLocked (free_of_stopCall hH) (free_of_videoCall hH)
    (built_initializeGstreamerPipeline hG hs (built_startPipeline hG hs (.inl rfl)))
    (.part (within_resetAllocator ht (by decide))) hb
    (built_queueBuffer (fun _ => free_of_requestCall)
      (fun request => .part (within_keepRequest ht (by decide) request)) hb)
    (.part (within_stopVideoModeUnlocked ht)) _ _ _

theorem within_takePicture : Within t [] Bool (takePicture legacy) := by
  have hH : Below [.cameraOpsMutex_] 2 := by decide
  refine within_lockGuard (by decide) (fun he => absurd he ht) (within_of_built ht ?_)
  refine .bind (.call (.inl rfl)) fun _ => .ite (.ret _) ?_
  refine .bind (built_cameraReady (.inl rfl) (.inl rfl)) fun _ => .ite (.ret _) ?_
  refine .bind (built_leaveOwning ht) fun _ => .ite (.ret _) ?_
  exact built_capturePhoto (free_of_photoCall hH) (built_photoRequest (free_of_photoCall hH)
    (built_awaitCompletion (free_of_waitCall hH)) fun _ => free_of_requestCall)

theorem within_initializeCamera : Within t [] Bool initializeCamera := by
  have hA := free_of_acquireCall (H := [.cameraOpsMutex_]) (by decide)
  refine within_lockGuard (by decide) (fun he => absurd he ht) (within_of_built ht ?_)
  exact .tryCatch (.bind (built_acquireCamera hA) fun _ => .ite (.ret _) <|
    .bind (.call (hA _ rfl)) fun _ => .bind (.call (.inl rfl)) fun _ => .ret _) (.ret _)

theorem within_reinitializeCamera : Within t [] Bool (reinitializeCamera legacy) := by
  have hH : Below [.cameraOpsMutex_] 2 := by decide
  have hA := free_of_acquireCall hH
  refine within_lockGuard (by decide) (fun he => absurd he ht) (within_of_built ht ?_)
  refine .bind (.call (.inl rfl)) fun _ =>
    .bind (.when _ (.part (within_stopVideoModeUnlocked ht))) fun _ =>
      .tryCatch ?_ (.bind (.call (.inl rfl)) fun _ => .ret _)
  refine .bind (built_releaseCamera hA (built_stopCameraIfRunning (free_of_stopCall hH))) fun _ =>
    .bind (.part (within_resetAllocator ht (by decide))) fun _ =>
      .bind (.part (within_shutdown ht (by decide))) fun _ => .bind (built_acquireCamera hA) fun _ =>
        .ite (.bind (.call (.inl rfl)) fun _ => .ret _) ?_
  exact .bind (.call (.inl rfl)) fun _ => .bind (.call (.inl rfl)) fun _ =>
    .bind (.call (.inl rfl)) fun _ => .bind (.call (.inl rfl)) fun _ => .ret _

theorem within_operate (op : Operation) : Within t [] Bool (operate legacy op) := by
  cases op with
  | initializeCamera => exact within_initializeCamera ht
  | takePicture => exact within_takePicture ht
  | startVideoMode width height fps => exact within_startVideoMode ht width height fps
  | stopVideoMode => exact within_stopVideoMode ht
  | reinitializeCamera => exact within_reinitializeCamera ht

end

/-! ## The other threads -/

section

variable {legacy : Bool}

theorem quiet_of_slotCall (c : SysCall) (h : slotCall c = true) : climbs c = none := by
  cases c <;> first | rfl | cases h

theorem quiet_of_recycleCall (c : SysCall) (h : recycleCall c = true) : climbs c = none := by
  cases c <;> first | rfl | cases h

theorem quiet_of_gstCall {c : SysCall} (h : gstCall c = true) : climbs c = none := by
  cases c <;> first | rfl | cases h

/-- A slot locks one mutex, and owns no other. -/
theorem within_completionTurn : Within .callback [] Unit (completionTurn legacy) := by
  have hrecycle : ∀ {H : List Mutex} (request : Nat), (recycleVideoRequest legacy request).Built
      (fun c => climbs c = none) (Within .callback H) :=
    fun _ => built_recycleVideoRequest quiet_of_recycleCall
  have hpush : ∀ request, Within .callback [] Unit (pushAndRecycle legacy request) := fun request =>
    within_lockGuard (by decide) (fun _ => by decide)
      (within_of_quiet (built_pushLocked quiet_of_slotCall (hrecycle request)))
  have hphoto : photoCompleted.Built (fun c => climbs c = none) (Within .callback []) :=
    built_lockGuard rfl rfl (.call rfl)
  refine within_of_quiet (.bind (.call rfl) fun completion => ?_)
  exact .bind (built_runSlots quiet_of_slotCall (hrecycle _) (.part (hpush _)) hphoto _)
    fun _ => .call rfl

/-- At a control point a thread owns nothing. -/
theorem wp_body {t : Tid} {w : World} {p : Prog Sys (Option t.Pc)} (h : Within t [] _ p)
    (hw : Held t [] w) :
    contract.wp t p (fun next w => ∀ pc : t.Pc, next = some pc → Held t [] w) (fun _ => True) w :=
  wp_mono (h w hw) (fun _ _ _ h _ _ => h) fun _ _ _ => trivial

/-- The threads that run besides the callers are libcamera's and those of the main loops. -/
def present : Tid → Bool
  | .caller _ | .callback | .gst _ => true
  | _ => false

def proof (legacy : Bool) : contract.Proof (crowd legacy) where
  holds t _ w := present t = true ∧ Held t [] w
  body t pc w _ h := by
    rcases h with ⟨ht, h⟩
    cases t with
    | caller n =>
      have hne : Tid.caller n ≠ .callback := nofun
      have hbody : Within (.caller n) [] _ (operationsBody legacy) :=
        within_of_built hne (.bind (.call (.inl rfl)) fun op =>
          .bind (.part (within_operate hne op)) fun _ => .ret _)
      exact wp_mono (wp_body hbody h) (fun _ _ _ h pc hpc => ⟨rfl, h pc hpc⟩) fun _ _ h => h
    | callback =>
      have hbody : Within .callback [] _ (callbackBody legacy) :=
        within_of_quiet (.bind (.part within_completionTurn) fun _ => .ret _)
      exact wp_mono (wp_body hbody h) (fun _ _ _ h pc hpc => ⟨rfl, h pc hpc⟩) fun _ _ h => h
    | gst n =>
      have hbody : Within (.gst n) [] _ (gstBody pc) :=
        within_of_quiet (built_gstBody pc fun _ => quiet_of_gstCall)
      exact wp_mono (wp_body hbody h) (fun _ _ _ h pc hpc => ⟨rfl, h pc hpc⟩) fun _ _ h => h
    | _ => cases ht

theorem valid_start (legacy : Bool) : (proof legacy).Valid (crowdStart legacy) := by
  have hnone : ∀ t w, contract.rely t .init w → Held t [] w := fun t w hr m _ ho => by
    cases hr m ho
  apply valid_crowdStart (proof legacy) trivial
  · exact fun n w hr _ => ⟨rfl, hnone _ w hr⟩
  · exact fun w hr _ => ⟨rfl, hnone _ w hr⟩
  · exact fun n w hr _ => ⟨rfl, hnone _ w hr⟩

end

/-! ## No cycle -/

section

variable {legacy : Bool} {cfg : Config (crowd legacy) World} {t u : Tid}

/-- The rank of what a thread waits for. -/
def level (cfg : Config (crowd legacy) World) (t : Tid) : Option Nat := (cfg.pending t).bind climbs

/-- Whoever is waited for waits higher up, if at all. -/
theorem level_of_waits (hvalid : (proof legacy).Valid cfg) (h : Waits cfg t u) :
    ∃ l, level cfg t = some l ∧ ∀ l', level cfg u = some l' → l < l' := by
  have hpre : ∀ l', level cfg u = some l' →
      (∀ m, m ≠ .completionMutex → cfg.world.owner m = some u → rank m < l') ∧
        (u = .callback → 2 < l') := by
    intro l' hl
    rcases Option.bind_eq_some_iff.mp hl with ⟨c, hc, hl⟩
    exact hvalid.pre hc l' hl
  cases h with
  | mutex m hm hpending howner =>
    refine ⟨rank m, ?_, fun l' hl => (hpre l' hl).1 m hm howner⟩
    rcases hpending with hpending | hpending <;> rw [level, hpending] <;> exact if_neg hm
  | stop hpending _ hu =>
    exact ⟨2, by rw [level, hpending]; rfl, fun l' hl => (hpre l' hl).2 hu⟩

theorem level_of_chain (hvalid : (proof legacy).Valid cfg)
    (h : Relation.TransGen (Waits cfg) t u) :
    ∃ l, level cfg t = some l ∧ ∀ l', level cfg u = some l' → l < l' := by
  induction h with
  | single h => exact level_of_waits hvalid h
  | tail _ h ih =>
    rcases ih with ⟨l, hl, hlt⟩
    rcases level_of_waits hvalid h with ⟨m, hm, hmt⟩
    exact ⟨l, hl, fun l' hl' => (hlt m hm).trans (hmt l' hl')⟩

end

end LockOrder

/-- However many threads call the operations, and whatever fails: no thread waits, over a chain of
mutexes and of slots that a stop waits for, for itself. -/
theorem CameraManager.no_wait_cycle {legacy : Bool} {cfg : Config (crowd legacy) World}
    (hrun : Run system anyStep (crowdStart legacy) cfg) (t : Tid) :
    ¬ Relation.TransGen (LockOrder.Waits cfg) t t := by
  intro hcycle
  have hvalid := (LockOrder.proof legacy).sound (LockOrder.valid_start legacy) hrun
  rcases LockOrder.level_of_chain hvalid hcycle with ⟨l, hl, hlt⟩
  exact Nat.lt_irrefl l (hlt l hl)

/-- A stop waits for a slot, and a second one for the first. -/
def LockOrder.twoStops : List (Choice Sys Tid World Signal) :=
  runs (.caller 0) .initializeCamera 13 ++ runs (.caller 0) (.startVideoMode 640 480 15) 54 ++
    runs .callback .stopVideoMode 2 ++ runs (.caller 0) .stopVideoMode 11 ++
      runs (.caller 1) .stopVideoMode 2

theorem CameraManager.no_wait_cycle_two_stops :
    ∃ cfg : Config (crowd false) World,
      Relation.TransGen (LockOrder.Waits cfg) (.caller 1) .callback ∧
        ∀ t, ¬ Relation.TransGen (LockOrder.Waits cfg) t t := by
  obtain ⟨cfg, hrun, htest⟩ := exec_reaches system (fun _ _ => true) (crowdStart false)
    LockOrder.twoStops
    (fun cfg => cfg.pending (.caller 1) = some (.lock .videoTeardownMutex_) ∧
      cfg.world.owner .videoTeardownMutex_ = some (.caller 0) ∧
        cfg.pending (.caller 0) = some .stopEnd ∧ cfg.world.device.delivering.isSome = true)
    (by decide +kernel)
  rcases of_decide_eq_true htest with ⟨hlock, howner, hstop, hslot⟩
  have hfirst : LockOrder.Waits cfg (.caller 1) (.caller 0) :=
    .mutex .videoTeardownMutex_ nofun (.inl hlock) howner
  have hsecond : LockOrder.Waits cfg (.caller 0) .callback := .stop hstop hslot rfl
  exact ⟨cfg, .tail (.single hfirst) hsecond,
    fun t => CameraManager.no_wait_cycle (hrun.mono fun _ _ _ => trivial) t⟩

end SurfCam
