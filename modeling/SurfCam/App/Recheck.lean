import SurfCam.Camera.Owned
import SurfCam.System

/-!
# A snapshot against a session

`takePicture` gives `cameraOpsMutex_` up while it stops video mode, and takes it again for the
photo.  Video mode is turned on with that mutex locked only, so it is off during the photo if it
was off when the mutex was taken again.
-/

namespace SurfCam

open Interaction CameraManager Contract

namespace Recheck

/-- When `takePicture` takes its mutex again, video mode is off. -/
def finds (w : World) : Label Sys Tid Signal → Bool
  | .act .snapshot (.relock .cameraOpsMutex_) _ => !w.flag .isVideoMode_
  | _ => true

/-- The calls that turn video mode on. -/
def turnsOn : SysCall → Bool
  | .store f value | .exchange f value => f = .isVideoMode_ ∧ value
  | _ => false

/-- The calls that configure or start the camera. -/
def setsUp : SysCall → Bool
  | .configure _ | .cameraStart => true
  | _ => false

theorem flag_after {t : Tid} {c : SysCall} {r : c.Reply} {w : World} (hc : turnsOn c = false)
    (h : w.flag .isVideoMode_ = false) : (w.after t c r).flag .isVideoMode_ = false := by
  have hset : ∀ f value, (f = .isVideoMode_ ∧ value = true) = False →
      Function.update w.flag f value .isVideoMode_ = false := by
    intro f value hf
    rw [Function.update_apply]
    split
    · rename_i he
      exact Bool.eq_false_iff.mpr fun hv => hf.mp ⟨he.symm, hv⟩
    · exact h
  cases c with
  | store f value => exact hset f value (eq_false (of_decide_eq_false hc))
  | exchange f value => exact hset f value (eq_false (of_decide_eq_false hc))
  | _ => exact h

/-- The thread owns `cameraOpsMutex_`. -/
def Owns (t : Tid) (w : World) : Prop := w.owner .cameraOpsMutex_ = some t

/-- Video mode is turned on by the owner of the mutex, and the snapshot sets up the camera with
video mode off. -/
def contract : Contract system (fun w l => finds w l = true) where
  inv _ := True
  pre t c w :=
    (turnsOn c = true → Owns t w) ∧
      (t = .snapshot → setsUp c = true → w.flag .isVideoMode_ = false)
  rely t w w' :=
    Owns t w → Owns t w' ∧ (w.flag .isVideoMode_ = false → w'.flag .isVideoMode_ = false)
  rely_refl _ _ h := ⟨h, id⟩
  rely_trans h h' ho := ⟨(h' (h ho).1).1, (h' (h ho).1).2 ∘ (h ho).2⟩
  inv_act _ _ _ _ := trivial
  inv_env _ _ _ := trivial
  rely_act {t u c r w w'} hne _ hpre _ hact ho := by
    rcases system_act.mp hact with ⟨hanswer, rfl⟩
    refine ⟨World.owner_kept nofun ho hanswer fun _ => Ne.symm hne, flag_after ?_⟩
    refine Bool.eq_false_iff.mpr fun hon => hne ?_
    -- who turns it on owns the mutex, so it is the thread itself
    exact Option.some.inj (ho.symm.trans (hpre.1 hon))
  rely_env _ _ henv ho := by
    cases henv
    exact ⟨ho, id⟩

theorem owns_rely {t : Tid} (w w' : World) (hr : contract.rely t w w') (_ : contract.inv w')
    (h : Owns t w) : Owns t w' := (hr h).1

/-- The snapshot owns the mutex, and video mode is off. -/
def Off (w : World) : Prop := Owns .snapshot w ∧ w.flag .isVideoMode_ = false

theorem off_rely (w w' : World) (hr : contract.rely .snapshot w w') (_ : contract.inv w')
    (h : Off w) : Off w' := ⟨(hr h.1).1, (hr h.1).2 h.2⟩

/-- The calls that may be made anywhere. -/
def Plain (c : SysCall) : Prop := turnsOn c = false ∧ setsUp c = false

theorem pre_of_plain {t : Tid} {c : SysCall} {w : World} (h : Plain c) : contract.pre t c w :=
  ⟨fun hon => Bool.noConfusion (h.1.symm.trans hon),
    fun _ hset => Bool.noConfusion (h.2.symm.trans hset)⟩

theorem wp_of_plain {α : Type} {t : Tid} {p : Prog Sys α} {w : World}
    (hp : p.Built Plain Prog.noParts) :
    contract.wp t p (fun _ _ => True) (fun _ => True) w :=
  wp_of_built hp fun _ hc _ _ => pre_of_plain hc

/-- The calls that are not plain, besides `configure`. -/
def loud : List SysCall := [.store .isVideoMode_ true, .exchange .isVideoMode_ true, .cameraStart]

/-- A kind of calls without these. -/
theorem plain_of {calls : SysCall → Bool} (h : ∀ c ∈ loud, calls c = false)
    (hconfigure : ∀ config, calls (.configure config) = false) {c : SysCall}
    (hc : calls c = true) : Plain c := by
  have hne : ∀ c' ∈ loud, c ≠ c' := fun c' hc' he => not_mem_of h c hc (he ▸ hc')
  cases c with
  | store f value =>
    refine ⟨decide_eq_false fun hon => ?_, rfl⟩
    obtain ⟨rfl, rfl⟩ := hon
    exact hne _ (by decide) rfl
  | exchange f value =>
    refine ⟨decide_eq_false fun hon => ?_, rfl⟩
    obtain ⟨rfl, rfl⟩ := hon
    exact hne _ (by decide) rfl
  | configure config =>
    rw [hconfigure] at hc
    cases hc
  | cameraStart => exact absurd rfl (hne _ (by decide))
  | _ => exact ⟨rfl, rfl⟩

theorem plain_of_teardownCall {c : SysCall} : teardownCall c = true → Plain c :=
  plain_of (by decide) fun _ => rfl

theorem plain_of_shutdownCall {c : SysCall} : shutdownCall c = true → Plain c :=
  plain_of (by decide) fun _ => rfl

theorem plain_of_acquireCall {c : SysCall} : acquireCall c = true → Plain c :=
  plain_of (by decide) fun _ => rfl

theorem plain_of_workerCall {c : SysCall} : App.workerCall c = true → Plain c :=
  plain_of (by decide) fun _ => rfl

section

variable {legacy : Bool} {X : ∀ α : Type, Prog Sys α → Prop}

theorem built_shutdown : shutdownGstreamerPipeline.Built Plain X :=
  built_shutdownGstreamerPipeline (fun _ => plain_of_shutdownCall) ⟨rfl, rfl⟩ ⟨rfl, rfl⟩

theorem built_stop : (stopVideoMode legacy).Built Plain X :=
  built_stopVideoMode (fun _ => plain_of_teardownCall) built_shutdown

end

theorem plain_of_stoppingCall {c : SysCall} : stoppingCall c = true → Plain c :=
  plain_of (by decide) fun _ => rfl

/-! ## startVideoMode -/

theorem owned (t : Tid) : Owned contract t (Owns t) where
  rely := owns_rely
  stopping _ h _ _ := pre_of_plain (plain_of_stoppingCall h)
  taken c hc w r w' _ hact := by
    obtain ⟨-, rfl⟩ := system_act.mp hact
    cases hc with
    | inl he =>
      subst he
      exact World.owner_after_lock
    | inr he =>
      subst he
      exact World.owner_after_relock

/-- The calls that leave the mutex owned. -/
def Steady (c : SysCall) : Prop := c ≠ .unlock .cameraOpsMutex_

/-- Other threads than the snapshot's may turn video mode on and set up the camera. -/
theorem owns_call {t : Tid} {c : SysCall} {w : World} (ht : t ≠ .snapshot) (hc : Steady c)
    (h : Owns t w) : contract.pre t c w ∧ ∀ r w', finds w (.act t c r) = true →
      system.act t c r w = some w' → Owns t w' := by
  refine ⟨⟨fun _ => h, fun hs => absurd hs ht⟩, fun r w' _ hact => ?_⟩
  rcases system_act.mp hact with ⟨hanswer, rfl⟩
  exact World.owner_kept nofun h hanswer fun he => absurd he hc

/-- `startVideoMode` may be run anywhere but in the snapshot's thread. -/
theorem keeps_startVideoMode {legacy : Bool} {t : Tid} {width height fps : Nat}
    (ht : t ≠ .snapshot) :
    contract.Keeps t (fun _ => True) (startVideoMode legacy width height fps) := by
  refine (owned t).keeps_startVideoMode fun c hc w _ h => owns_call ht ?_ h
  rintro rfl
  cases hc

/-! ## takePicture -/

/-- The calls that leave the mutex owned and video mode off. -/
def Quiet (c : SysCall) : Prop := Steady c ∧ turnsOn c = false

theorem off_call {c : SysCall} {w : World} (hc : Quiet c) (h : Off w) :
    contract.pre .snapshot c w ∧ ∀ r w', finds w (.act .snapshot c r) = true →
      system.act .snapshot c r w = some w' → Off w' := by
  refine ⟨⟨fun _ => h.1, fun _ _ => h.2⟩, fun r w' _ hact => ?_⟩
  rcases system_act.mp hact with ⟨hanswer, rfl⟩
  exact ⟨World.owner_kept nofun h.1 hanswer fun he => absurd he hc.1, flag_after hc.2 h.2⟩

theorem keeps_off {α : Type} {p : Prog Sys α} (hp : p.Built Quiet Prog.noParts) :
    contract.Keeps .snapshot Off p :=
  keeps_of_built off_rely (fun _ hc _ _ h => off_call hc h) (fun _ _ h => h.elim) hp

theorem built_photo {legacy : Bool} : (capturePhoto legacy).Built Quiet Prog.noParts := by
  have hC : ∀ c, photoCall c = true → Quiet c := by
    intro c h
    refine ⟨?_, ?_⟩
    · rintro rfl
      cases h
    · cases c with
      | store f value => cases f <;> first | rfl | cases h
      | _ => first | rfl | cases h
  have hW : ∀ c, waitCall c = true → Quiet c := by
    intro c h
    refine ⟨?_, by cases c <;> first | rfl | cases h⟩
    rintro rfl
    cases h
  have hR : ∀ c, requestCall c = true → Quiet c := by
    intro c h
    refine ⟨?_, by cases c <;> first | rfl | cases h⟩
    rintro rfl
    cases h
  exact built_capturePhoto hC (built_photoRequest hC (built_awaitCompletion hW) hR)

/-- The snapshot's `relock` finds video mode off. -/
theorem wp_relockOff {X : World → Prop} {w : World} :
    contract.wp .snapshot (sys (.relock .cameraOpsMutex_)) (fun _ => Off) X w := by
  refine fun w _ _ => ⟨pre_of_plain ⟨rfl, rfl⟩, fun _ w' hok hact => ?_⟩
  rcases system_act.mp hact with ⟨-, rfl⟩
  -- the run condition: the mutex comes back with video mode off
  have hoff : w.flag .isVideoMode_ = false := (Bool.not_eq_true' _).mp hok
  exact fun v hr hi => off_rely _ v hr hi ⟨World.owner_after_relock, hoff⟩

/-- After `leaveVideoMode` the mutex is owned and video mode is off. -/
theorem wp_leaveVideoMode {legacy : Bool} {w : World} (h : Owns .snapshot w) :
    contract.wp .snapshot (leaveVideoMode legacy) (fun _ => Off) (fun _ => True) w := by
  refine wp_call_of owns_rely h fun w _ h => ⟨pre_of_plain ⟨rfl, rfl⟩, fun on w' _ hact => ?_⟩
  rcases system_act.mp hact with ⟨hanswer, rfl⟩
  cases on with
  | false =>
    -- video mode was found off while the mutex is owned
    have hoff : false = w.flag .isVideoMode_ :=
      of_decide_eq_true (World.shared_of_answers hanswer)
    exact fun v hr hi => off_rely _ v hr hi ⟨h, hoff.symm⟩
  | true =>
    have hstop : ∀ w, contract.wp .snapshot (stopVideoModeUnlocked legacy) (fun _ => Off)
        (fun _ => True) w := fun w =>
      wp_bind_of (owned _).wp_unlock fun _ _ _ _ =>
        wp_bind_of (owned _).wp_stopVideoMode fun _ _ _ _ => wp_relockOff
    refine wp_bind_of (hstop _) fun _ w _ h => ?_
    have hready := keeps_off (built_cameraReady ⟨nofun, rfl⟩ ⟨nofun, rfl⟩)
    exact wp_mono (hready w h) (fun _ _ _ h => h) fun _ _ _ => trivial

/-- The scope of `cameraLock` in `takePicture`. -/
theorem keeps_takePicture {legacy : Bool} :
    contract.Keeps .snapshot (fun _ => True) (takePicture legacy) := by
  intro w _
  refine wp_call_of true_rely trivial fun w _ _ =>
    ⟨pre_of_plain ⟨rfl, rfl⟩, fun _ w' _ hact => ?_⟩
  have howns : Owns .snapshot w' := by
    rcases system_act.mp hact with ⟨-, rfl⟩
    exact World.owner_after_lock
  refine wp_ensuring_of (wp_mono (Q := fun _ _ => True) (X := fun _ => True) ?_
    (fun _ _ _ _ => (owned _).wp_unlock) fun _ _ _ => (owned _).wp_unlock)
  -- owned until video mode is left
  have howned : ∀ {c w}, Plain c → Steady c → Owns .snapshot w → contract.pre .snapshot c w ∧
      ∀ r w', finds w (.act .snapshot c r) = true → system.act .snapshot c r w = some w' →
        Owns .snapshot w' := by
    intro c w hplain hc h
    refine ⟨pre_of_plain hplain, fun r w' _ hact => ?_⟩
    rcases system_act.mp hact with ⟨hanswer, rfl⟩
    exact World.owner_kept nofun h hanswer fun he => absurd he hc
  refine wp_call_of owns_rely howns fun w _ h => ?_
  have hpaused := howned (c := .load .snapshotsPaused_) ⟨rfl, rfl⟩ nofun h
  refine ⟨hpaused.1, fun paused w' hok hact => ?_⟩
  have h := hpaused.2 paused w' hok hact
  cases paused with
  | true => exact fun _ _ _ => trivial
  | false =>
  have hready : contract.Keeps .snapshot (Owns .snapshot) cameraReady :=
    keeps_of_built owns_rely (fun c hc w _ h => howned hc.1 hc.2 h) (fun _ _ h => h.elim)
      (built_cameraReady (P := fun c => Plain c ∧ Steady c) (X := Prog.noParts)
        ⟨⟨rfl, rfl⟩, nofun⟩ ⟨⟨rfl, rfl⟩, nofun⟩)
  have hphoto : ∀ w, Off w → contract.wp .snapshot (capturePhoto legacy) (fun _ _ => True)
      (fun _ => True) w := fun w h =>
    wp_mono (keeps_off built_photo w h) (fun _ _ _ _ => trivial) fun _ _ _ => trivial
  refine wp_bind_of (wp_mono (hready w' h) (R := fun _ => Owns .snapshot) (Y := fun _ => True)
    (fun _ _ _ h => h) fun _ _ _ => trivial) fun ready w _ h => ?_
  cases ready with
  | false => exact fun _ _ _ => trivial
  | true =>
  refine wp_bind_of (wp_leaveVideoMode h) fun left w _ h => ?_
  cases left with
  | false => exact fun _ _ _ => trivial
  | true => exact hphoto w h

/-! ## The threads -/

theorem wp_true {t : Tid} {α : Type} {p : Prog Sys α} {w : World}
    (h : contract.Keeps t (fun _ => True) p) {Q : α → World → Prop} (hQ : ∀ a w, Q a w) :
    contract.wp t p Q (fun _ => True) w :=
  wp_mono (h w trivial) (fun a w _ _ => hQ a w) fun _ _ _ => trivial

/-- Plain calls, and parts that may be run anywhere. -/
theorem keeps_of_plain {t : Tid} {α : Type} {X : ∀ α : Type, Prog Sys α → Prop} {p : Prog Sys α}
    (hX : ∀ α p, X α p → contract.Keeps t (fun _ => True) p) (hp : p.Built Plain X) :
    contract.Keeps t (fun _ => True) p :=
  keeps_of_built true_rely (fun _ hc _ _ _ => ⟨pre_of_plain hc, fun _ _ _ _ => trivial⟩) hX hp

theorem plain_of_completionCall {c : SysCall} : completionCall c = true → Plain c :=
  plain_of (by decide) fun _ => rfl

theorem plain_of_gstCall {c : SysCall} : gstCall c = true → Plain c :=
  plain_of (by decide) fun _ => rfl

/-- The parts of the threads with a proof of their own. -/
def threadParts (legacy : Bool) (t : Tid) (α : Type) (p : Prog Sys α) : Prop :=
  t ≠ .snapshot ∧ Prog.onlyPart (startVideoMode legacy Config.CAMERA_WIDTH Config.CAMERA_HEIGHT
    Config.STREAM_FPS) α p ∨ t = .snapshot ∧ Prog.onlyPart (takePicture legacy) α p

theorem keeps_body {legacy : Bool} {t : Tid} (ht : ∀ n, t ≠ .caller n) (pc : t.Pc) :
    contract.Keeps t (fun _ => True) ((code legacy).body t pc) := by
  have hW : ∀ c, App.workerCall c = true → Plain c := fun _ => plain_of_workerCall
  have hA : ∀ c, acquireCall c = true → Plain c := fun _ => plain_of_acquireCall
  have hT : ∀ c, teardownCall c = true → Plain c := fun _ => plain_of_teardownCall
  have hthread : ∀ c, threadCall t c = true → Plain c := by
    intro c h
    cases c with
    | store f value =>
      rw [store_of_threadCall h]
      exact ⟨rfl, rfl⟩
    | exchange f value =>
      rw [exchange_of_threadCall h]
      exact ⟨rfl, rfl⟩
    | _ => first | exact ⟨rfl, rfl⟩ | cases h
  refine keeps_of_plain (X := threadParts legacy t) ?_
    (built_appBody hW hthread ?_ ?_ ?_ ?_ (fun _ _ => plain_of_completionCall)
      (fun _ _ _ => plain_of_gstCall) ht pc)
  · rintro α p (⟨hne, rfl, rfl⟩ | ⟨rfl, rfl, rfl⟩)
    · exact keeps_startVideoMode hne
    · exact keeps_takePicture
  · exact fun _ => ⟨built_initializeCamera hA ⟨rfl, rfl⟩ ⟨rfl, rfl⟩ ⟨rfl, rfl⟩,
      built_destroy hA hT built_shutdown⟩
  · exact fun he => .part (.inr ⟨he, rfl, rfl⟩)
  · exact fun _ => ⟨⟨rfl, rfl⟩, App.built_recoverCamera hW ⟨rfl, rfl⟩ ⟨rfl, rfl⟩
      (built_reinitializeCamera hA hT built_shutdown fun _ => ⟨rfl, rfl⟩)⟩
  · rintro n rfl
    exact ⟨⟨rfl, rfl⟩, ⟨rfl, rfl⟩,
      App.built_hlsWorkerBegin hW ⟨rfl, rfl⟩ ⟨rfl, rfl⟩ ⟨rfl, rfl⟩
        (.part (.inl ⟨nofun, rfl, rfl⟩)), built_stop⟩

def proof (legacy : Bool) : contract.Proof (code legacy) where
  holds t _ _ := ∀ n, t ≠ .caller n
  body _ pc _ _ ht := wp_true (keeps_body ht pc) fun _ _ _ _ => ht

theorem valid_start (legacy : Bool) : (proof legacy).Valid (appStart legacy) := by
  apply valid_appStart _ trivial <;> exact fun _ _ _ => nofun

end Recheck

/-- In every run in which `takePicture` finds video mode off whenever it takes its mutex again:
video mode is off where the snapshot configures or starts the camera. -/
theorem App.photo_while_off {legacy : Bool} {cfg : Config (code legacy) World}
    (hrun : Run system (fun w l => Recheck.finds w l = true) (appStart legacy) cfg)
    {c : SysCall} (hc : cfg.pending .snapshot = some c) (hset : Recheck.setsUp c = true) :
    cfg.world.flag .isVideoMode_ = false :=
  (((Recheck.proof legacy).sound (Recheck.valid_start legacy) hrun).pre hc).2 rfl hset

/-- A thread makes so many calls in a row; the API says whether to stream, and everything goes
well. -/
def Recheck.turns (on : Bool) (t : Tid) (n : Nat) : List (Choice Sys Tid World Signal) :=
  List.replicate n (.run t fun w c =>
    match c with
    | .isStreamingRequested => some (some (some on))
    | c => w.willing .takePicture c)

/-- A session begins, and a snapshot stops its video mode. -/
def Recheck.snapshotStopsSession : List (Choice Sys Tid World Signal) :=
  turns true .main 18 ++ turns true .check 14 ++ turns true (.hls 0) 56 ++ turns true (.gst 1) 5 ++
    turns true .snapshot 20 ++ turns true .callback 3 ++ turns true .snapshot 12 ++
      turns true (.gst 1) 3 ++ turns true .snapshot 20

theorem App.photo_while_off_session :
    ∃ (cfg : Config (code false) World) (config : StreamConfig),
      cfg.pending .snapshot = some (.configure config) ∧
        cfg.world.flag .isVideoMode_ = false := by
  obtain ⟨cfg, hrun, htest⟩ := exec_reaches system Recheck.finds (appStart false)
    (Recheck.snapshotStopsSession ++ Recheck.turns true .snapshot 4)
    (fun cfg => cfg.pending .snapshot = some (.configure ⟨2592, 1944, .MJPEG, 1⟩))
    (by decide +kernel)
  have hc := of_decide_eq_true htest
  exact ⟨cfg, _, hc, App.photo_while_off hrun hc rfl⟩

/-- Between the stop and the relock the session ends, and the next one begins: the camera is
configured for the photo while it runs for the new session. -/
theorem App.photo_in_new_session :
    ∃ (cfg : Config (code false) World) (config : StreamConfig),
      Run system anyStep (appStart false) cfg ∧
        cfg.pending .snapshot = some (.configure config) ∧
          cfg.world.flag .isVideoMode_ = true ∧ cfg.world.device.running = true := by
  obtain ⟨cfg, hrun, htest⟩ := exec_reaches system (fun _ _ => true) (appStart false)
    (Recheck.snapshotStopsSession ++ Recheck.turns false .check 14 ++
      Recheck.turns false (.hls 0) 22 ++ Recheck.turns false .check 1 ++
        Recheck.turns true .check 13 ++ Recheck.turns true (.hls 1) 56 ++
          Recheck.turns true .snapshot 4)
    (fun cfg => cfg.pending .snapshot = some (.configure ⟨2592, 1944, .MJPEG, 1⟩) ∧
      cfg.world.flag .isVideoMode_ = true ∧ cfg.world.device.running = true) (by decide +kernel)
  exact ⟨cfg, _, hrun.mono fun _ _ _ => trivial, of_decide_eq_true htest⟩

end SurfCam
