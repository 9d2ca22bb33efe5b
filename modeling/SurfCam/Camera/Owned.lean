import SurfCam.Camera.Footprint
import SurfCam.Camera.Locks

/-!
# Code that gives `cameraOpsMutex_` up for a while

`startVideoMode` and `takePicture` hold `cameraOpsMutex_`, apart from the stops and rollbacks in
between.  What a thread knows as long as it owns the mutex, it knows again when it has taken the
mutex again.
-/

namespace SurfCam

open Interaction CameraManager Contract

/-- The calls of the teardowns. -/
def stoppingCall (c : SysCall) : Bool :=
  teardownCall c || shutdownCall c || c = .lock .pipelinePushMutex_ ||
    c = .unlock .pipelinePushMutex_

/-- The calls of `startVideoMode` that leave `cameraOpsMutex_` with its owner. -/
def startCall (c : SysCall) : Bool :=
  c ≠ .unlock .cameraOpsMutex_ && (stoppingCall c || pipelineCall c || videoCall c ||
    requestCall c || c = .store .gstPipelineError_ false)

variable {W E : Type} {M : Machine Sys Tid W E} {ok : W → Label Sys Tid E → Prop}
  {C : Contract M ok} {t : Tid} {Own : W → Prop} {w : W} {legacy : Bool}

/-- `Own` holds while thread `t` owns the mutex, and the teardowns may run anywhere. -/
structure Owned (C : Contract M ok) (t : Tid) (Own : W → Prop) : Prop where
  rely : ∀ w w', C.rely t w w' → C.inv w' → Own w → Own w'
  stopping : ∀ c, stoppingCall c = true → ∀ w, C.inv w → C.pre t c w
  taken : ∀ c, c = .lock .cameraOpsMutex_ ∨ c = .relock .cameraOpsMutex_ → ∀ w r w',
    ok w (.act t c r) → M.act t c r w = some w' → Own w'

namespace Owned

theorem built_shutdown {X : ∀ α : Type, Prog Sys α → Prop} :
    shutdownGstreamerPipeline.Built (fun c => stoppingCall c = true) X :=
  built_shutdownGstreamerPipeline (fun c h => by simp [stoppingCall, h]) (by decide) (by decide)

theorem stopping_of_teardownCall {c : SysCall} (h : teardownCall c = true) :
    stoppingCall c = true := by
  simp [stoppingCall, h]

variable (O : Owned C t Own)

include O

/-- A thread that takes the mutex again owns it. -/
theorem wp_relock {X : W → Prop} :
    C.wp t (sys (.relock .cameraOpsMutex_)) (fun _ => Own) X w := by
  refine fun w _ hi => ⟨O.stopping _ (by decide) w hi, fun r w' hok hact => ?_⟩
  have hown := O.taken _ (.inr rfl) w r w' hok hact
  exact fun v hr hi => O.rely w' v hr hi hown

theorem wp_unlock {X : W → Prop} :
    C.wp t (sys (.unlock .cameraOpsMutex_)) (fun _ _ => True) X w :=
  fun w _ hi => ⟨O.stopping _ (by decide) w hi, fun _ _ _ _ _ _ _ => trivial⟩

theorem wp_stopVideoMode {X : W → Prop} :
    C.wp t (stopVideoMode legacy) (fun _ _ => True) X w := by
  have hbuilt : (stopVideoMode legacy).Built (fun c => stoppingCall c = true) Prog.noParts :=
    built_stopVideoMode (fun _ => stopping_of_teardownCall) built_shutdown
  exact wp_mono (wp_of_returns noThrow_stopVideoMode (wp_of_built hbuilt O.stopping))
    (fun _ _ _ h => h.1) fun _ _ h => h

/-- The mutex is owned again after video mode was stopped. -/
theorem wp_stopVideoModeUnlocked {X : W → Prop} :
    C.wp t (stopVideoModeUnlocked legacy) (fun _ => Own) X w :=
  wp_bind_of O.wp_unlock fun _ _ _ _ => wp_bind_of O.wp_stopVideoMode fun _ _ _ _ => O.wp_relock

/-- A rollback ends with the mutex owned, whichever way it ends. -/
theorem keeps_rollbackUnlocked : C.Keeps t Own (rollbackUnlocked legacy) := by
  intro w _
  have hrollback : (rollbackFailedVideoStart legacy).Built (fun c => stoppingCall c = true)
      Prog.noParts :=
    built_rollbackFailedVideoStart (fun _ => stopping_of_teardownCall) built_shutdown
  refine wp_bind_of O.wp_unlock fun _ w _ _ => wp_bind_of (Q := fun _ => Own) ?_ ?_
  · apply wp_ensuring_of
    exact wp_mono (wp_of_built hrollback O.stopping) (fun _ _ _ _ => O.wp_relock)
      fun _ _ _ => O.wp_relock
  · exact fun _ w _ h v hr hi => O.rely w v hr hi h

omit O

/-- The parts of `startVideoMode` that give the mutex up. -/
def parts (legacy : Bool) (α : Type) (p : Prog Sys α) : Prop :=
  Prog.onlyPart (stopVideoModeUnlocked legacy) α p ∨ Prog.onlyPart (rollbackUnlocked legacy) α p

/-- A kind of calls of `startVideoMode` without the unlock. -/
theorem startCall_of {calls : SysCall → Bool} (hunlock : calls (.unlock .cameraOpsMutex_) = false)
    (hcalls : ∀ c, calls c = true → stoppingCall c = true ∨ pipelineCall c = true ∨
      videoCall c = true ∨ requestCall c = true) (c : SysCall) (hc : calls c = true) :
    startCall c = true := by
  have hne : c ≠ .unlock .cameraOpsMutex_ := by
    intro he
    rw [he, hunlock] at hc
    cases hc
  unfold startCall
  rw [decide_eq_true hne, Bool.true_and]
  simp only [Bool.or_eq_true]
  have h := hcalls c hc
  tauto

/-- Nothing else in `startVideoMode` gives the mutex up. -/
theorem built_startLocked {width height fps : Nat} :
    (startVideoModeLocked legacy width height fps).Built (fun c => startCall c = true)
      (parts legacy) := by
  have hS : ∀ c, stopCall c = true → startCall c = true :=
    startCall_of rfl fun _ h => .inl (stopping_of_teardownCall (teardownCall_of_stopCall h))
  have hG : ∀ c, pipelineCall c = true → startCall c = true :=
    startCall_of rfl fun _ h => .inr (.inl h)
  have hV : ∀ c, videoCall c = true → startCall c = true :=
    startCall_of rfl fun _ h => .inr (.inr (.inl h))
  have hR : ∀ c, requestCall c = true → startCall c = true :=
    startCall_of rfl fun _ h => .inr (.inr (.inr h))
  have hQ : ∀ c, shutdownCall c = true → startCall c = true :=
    startCall_of rfl fun c h => .inl (by simp [stoppingCall, h])
  have hr : resetAllocator.Built (fun c => startCall c = true) (parts legacy) :=
    built_lockGuard rfl rfl (.call rfl)
  have hk : ∀ request, (keepRequest request).Built (fun c => startCall c = true) (parts legacy) :=
    fun _ => built_lockGuard rfl rfl (.bind (.call rfl) fun _ => built_orThrow _)
  have hb : (rollbackUnlocked legacy).Built (fun c => startCall c = true) (parts legacy) :=
    .part (.inr ⟨rfl, rfl⟩)
  have hu : (stopVideoModeUnlocked legacy).Built (fun c => startCall c = true) (parts legacy) :=
    .part (.inl ⟨rfl, rfl⟩)
  have hs : shutdownGstreamerPipeline.Built (fun c => startCall c = true) (parts legacy) :=
    built_shutdownGstreamerPipeline hQ (by decide) (by decide)
  have hp : startPipeline.Built (fun c => startCall c = true) (parts legacy) :=
    built_startPipeline hG hs (by decide)
  exact built_startVideoModeLocked hS hV (built_initializeGstreamerPipeline hG hs hp) hr hb
    (built_queueBuffer hR hk hb) hu _ _ _

include O

/-- `startVideoMode`, where the other calls of it need the mutex at most. -/
theorem keeps_startVideoMode {width height fps : Nat}
    (hstart : ∀ c, startCall c = true → ∀ w, C.inv w → Own w → C.pre t c w ∧
      ∀ r w', ok w (.act t c r) → M.act t c r w = some w' → Own w') :
    C.Keeps t (fun _ => True) (startVideoMode legacy width height fps) := by
  refine keeps_lockGuard (B := Own) (fun _ _ _ _ _ => trivial) O.rely ?_ ?_
    (keeps_of_built O.rely hstart ?_ built_startLocked)
  · exact fun w hi _ => ⟨O.stopping _ (by decide) w hi, O.taken _ (.inl rfl) w⟩
  · exact fun w hi _ => ⟨O.stopping _ (by decide) w hi, fun _ _ _ _ => trivial⟩
  · rintro α p (⟨rfl, rfl⟩ | ⟨rfl, rfl⟩)
    · exact fun w _ => O.wp_stopVideoModeUnlocked
    · exact O.keeps_rollbackUnlocked

end Owned

end SurfCam
