import SurfCam.Camera.Callbacks

/-!
# What the camera code is put together from

Which calls every function of `CameraManager` makes, apart from the functions in it that deserve a
closer look.  `P` is what the calls have to meet, and `X` what the functions are that are left as
they are.
-/

namespace SurfCam

open Interaction Prog

namespace CameraManager

section

variable {P : SysCall → Prop} {X : ∀ α : Type, Prog Sys α → Prop} {α : Type} {legacy : Bool}

/-- A kind of calls that does not contain any call of a list. -/
theorem not_mem_of {strict : List SysCall} {calls : SysCall → Bool}
    (h : ∀ c ∈ strict, calls c = false) (c : SysCall) (hc : calls c = true) : c ∉ strict :=
  fun hmem => Bool.false_ne_true ((h c hmem).symm.trans hc)

theorem built_cameraReady (hi : P (.load .isInitialized_)) (hc : P (.isSet .camera_)) :
    Built P X cameraReady :=
  .bind (.call hi) fun _ => .ite (.ret _) (.call hc)

theorem built_lockGuard {m : Mutex} {scope : Prog Sys α} (hlock : P (.lock m))
    (hunlock : P (.unlock m)) (h : Built P X scope) : Built P X (lockGuard m scope) :=
  .bind (.call hlock) fun _ => .ensuring h (.call hunlock)

theorem built_check (r : Outcome) : Built P X r.check := by
  cases r
  · exact .ret true
  · exact .ret false
  · exact .throw

theorem built_orThrow (r : Outcome) : Built P X r.orThrow := by
  cases r
  · exact .ret ()
  · exact .throw
  · exact .throw

/-! ## Callbacks -/

/-- The calls of the slots, apart from `recycleVideoRequest` and from those on the mutexes. -/
def slotCall : SysCall → Bool
  | .load _ | .isSet _ | .requestStatusCancelled _ | .requestBuffers _ | .planeCount | .mapPlane
  | .unmapPlane | .bufferNewAllocate | .bufferMap | .bufferUnmap | .bufferUnref
  | .appSrcPushBuffer => true
  | .store f value => value ∧ (f = .gstPipelineError_ ∨ f = .completed)
  | _ => false

section

variable (hP : ∀ c, slotCall c = true → P c)

include hP

theorem built_allowPipeline : Built P X allowPipeline :=
  .bind (.call (hP _ rfl)) fun _ => .ite (.ret _) (.bind (.call (hP _ rfl)) fun _ => .ret _)

theorem built_pushGstBuffer : Built P X pushGstBuffer :=
  .bind (.call (hP _ rfl)) fun _ => .ite
    (.bind (.call (hP _ rfl)) fun _ => .bind (.call (hP _ rfl)) fun _ =>
      .when _ (.bind (.call (hP _ rfl)) fun _ => .call (hP _ rfl)))
    (.call (hP _ rfl))

/-- What `pushFrame` does once it has found `appsrc_` set. -/
theorem built_pushPlane : Built P X (do
      let planes ← if legacy then pure 1 else sys .planeCount
      if planes = 0 then return
      if (← sys .mapPlane) ≠ .ok then return
      Prog.when (← sys .bufferNewAllocate) pushGstBuffer
      sys .unmapPlane) := by
  -- the rest is the same for either way to count the planes
  refine .ite (.bind (.ret _) fun _ => ?_) (.bind (.call (hP _ rfl)) fun _ => ?_) <;>
    exact .ite (.ret _) <| .bind (.call (hP _ rfl)) fun _ => .ite (.ret _) <|
      .bind (.call (hP _ rfl)) fun _ => .bind (.when _ (built_pushGstBuffer hP)) fun _ =>
        .call (hP _ rfl)

theorem built_pushFrame : Built P X (pushFrame legacy) :=
  .bind (.call (hP _ rfl)) fun _ => .ite (.ret _) (built_pushPlane hP)

theorem built_pushFrames (buffers : Nat) : Built P X (pushFrames legacy buffers) := by
  induction buffers with
  | zero => exact .ret _
  | succ buffers ih => exact .bind (built_pushFrame hP) fun _ => ih

/-- The scope of `pipelinePushMutex_` in `requestComplete`. -/
theorem built_pushLocked {request : Nat} (hr : Built P X (recycleVideoRequest legacy request)) :
    Built P X (do
      let stillAllow ← allowPipeline
      let appsrc ← sys (.isSet .appsrc_)
      if !stillAllow || !appsrc then recycleVideoRequest legacy request
      else
        pushFrames legacy (← sys (.requestBuffers request))
        recycleVideoRequest legacy request) :=
  .bind (built_allowPipeline hP) fun _ => .bind (.call (hP _ rfl)) fun _ => .ite hr <|
    .bind (.call (hP _ rfl)) fun _ => .bind (built_pushFrames hP _) fun _ => hr

theorem built_requestComplete {request : Nat} (hr : Built P X (recycleVideoRequest legacy request))
    (hpush : Built P X (pushAndRecycle legacy request)) :
    Built P X (requestComplete legacy request) :=
  .bind (.call (hP _ rfl)) fun _ => .ite (.ret _) <|
    .bind (built_allowPipeline hP) fun _ => .ite hr hpush

theorem built_runSlots {request : Nat} (hr : Built P X (recycleVideoRequest legacy request))
    (hpush : Built P X (pushAndRecycle legacy request)) (hphoto : Built P X photoCompleted)
    (slots : List Slot) : Built P X (runSlots legacy request slots) := by
  induction slots with
  | nil => exact .ret _
  | cons s rest ih =>
    refine .bind ?_ fun _ => ih
    cases s with
    | photo => exact hphoto
    | video => exact built_requestComplete hP hr hpush

end

/-- The calls of the slots on the mutexes. -/
def slotGuardCall : SysCall → Bool
  | .lock m | .unlock m => m = .pipelinePushMutex_ ∨ m = .completionMutex
  | _ => false

theorem built_slots {request : Nat} (hP : ∀ c, slotCall c = true → P c)
    (hG : ∀ c, slotGuardCall c = true → P c)
    (hr : Built P X (recycleVideoRequest legacy request)) (slots : List Slot) :
    Built P X (runSlots legacy request slots) :=
  built_runSlots hP hr (built_lockGuard (hG _ rfl) (hG _ rfl) (built_pushLocked hP hr))
    (built_lockGuard (hG _ rfl) (hG _ rfl) (.call (hP _ rfl))) slots

/-- The calls of `recycleVideoRequest`. -/
def recycleCall : SysCall → Bool
  | .reuse _ | .cameraIsRunning | .queueRequest _ => true
  | .isSet p => p = .camera_
  | _ => false

theorem built_recycleVideoRequest {request : Nat} (hP : ∀ c, recycleCall c = true → P c) :
    Built P X (recycleVideoRequest legacy request) := by
  refine .bind (.call (hP _ rfl)) fun _ => .bind (.call (hP _ rfl)) fun _ => .ite (.ret _) ?_
  refine .ite (.bind (.ret _) fun _ => ?_) (.bind (.call (hP _ rfl)) fun _ => ?_) <;>
    exact .ite (.ret _) (.bind (.call (hP _ rfl)) fun _ => .ret _)

/-- The calls of libcamera's thread. -/
def completionCall (c : SysCall) : Bool :=
  slotCall c || slotGuardCall c || recycleCall c || c = .nextCompletion || c = .completionDone

theorem built_completionTurn (hP : ∀ c, completionCall c = true → P c) :
    Built P X (completionTurn legacy) := by
  have hslot : ∀ c, slotCall c = true → P c := fun c h => hP c (by simp [completionCall, h])
  have hguard : ∀ c, slotGuardCall c = true → P c := fun c h => hP c (by simp [completionCall, h])
  have hrecycle : ∀ c, recycleCall c = true → P c := fun c h => hP c (by simp [completionCall, h])
  exact .bind (.call (hP _ rfl)) fun completion =>
    .bind (built_slots hslot hguard (built_recycleVideoRequest hrecycle) _) fun _ =>
      .call (hP _ rfl)

/-- The calls of a turn of a main loop. -/
def turnCall : SysCall → Bool
  | .threadEnd | .mainLoopTurn | .mainLoopIsRunning | .mainLoopQuit => true
  | .isSet p => p = .loop_
  | .store f value => f = .gstRunning_ ∨ f = .gstPipelineError_ ∧ value
  | _ => false

theorem built_gstThreadTurn (hP : ∀ c, turnCall c = true → P c) : Built P X gstThreadTurn := by
  refine .bind (.call (hP _ rfl)) fun turn => ?_
  cases turn with
  | message m =>
    refine .bind ?_ fun _ => .ret _
    cases m with
    | error =>
      exact .bind (.call (hP _ rfl)) fun _ => .bind (.call (hP _ rfl)) fun _ => .ite (.ret _) <|
        .bind (.call (hP _ rfl)) fun _ => .when _ (.call (hP _ rfl))
    | eos => exact .ret _
    | other => exact .ret _
  | returned => exact .bind (.call (hP _ rfl)) fun _ => .bind (.call (hP _ rfl)) fun _ => .ret _

/-- The calls of the threads of the main loops. -/
def gstCall (c : SysCall) : Bool := turnCall c || c = .threadBegin || c = .mainLoopEnter

theorem built_gstThreadBegin (hP : ∀ c, gstCall c = true → P c) : Built P X gstThreadBegin :=
  .bind (.call (hP _ rfl)) fun _ => .bind (.call (hP _ rfl)) fun _ => .call (hP _ rfl)

/-! ## Stopping -/

/-- The calls that stop the camera, apart from `shutdownGstreamerPipeline` and from those on the
mutexes. -/
def stopCall : SysCall → Bool
  | .load f => f = .isVideoMode_ ∨ f = .isInitialized_
  | .store f value => f = .captureActive_ ∧ !value ∨ f = .shuttingDown_ ∨ f = .isVideoMode_ ∧ !value
  | .isSet p => p = .camera_ ∨ p = .videoRequestSlot
  | .assign p value => !value ∧ (p = .videoRequestSlot ∨ p = .allocator_)
  | .disconnect s => s = .video
  | .cameraIsRunning | .stopBegin | .stopEnd | .pendingClear => true
  | _ => false

/-- Those of `disconnectVideoRequestSlot`. -/
def dropSlotCall : SysCall → Bool
  | .isSet p => p = .camera_ ∨ p = .videoRequestSlot
  | .assign p value => !value ∧ p = .videoRequestSlot
  | .disconnect s => s = .video
  | _ => false

theorem stopCall_of_dropSlotCall {c : SysCall} (h : dropSlotCall c = true) : stopCall c = true := by
  cases c with
  | isSet p => exact h
  | assign p value =>
    obtain ⟨hvalue, hp⟩ : !value ∧ p = .videoRequestSlot := of_decide_eq_true h
    exact decide_eq_true ⟨hvalue, .inl hp⟩
  | disconnect s => exact h
  | _ => cases h

theorem built_dropSlot (hP : ∀ c, dropSlotCall c = true → P c) :
    Built P X (disconnectVideoRequestSlot legacy) := by
  refine .ite (.bind (.call (hP _ rfl)) fun _ => ?_) (.bind (.ret _) fun _ => ?_) <;>
    exact .ite (.ret _) <| .bind (.call (hP _ rfl)) fun _ =>
      .when _ (.bind (.call (hP _ rfl)) fun _ => .call (hP _ rfl))

section

variable (hS : ∀ c, stopCall c = true → P c)

include hS

theorem built_cameraStop : Built P X cameraStop :=
  .bind (.call (hS _ rfl)) fun _ => .call (hS _ rfl)

theorem built_stopCameraIfRunning : Built P X (stopCameraIfRunning legacy) :=
  .bind (.call (hS _ rfl)) fun _ => .ite (.ret _) <| .ite (built_cameraStop hS) <|
    .bind (.call (hS _ rfl)) fun _ => .when _ (built_cameraStop hS)

theorem built_disconnectVideoRequestSlot : Built P X (disconnectVideoRequestSlot legacy) :=
  built_dropSlot fun c h => hS c (stopCall_of_dropSlotCall h)

theorem built_leaveVideoMode (hu : Built P X (stopVideoModeUnlocked legacy)) :
    Built P X (leaveVideoMode legacy) :=
  .bind (.call (hS _ rfl)) fun _ => .ite (.ret _) <|
    .bind hu fun _ => built_cameraReady (hS _ rfl) (hS _ rfl)

end

/-- The calls on the mutexes of the operations. -/
def guardCall : SysCall → Bool
  | .lock m | .unlock m => m ≠ .pipelinePushMutex_ ∧ m ≠ .completionMutex
  | .relock m => m = .cameraOpsMutex_
  | _ => false

/-- The calls of the teardown, apart from `shutdownGstreamerPipeline`. -/
def teardownCall (c : SysCall) : Bool := stopCall c || guardCall c

theorem teardownCall_of_stopCall {c : SysCall} (h : stopCall c = true) : teardownCall c = true := by
  rw [teardownCall, h, Bool.true_or]

section

variable (hT : ∀ c, teardownCall c = true → P c) (hs : Built P X shutdownGstreamerPipeline)

include hT

theorem built_clearRequests : Built P X clearRequests :=
  built_lockGuard (hT _ rfl) (hT _ rfl) (.call (hT _ rfl))

theorem built_resetAllocator : Built P X resetAllocator :=
  built_lockGuard (hT _ rfl) (hT _ rfl) (.call (hT _ rfl))

include hs

theorem built_rollbackFailedVideoStart : Built P X (rollbackFailedVideoStart legacy) := by
  have hS : ∀ c, stopCall c = true → P c := fun c h => hT c (teardownCall_of_stopCall h)
  exact built_lockGuard (hT _ rfl) (hT _ rfl) <|
    .bind (built_disconnectVideoRequestSlot hS) fun _ =>
      .bind (built_stopCameraIfRunning hS) fun _ => .bind (built_clearRequests hT) fun _ =>
        .bind hs fun _ => .bind (built_resetAllocator hT) fun _ =>
          .bind (.call (hT _ rfl)) fun _ => .call (hT _ rfl)

theorem built_teardown : Built P X (teardown legacy) := by
  have hS : ∀ c, stopCall c = true → P c := fun c h => hT c (teardownCall_of_stopCall h)
  exact .bind (built_disconnectVideoRequestSlot hS) fun _ =>
    .bind (built_stopCameraIfRunning hS) fun _ =>
      .bind (built_lockGuard (hT _ rfl) (hT _ rfl) (.bind (built_clearRequests hT) fun _ => hs))
        fun _ => built_resetAllocator hT

theorem built_stopVideoMode : Built P X (stopVideoMode legacy) :=
  built_lockGuard (hT _ rfl) (hT _ rfl) <| .bind (.call (hT _ rfl)) fun _ => .ite (.ret _) <|
    .tryCatch
      (.bind (.call (hT _ rfl)) fun _ => .bind (.call (hT _ rfl)) fun _ =>
        .bind (built_teardown hT hs) fun _ => .bind (.call (hT _ rfl)) fun _ =>
          .bind (.call (hT _ rfl)) fun _ => .ret _)
      (.bind
        (.bind (.call (hT _ rfl)) fun _ => .bind (.call (hT _ rfl)) fun _ =>
          .bind (.tryCatch (built_teardown hT hs) (.ret _)) fun _ => .call (hT _ rfl))
        fun _ => .ret _)

theorem built_stopVideoModeUnlocked : Built P X (stopVideoModeUnlocked legacy) :=
  .bind (.call (hT _ rfl)) fun _ => .bind (built_stopVideoMode hT hs) fun _ => .call (hT _ rfl)

theorem built_rollbackUnlocked : Built P X (rollbackUnlocked legacy) :=
  .bind (.call (hT _ rfl)) fun _ =>
    .bind (.ensuring (built_rollbackFailedVideoStart hT hs) (.call (hT _ rfl))) fun _ => .ret _

end

/-- The calls of `releasePipeline`. -/
def releaseCall : SysCall → Bool
  | .isSet p => p = .pipeline_ ∨ p = .loop_ ∨ p = .bus_
  | .assign p value => !value ∧ p.ofPipeline
  | .objectUnref _ | .mainLoopUnref => true
  | _ => false

theorem built_releasePipeline (hP : ∀ c, releaseCall c = true → P c) :
    Built P X releasePipeline := by
  have hunset : ∀ b o p, p.ofPipeline = true → Built P X (Prog.when b do
      sys (.objectUnref o)
      sys (.assign p false)) := fun b o p hp =>
    .when b (.bind (.call (hP _ rfl)) fun _ => .call (hP _ (by simp [releaseCall, hp])))
  exact .bind (.call (hP _ rfl)) fun _ => .bind (hunset _ _ _ rfl) fun _ =>
    .bind (.call (hP _ rfl)) fun _ => .bind (hunset _ _ _ rfl) fun _ =>
      .bind (.call (hP _ rfl)) fun _ =>
        .bind (.when _ (.bind (.call (hP _ rfl)) fun _ => .call (hP _ rfl))) fun _ =>
          .bind (.call (hP _ rfl)) fun _ => .call (hP _ rfl)

/-- The calls of `shutdownGstreamerPipeline`, inside its lock guard. -/
def shutdownCall (c : SysCall) : Bool :=
  releaseCall c ||
    c ∈ [.setState .null, .mainLoopIsRunning, .mainLoopQuit, .gstThreadJoinable, .gstThreadJoin]

theorem built_shutdownLocked (hP : ∀ c, shutdownCall c = true → P c) :
    Built P X shutdownLocked := by
  have hquit : Built P X quitLoopIfRunning :=
    .bind (.call (hP _ rfl)) fun _ => .ite (.ret _) <|
      .bind (.call (hP _ rfl)) fun _ => .when _ (.call (hP _ rfl))
  have hrelease : Built P X releasePipeline :=
    built_releasePipeline fun c h => hP c (by rw [shutdownCall, h]; rfl)
  exact .bind (.call (hP _ rfl)) fun _ => .ite (.ret _) <| .bind (.call (hP _ rfl)) fun _ =>
    .bind hquit fun _ =>
      .bind (.bind (.call (hP _ rfl)) fun _ => .when _ (.call (hP _ rfl))) fun _ => hrelease

theorem built_shutdownGstreamerPipeline (hP : ∀ c, shutdownCall c = true → P c)
    (hlock : P (.lock .pipelinePushMutex_)) (hunlock : P (.unlock .pipelinePushMutex_)) :
    Built P X shutdownGstreamerPipeline :=
  built_lockGuard hlock hunlock (built_shutdownLocked hP)

/-! ## Starting -/

/-- The calls of `initializeGstreamerPipeline`, apart from `shutdownGstreamerPipeline` and from the
reset of `gstPipelineError_`. -/
def pipelineCall : SysCall → Bool
  | .createDirectories | .pipelineNew | .elementFactoryMake _ | .objectUnref _ | .binAddMany
  | .elementLinkMany | .setProperties _ _ _ | .getBus | .busAddWatch | .mainLoopNew
  | .spawnGstThread => true
  | .isSet p => p = .pipeline_ ∨ p = .appsrc_ ∨ p = .hlssink_
  | .assign p value =>
    p = .pipeline_ ∨ p = .appsrc_ ∨ p = .hlssink_ ∨ value ∧ (p = .bus_ ∨ p = .loop_)
  | .setState s => s = .playing
  | _ => false

/-- The calls of the exits for missing elements. -/
def dropCall : SysCall → Bool
  | .objectUnref _ => true
  | .isSet p => p = .appsrc_ ∨ p = .hlssink_
  | .assign p value => !value ∧ (p = .pipeline_ ∨ p = .appsrc_ ∨ p = .hlssink_)
  | _ => false

theorem pipelineCall_of_dropCall {c : SysCall} (h : dropCall c = true) : pipelineCall c = true := by
  cases c with
  | isSet p => cases p <;> first | rfl | cases h
  | assign p value => cases p <;> first | rfl | simp [dropCall] at h
  | _ => first | rfl | cases h

section

variable (hD : ∀ c, dropCall c = true → P c)

include hD

theorem built_unrefIf (made : Bool) (o : GstObject) : Built P X (unrefIf made o) :=
  .when made (.call (hD _ rfl))

theorem built_dropWithoutEncoder (convert : Bool) : Built P X (dropWithoutEncoder convert) :=
  .bind (.call (hD _ rfl)) fun _ => .bind (built_unrefIf hD _ _) fun _ =>
    .bind (built_unrefIf hD _ _) fun _ => .bind (.call (hD _ rfl)) fun _ =>
      .bind (.call (hD _ rfl)) fun _ => .bind (.call (hD _ rfl)) fun _ => .ret _

theorem built_dropElements (convert h264enc h264parse queue : Bool) :
    Built P X (dropElements convert h264enc h264parse queue) :=
  .bind (.call (hD _ rfl)) fun _ => .bind (built_unrefIf hD _ _) fun _ =>
    .bind (built_unrefIf hD _ _) fun _ => .bind (built_unrefIf hD _ _) fun _ =>
      .bind (built_unrefIf hD _ _) fun _ => .bind (built_unrefIf hD _ _) fun _ =>
        .bind (.call (hD _ rfl)) fun _ => .bind (built_unrefIf hD _ _) fun _ =>
          .bind (.call (hD _ rfl)) fun _ => .bind (.call (hD _ rfl)) fun _ =>
            .bind (.call (hD _ rfl)) fun _ => .bind (.call (hD _ rfl)) fun _ => .ret _

end

section

variable (hP : ∀ c, pipelineCall c = true → P c)

include hP

theorem built_makeEncoder : Built P X makeEncoder :=
  .bind (.call (hP _ rfl)) fun _ => .ite (.ret _) <|
    .bind (.call (hP _ rfl)) fun _ => .ite (.ret _) (.call (hP _ rfl))

theorem built_makeHlssink : Built P X makeHlssink :=
  .bind (.call (hP _ rfl)) fun _ => .bind (.call (hP _ rfl)) fun _ =>
    .bind (.call (hP _ rfl)) fun _ =>
      .when _ (.bind (.call (hP _ rfl)) fun _ => .call (hP _ rfl))

variable (hs : Built P X shutdownGstreamerPipeline)

include hs

theorem built_startPipeline (he : P (.store .gstPipelineError_ false)) :
    Built P X startPipeline :=
  .bind (.call (hP _ rfl)) fun _ => .bind (.call (hP _ rfl)) fun _ =>
    .bind (.call (hP _ rfl)) fun _ => .bind (.call (hP _ rfl)) fun _ =>
      .bind (.call (hP _ rfl)) fun _ => .bind (.call (hP _ rfl)) fun _ =>
        .bind (built_orThrow _) fun _ => .bind (.call (hP _ rfl)) fun _ =>
          .ite (.bind hs fun _ => .ret _) (.bind (.call he) fun _ => .ret _)

variable (hp : Built P X startPipeline)

include hp

theorem built_linkAndStart (width height fps : Nat) :
    Built P X (linkAndStart width height fps) :=
  .bind (.call (hP _ rfl)) fun _ => .bind (.call (hP _ rfl)) fun _ =>
    .ite (.bind hs fun _ => .ret _) <| .bind (.call (hP _ rfl)) fun _ =>
      .bind (built_orThrow _) fun _ => hp

theorem built_buildPipeline (width height fps : Nat) :
    Built P X (buildPipeline width height fps) := by
  have hD : ∀ c, dropCall c = true → P c := fun c h => hP c (pipelineCall_of_dropCall h)
  exact .bind (.call (hP _ rfl)) fun _ => .bind (.call (hP _ rfl)) fun _ =>
    .bind (.call (hP _ rfl)) fun _ => .ite (.ret _) <| .bind (.call (hP _ rfl)) fun _ =>
      .bind (.call (hP _ rfl)) fun _ => .bind (.call (hP _ rfl)) fun _ =>
        .bind (built_makeEncoder hP) fun _ => .ite (built_dropWithoutEncoder hD _) <|
          .bind (.call (hP _ rfl)) fun _ => .bind (.call (hP _ rfl)) fun _ =>
            .bind (built_makeHlssink hP) fun _ => .bind (.call (hP _ rfl)) fun _ =>
              .bind (.call (hP _ rfl)) fun _ =>
                .ite (built_dropElements hD _ _ _ _) (built_linkAndStart hP hs hp _ _ _)

theorem built_initializeGstreamerPipeline (width height fps : Nat) :
    Built P X (initializeGstreamerPipeline width height fps) :=
  .tryCatch
    (.bind (.call (hP _ rfl)) fun _ => .bind (built_orThrow _) fun _ =>
      built_buildPipeline hP hs hp _ _ _)
    (.bind hs fun _ => .ret _)

end

/-- The calls of `startVideoMode` on its way to the running camera, apart from those that queue the
requests. -/
def videoCall : SysCall → Bool
  | .generateConfiguration s | .connect s => s = .video
  | .makeAllocator a | .allocate a | .allocatorBuffers a => a = .video
  | .assign p value => p = .currentConfig_ ∨ value ∧ (p = .allocator_ ∨ p = .videoRequestSlot)
  | .undefinedBehaviour | .cameraStart => true
  | .configure config => config.pixelFormat = .RGB888
  | .store f value => value ∧ (f = .isVideoMode_ ∨ f = .captureActive_)
  | _ => false

/-- The calls of a kind, apart from the one that stands for undefined behaviour. -/
def definedCall (calls : SysCall → Bool) (c : SysCall) : Bool :=
  calls c && c ≠ .undefinedBehaviour

/-- A kind of calls without that of undefined behaviour. -/
theorem defined_of {calls : SysCall → Bool} (h : calls .undefinedBehaviour = false) (c : SysCall)
    (hc : calls c = true) : c ≠ .undefinedBehaviour := by
  rintro rfl
  exact Bool.false_ne_true (h.symm.trans hc)

theorem call_of_definedCall {calls : SysCall → Bool} {c : SysCall} (h : definedCall calls c = true) :
    calls c = true := by
  rw [definedCall, Bool.and_eq_true] at h
  exact h.1

section

variable (hS : ∀ c, stopCall c = true → P c) (hV : ∀ c, videoCall c = true → P c)
  (hi : ∀ width height fps, Built P X (initializeGstreamerPipeline width height fps))
  (hr : Built P X resetAllocator) (hb : Built P X (rollbackUnlocked legacy))
  (hq : Built P X (queueBuffer legacy))

include hr in
theorem built_allocateStreams (ha : P (.allocate .video)) (streams : Nat) :
    Built P X (allocateStreams streams) := by
  induction streams with
  | zero => exact .ret _
  | succ streams ih =>
    refine .bind (.call ha) fun r => ?_
    cases r with
    | ok => exact ih
    | failed => exact .bind hr fun _ => .ret _
    | threw => exact .throw

include hq in
theorem built_queueBuffers (videoBuffers : List Bool) :
    Built P X (queueBuffers legacy videoBuffers) := by
  induction videoBuffers with
  | nil => exact .ret _
  | cons bufferHolder rest ih => exact .ite ih (.bind hq fun _ => .ite ih (.ret _))

section

variable (hD : ∀ c, definedCall videoCall c = true → P c)

include hS hD hi hr hb hq

theorem built_startStreams (streams width height fps : Nat) :
    Built P X (startStreams legacy streams width height fps) := by
  refine .bind (.call (hD _ rfl)) fun _ => .bind (built_orThrow _) fun _ =>
    .bind (.call (hD _ rfl)) fun _ => .bind (built_allocateStreams hr (hD _ rfl) _) fun _ =>
      .ite (.ret _) <| .bind (hi _ _ _) fun _ =>
        .ite hb <| .bind (built_disconnectVideoRequestSlot hS) fun _ =>
          .bind (.call (hD _ rfl)) fun _ => .bind (built_orThrow _) fun _ =>
            .bind (.call (hD _ rfl)) fun _ => .bind (.call (hD _ rfl)) fun _ =>
              .bind (built_check _) fun _ => .ite hb <| .bind (.call (hD _ rfl)) fun r => ?_
  cases r with
  | none => exact .throw
  | some videoBuffers =>
    exact .bind (built_queueBuffers hq videoBuffers) fun _ => .ite (.ret _) <|
      .bind (.call (hD _ rfl)) fun _ => .bind (.call (hD _ rfl)) fun _ =>
        .bind (.call (hS _ rfl)) fun _ => .ret _

end

include hS hV hi hr hb hq

theorem built_configureVideo (width height fps : Nat) :
    Built P X (configureVideo legacy width height fps) := by
  refine .bind (.call (hV _ rfl)) fun r => ?_
  rcases r with _ | (_ | streams) | _
  · exact .bind (.call (hV _ rfl)) fun _ => .bind (.call (hV _ rfl)) nofun
  · exact .bind (.call (hV _ rfl)) fun _ => .bind (.call (hV _ rfl)) nofun
  · exact .bind (.call (hV _ rfl)) fun _ => .bind (.call (hV _ rfl)) fun _ =>
      .bind (built_check _) fun _ => .ite (.ret _) <|
        built_startStreams hS hi hr hb hq (fun c h => hV c (call_of_definedCall h)) _ _ _ _
  · exact .throw

theorem built_startVideoModeLocked (hu : Built P X (stopVideoModeUnlocked legacy))
    (width height fps : Nat) : Built P X (startVideoModeLocked legacy width height fps) :=
  .bind (built_cameraReady (hS _ rfl) (hS _ rfl)) fun _ => .ite (.ret _) <| .tryCatch
    (.bind (built_leaveVideoMode hS hu) fun _ => .ite (.ret _) <|
      built_configureVideo hS hV hi hr hb hq _ _ _)
    hb

end

theorem built_startVideoMode (hT : ∀ c, teardownCall c = true → P c)
    (hV : ∀ c, videoCall c = true → P c)
    (hi : ∀ width height fps, Built P X (initializeGstreamerPipeline width height fps))
    (hs : Built P X shutdownGstreamerPipeline) (hq : Built P X (queueBuffer legacy))
    (width height fps : Nat) : Built P X (startVideoMode legacy width height fps) :=
  built_lockGuard (hT _ rfl) (hT _ rfl) <|
    built_startVideoModeLocked (fun c h => hT c (teardownCall_of_stopCall h)) hV hi
      (built_resetAllocator hT) (built_rollbackUnlocked hT hs) hq
      (built_stopVideoModeUnlocked hT hs) _ _ _

/-- The calls that queue a request. -/
def requestCall : SysCall → Bool
  | .createRequest | .addBuffer _ | .queueRequest _ | .pendingPush _ | .dropRequest _ => true
  | _ => false

/-- The request is kept in `pendingRequests_`. -/
def keepRequest (request : Nat) : Prog Sys Unit :=
  lockGuard .requestMutex_ (do (← sys (.pendingPush request)).orThrow)

theorem built_keepRequest (hT : ∀ c, teardownCall c = true → P c)
    (hR : ∀ c, requestCall c = true → P c) (request : Nat) : Built P X (keepRequest request) :=
  built_lockGuard (hT _ rfl) (hT _ rfl) (.bind (.call (hR _ rfl)) fun _ => built_orThrow _)

theorem built_queueBuffer (hR : ∀ c, requestCall c = true → P c)
    (hk : ∀ request, Built P X (keepRequest request)) (hb : Built P X (rollbackUnlocked legacy)) :
    Built P X (queueBuffer legacy) := by
  refine .bind (.call (hR _ rfl)) fun r => ?_
  cases r with
  | null => exact hb
  | threw => exact .throw
  | request request =>
    exact .ensuring
      (.bind (.call (hR _ rfl)) fun _ => .bind (built_check _) fun _ => .ite hb <|
        .bind (.call (hR _ rfl)) fun _ => .bind (built_check _) fun _ => .ite hb <|
          .bind (hk request) fun _ => .ret _)
      (.call (hR _ rfl))

/-! ## Taking a picture -/

/-- The calls of `takePicture`, apart from those that queue the request and wait for it. -/
def photoCall : SysCall → Bool
  | .generateConfiguration s | .connect s | .disconnect s => s = .photo
  | .makeAllocator a | .allocate a | .allocatorBuffers a => a = .photo
  | .configure config => config.pixelFormat = .MJPEG
  | .store f value => f = .completed ∧ !value
  | .isSet p => p = .camera_
  | .undefinedBehaviour | .deleteAllocator | .cameraStart | .cameraIsRunning | .stopBegin | .stopEnd
  | .sleepFor _ | .planeCount | .mapPlane | .unmapPlane | .openOutput | .writeOutput
  | .closeOutput => true
  | _ => false

/-- Those that write the picture. -/
def writeCall : SysCall → Bool
  | .stopBegin | .stopEnd | .mapPlane | .unmapPlane | .openOutput | .writeOutput
  | .closeOutput => true
  | _ => false

/-- Those of `saveImage`. -/
def imageCall (c : SysCall) : Bool := writeCall c || c = .undefinedBehaviour || c = .planeCount

theorem photoCall_of_imageCall {c : SysCall} (h : imageCall c = true) : photoCall c = true := by
  cases c <;> first | rfl | cases h

/-- The calls of the wait for the completion. -/
def waitCall : SysCall → Bool
  | .lock m | .unlock m => m = .completionMutex
  | .load f => f = .completed
  | .waitRelease | .waitReacquire | .stopBegin | .stopEnd => true
  | _ => false

theorem built_awaitCompletion (hW : ∀ c, waitCall c = true → P c) : Built P X awaitCompletion :=
  built_lockGuard (hW _ rfl) (hW _ rfl) <|
    .bind
      (.bind (.call (hW _ rfl)) fun _ => .ite (.ret _) <| .bind (.call (hW _ rfl)) fun _ =>
        .call (hW _ rfl))
      fun _ => .ite (.ret _) <|
        .bind (.bind (.call (hW _ rfl)) fun _ => .call (hW _ rfl)) fun _ => .ret _

/-- What `saveImage` does once it has a plane to map. -/
def writeImage (legacy : Bool) : Prog Sys Bool := do
  if !(← (← sys .mapPlane).check) then
    cameraStop
    return false
  Prog.ensuring
    (do
      if !(← (← sys .openOutput).check) then
        cameraStop
        return false
      let _ ← sys .writeOutput
      let _ ← sys .closeOutput
      Prog.when (!legacy) (sys .unmapPlane)
      cameraStop
      return true)
    (Prog.when legacy (sys .unmapPlane))

theorem built_writeImage (hP : ∀ c, writeCall c = true → P c) : Built P X (writeImage legacy) := by
  have hstop : Built P X cameraStop := .bind (.call (hP _ rfl)) fun _ => .call (hP _ rfl)
  exact .bind (.call (hP _ rfl)) fun _ => .bind (built_check _) fun _ =>
    .ite (.bind hstop fun _ => .ret _) <| .ensuring
      (.bind (.call (hP _ rfl)) fun _ => .bind (built_check _) fun _ =>
        .ite (.bind hstop fun _ => .ret _) <| .bind (.call (hP _ rfl)) fun _ =>
          .bind (.call (hP _ rfl)) fun _ => .bind (.when _ (.call (hP _ rfl))) fun _ =>
            .bind hstop fun _ => .ret _)
      (.when _ (.call (hP _ rfl)))

theorem built_saveImage (hP : ∀ c, imageCall c = true → P c) : Built P X (saveImage legacy) := by
  have hwrite : Built P X (writeImage legacy) :=
    built_writeImage fun c h => hP c (by rw [imageCall, h]; rfl)
  refine .ite (.bind (.ret _) fun _ => ?_) (.bind (.call (hP _ rfl)) fun _ => ?_) <;>
    exact .ite (.bind (.call (hP _ rfl)) nofun) hwrite

section

variable (hD : ∀ c, definedCall photoCall c = true → P c) (hw : Built P X awaitCompletion)
  (hsave : Built P X (saveImage legacy))

include hD hw hsave

theorem built_capture {request : Nat} (hq : P (.queueRequest request)) :
    Built P X (capture legacy request) := by
  have hstop : Built P X cameraStop := .bind (.call (hD _ rfl)) fun _ => .call (hD _ rfl)
  exact .bind (.call (hD _ rfl)) fun _ => .bind (built_check _) fun _ => .ite (.ret _) <|
    .bind (.call (hD _ rfl)) fun _ => .bind (.call hq) fun _ => .bind (built_check _) fun _ =>
      .ite (.bind hstop fun _ => .ret _) <| .bind hw fun _ => .ite (.ret _) hsave

theorem built_captureWith {request : Nat} (hR : ∀ c, requestCall c = true → P c) :
    Built P X (captureWith legacy request) := by
  refine .bind (.call (hD _ rfl)) fun r => ?_
  rcases r with _ | (_ | _)
  · exact .throw
  · exact .ret _
  · exact .bind (.call (hR _ rfl)) fun _ => .bind (built_check _) fun _ => .ite (.ret _) <|
      .bind (.call (hD _ rfl)) fun _ => .bind (.call (hD _ rfl)) fun _ =>
        .bind (built_orThrow _) fun _ =>
          .ensuring (built_capture hD hw hsave (hR _ rfl)) (.call (hD _ rfl))

theorem built_photoSaving (hR : ∀ c, requestCall c = true → P c) :
    Built P X (photoRequest legacy) := by
  refine .bind (.call (hR _ rfl)) fun r => ?_
  cases r with
  | null => exact .ret _
  | threw => exact .throw
  | request request =>
    exact .ensuring (built_captureWith hD hw hsave hR) (.call (hR _ rfl))

end

section

variable (hD : ∀ c, definedCall photoCall c = true → P c) (hr : Built P X (photoRequest legacy))

include hD hr

/-- `configurePhoto` with a configuration that has a stream. -/
theorem built_photoStreams : Built P X (do
    if !(← (← sys (.configure ⟨2592, 1944, .MJPEG, 1⟩)).check) then return false
    (← sys (.makeAllocator .photo)).orThrow
    Prog.ensuring
      (do
        if !(← (← sys (.allocate .photo)).check) then return false
        photoRequest legacy)
      (sys .deleteAllocator)) :=
  .bind (.call (hD _ rfl)) fun _ => .bind (built_check _) fun _ => .ite (.ret _) <|
    .bind (.call (hD _ rfl)) fun _ => .bind (built_orThrow _) fun _ =>
      .ensuring
        (.bind (.call (hD _ rfl)) fun _ => .bind (built_check _) fun _ => .ite (.ret _) hr)
        (.call (hD _ rfl))

end

section

variable (hP : ∀ c, photoCall c = true → P c)

include hP

theorem built_photoRequest (hw : Built P X awaitCompletion)
    (hR : ∀ c, requestCall c = true → P c) : Built P X (photoRequest legacy) :=
  built_photoSaving (fun c h => hP c (call_of_definedCall h)) hw
    (built_saveImage fun c h => hP c (photoCall_of_imageCall h)) hR

variable (hr : Built P X (photoRequest legacy))

include hr

theorem built_configurePhoto : Built P X (configurePhoto legacy) := by
  refine .bind (.call (hP _ rfl)) fun r => ?_
  rcases r with _ | (_ | streams) | _
  · exact .bind (.call (hP _ rfl)) nofun
  · exact .bind (.call (hP _ rfl)) nofun
  · exact built_photoStreams (fun c h => hP c (call_of_definedCall h)) hr
  · exact .throw

theorem built_capturePhoto : Built P X (capturePhoto legacy) := by
  have hstop : Built P X cameraStop := .bind (.call (hP _ rfl)) fun _ => .call (hP _ rfl)
  exact .tryCatch (built_configurePhoto hP hr)
    (.bind
      (.bind (.call (hP _ rfl)) fun _ => .ite (.ret _) <| .ite hstop <|
        .bind (.call (hP _ rfl)) fun _ => .when _ hstop)
      fun _ => .ret _)

end

theorem built_takePicture (hlock : P (.lock .cameraOpsMutex_)) (hunlock : P (.unlock .cameraOpsMutex_))
    (hp : P (.load .snapshotsPaused_)) (hready : Built P X cameraReady)
    (hl : Built P X (leaveVideoMode legacy)) (hc : Built P X (capturePhoto legacy)) :
    Built P X (takePicture legacy) :=
  built_lockGuard hlock hunlock <| .bind (.call hp) fun _ => .ite (.ret _) <|
    .bind hready fun _ => .ite (.ret _) <| .bind hl fun _ => .ite (.ret _) hc

/-! ## Acquiring the camera -/

/-- The calls that acquire the camera and give it back, apart from those that pause the snapshots. -/
def acquireCall : SysCall → Bool
  | .makeCameraManager | .managerStart | .managerCameras | .managerStop | .acquire | .release => true
  | .isSet p => p = .camera_ ∨ p = .cameraManager_
  | .assign p _ => p = .camera_ ∨ p = .cameraManager_
  | .store f _ => f = .isInitialized_
  | _ => false

section

variable (hA : ∀ c, acquireCall c = true → P c)

include hA

theorem built_acquireCamera : Built P X acquireCamera := by
  refine .bind (.call (hA _ rfl)) fun _ => .bind (built_orThrow _) fun _ =>
    .bind (.call (hA _ rfl)) fun _ => .bind (.call (hA _ rfl)) fun _ =>
      .bind (built_check _) fun _ => .bind (.call (hA _ rfl)) fun r => ?_
  rcases r with _ | (_ | _)
  · exact .throw
  · exact .ret _
  · exact .bind (.call (hA _ rfl)) fun _ => .bind (.call (hA _ rfl)) fun _ => built_check _

theorem built_initializeCamera (hlock : P (.lock .cameraOpsMutex_))
    (hunlock : P (.unlock .cameraOpsMutex_)) (hp : P (.store .snapshotsPaused_ false)) :
    Built P X initializeCamera :=
  built_lockGuard hlock hunlock <| .tryCatch
    (.bind (built_acquireCamera hA) fun _ => .ite (.ret _) <|
      .bind (.call (hA _ rfl)) fun _ => .bind (.call hp) fun _ => .ret _)
    (.ret _)

theorem built_releaseCamera (hstop : Built P X (stopCameraIfRunning legacy)) :
    Built P X (releaseCamera legacy) :=
  .bind (.call (hA _ rfl)) fun _ =>
    .bind
      (.when _ <| .bind hstop fun _ => .bind (.call (hA _ rfl)) fun _ =>
        .call (hA _ rfl))
      fun _ => .bind (.call (hA _ rfl)) fun _ =>
        .when _ (.bind (.call (hA _ rfl)) fun _ => .call (hA _ rfl))

variable (hT : ∀ c, teardownCall c = true → P c) (hs : Built P X shutdownGstreamerPipeline)

include hT hs

theorem built_reinitializeCamera (hp : ∀ value, P (.store .snapshotsPaused_ value)) :
    Built P X (reinitializeCamera legacy) := by
  have hS : ∀ c, stopCall c = true → P c := fun c h => hT c (teardownCall_of_stopCall h)
  exact built_lockGuard (hT _ rfl) (hT _ rfl) <| .bind (.call (hT _ rfl)) fun _ =>
    .bind (.when _ (built_stopVideoModeUnlocked hT hs)) fun _ => .tryCatch
      (.bind (built_releaseCamera hA (built_stopCameraIfRunning hS)) fun _ =>
        .bind (built_resetAllocator hT) fun _ => .bind hs fun _ =>
          .bind (built_acquireCamera hA) fun _ =>
            .ite (.bind (.call (hp _)) fun _ => .ret _) <|
              .bind (.call (hA _ rfl)) fun _ => .bind (.call (hT _ rfl)) fun _ =>
                .bind (.call (hT _ rfl)) fun _ => .bind (.call (hp _)) fun _ => .ret _)
      (.bind (.call (hp _)) fun _ => .ret _)

theorem built_destroy : Built P X (destroy legacy) := by
  have hS : ∀ c, stopCall c = true → P c := fun c h => hT c (teardownCall_of_stopCall h)
  exact .tryCatch
    (.bind (.call (hT _ rfl)) fun _ =>
      .bind (.when _ (.bind (built_stopVideoMode hT hs) fun _ => .ret _)) fun _ =>
        .bind (.call (hA _ rfl)) fun _ =>
          .bind (.when _ (.bind (built_stopCameraIfRunning hS) fun _ => .call (hA _ rfl)))
            fun _ => .bind (built_resetAllocator hT) fun _ => .bind (.call (hA _ rfl)) fun _ =>
              .bind (.when _ (.call (hA _ rfl))) fun _ => .bind (.call (hA _ rfl)) fun _ => hs)
    (.ret _)

end

/-- The calls of the operations, apart from those of the parts that are looked at more closely:
`shutdownGstreamerPipeline`, `queueBuffer`, `photoRequest`. -/
def operationCall (c : SysCall) : Bool :=
  teardownCall c || pipelineCall c || videoCall c || photoCall c || acquireCall c ||
    c ∈ [.load .snapshotsPaused_, .store .snapshotsPaused_ false, .store .snapshotsPaused_ true,
      .store .gstPipelineError_ false]

theorem built_operate (hP : ∀ c, operationCall c = true → P c)
    (hs : Built P X shutdownGstreamerPipeline) (hq : Built P X (queueBuffer legacy))
    (hr : Built P X (photoRequest legacy)) (op : Operation) : Built P X (operate legacy op) := by
  have hT : ∀ c, teardownCall c = true → P c := fun c h => hP c (by simp [operationCall, h])
  have hG : ∀ c, pipelineCall c = true → P c := fun c h => hP c (by simp [operationCall, h])
  have hV : ∀ c, videoCall c = true → P c := fun c h => hP c (by simp [operationCall, h])
  have hC : ∀ c, photoCall c = true → P c := fun c h => hP c (by simp [operationCall, h])
  have hA : ∀ c, acquireCall c = true → P c := fun c h => hP c (by simp [operationCall, h])
  cases op with
  | initializeCamera => exact built_initializeCamera hA (hT _ rfl) (hT _ rfl) (hP _ rfl)
  | takePicture =>
    exact built_takePicture (hT _ rfl) (hT _ rfl) (hP _ rfl)
      (built_cameraReady (hT _ rfl) (hT _ rfl))
      (built_leaveVideoMode (fun c h => hT c (teardownCall_of_stopCall h))
        (built_stopVideoModeUnlocked hT hs))
      (built_capturePhoto hC hr)
  | startVideoMode width height fps =>
    exact built_startVideoMode hT hV
      (built_initializeGstreamerPipeline hG hs (built_startPipeline hG hs (hP _ rfl))) hs hq _ _ _
  | stopVideoMode => exact built_stopVideoMode hT hs
  | reinitializeCamera =>
    refine built_reinitializeCamera hA hT hs fun value => hP _ ?_
    cases value <;> rfl

/-! ## Whole operations -/

/-- The calls of the operations but for those that acquire the camera, with no part left out.  The
reset of `gstPipelineError_` is not among them. -/
def modeCall (c : SysCall) : Bool :=
  pipelineCall c || teardownCall c || shutdownCall c || videoCall c || requestCall c ||
    photoCall c || waitCall c || c ∈ [.lock .pipelinePushMutex_, .unlock .pipelinePushMutex_,
      .load .snapshotsPaused_]

section

variable (hM : ∀ c, modeCall c = true → P c)

include hM

theorem teardown_of_modeCall (c : SysCall) (h : teardownCall c = true) : P c :=
  hM c (by simp [modeCall, h])

theorem pipeline_of_modeCall (c : SysCall) (h : pipelineCall c = true) : P c :=
  hM c (by simp [modeCall, h])

theorem video_of_modeCall (c : SysCall) (h : videoCall c = true) : P c :=
  hM c (by simp [modeCall, h])

theorem request_of_modeCall (c : SysCall) (h : requestCall c = true) : P c :=
  hM c (by simp [modeCall, h])

theorem photo_of_modeCall (c : SysCall) (h : photoCall c = true) : P c :=
  hM c (by simp [modeCall, h])

theorem built_shutdown : Built P X shutdownGstreamerPipeline :=
  built_shutdownGstreamerPipeline (fun c h => hM c (by simp [modeCall, h])) (hM _ rfl) (hM _ rfl)

theorem built_rollback : Built P X (rollbackUnlocked legacy) :=
  built_rollbackUnlocked (teardown_of_modeCall hM) (built_shutdown hM)

theorem built_stop : Built P X (stopVideoMode legacy) :=
  built_stopVideoMode (teardown_of_modeCall hM) (built_shutdown hM)

theorem built_leave : Built P X (leaveVideoMode legacy) :=
  built_leaveVideoMode (fun c h => teardown_of_modeCall hM c (teardownCall_of_stopCall h))
    (built_stopVideoModeUnlocked (teardown_of_modeCall hM) (built_shutdown hM))

theorem built_queue : Built P X (queueBuffer legacy) :=
  built_queueBuffer (request_of_modeCall hM)
    (built_keepRequest (teardown_of_modeCall hM) (request_of_modeCall hM)) (built_rollback hM)

theorem built_pipeline (he : P (.store .gstPipelineError_ false)) : Built P X startPipeline :=
  built_startPipeline (pipeline_of_modeCall hM) (built_shutdown hM) he

theorem built_start (hp : Built P X startPipeline) (width height fps : Nat) :
    Built P X (startVideoMode legacy width height fps) :=
  built_startVideoMode (teardown_of_modeCall hM) (video_of_modeCall hM)
    (built_initializeGstreamerPipeline (pipeline_of_modeCall hM) (built_shutdown hM) hp)
    (built_shutdown hM) (built_queue hM) width height fps

theorem built_photo : Built P X (takePicture legacy) := by
  have hW : ∀ c, waitCall c = true → P c := fun c h => hM c (by simp [modeCall, h])
  exact built_takePicture (hM _ rfl) (hM _ rfl) (hM _ rfl)
    (built_cameraReady (hM _ rfl) (hM _ rfl)) (built_leave hM)
    (built_capturePhoto (photo_of_modeCall hM) (built_photoRequest (photo_of_modeCall hM)
      (built_awaitCompletion hW) (request_of_modeCall hM)))

variable (hA : ∀ c, acquireCall c = true → P c)

include hA

theorem built_reinit (hp : ∀ value, P (.store .snapshotsPaused_ value)) :
    Built P X (reinitializeCamera legacy) :=
  built_reinitializeCamera hA (teardown_of_modeCall hM) (built_shutdown hM) hp

theorem built_destroyed : Built P X (destroy legacy) :=
  built_destroy hA (teardown_of_modeCall hM) (built_shutdown hM)

end

end

/-! ## Where no exception comes from -/

section

variable {legacy : Bool}

theorem noThrow_stopCameraIfRunning : (stopCameraIfRunning legacy).NoThrow := by
  refine .bind (.call _) fun camera => ?_
  cases camera with
  | false => trivial
  | true =>
    have hstop : cameraStop.NoThrow := .bind (.call _) fun _ => .call _
    cases legacy with
    | true => exact hstop
    | false => exact .bind (.call _) fun running => .when running hstop

theorem noThrow_releaseCamera : (releaseCamera legacy).NoThrow := by
  refine .bind (.call _) fun _ => .bind (.when _ ?_) fun _ => .bind (.call _) fun _ => .when _ ?_
  · exact .bind noThrow_stopCameraIfRunning fun _ => .bind (.call _) fun _ => .call _
  · exact .bind (.call _) fun _ => .call _

theorem noThrow_shutdownLocked : shutdownLocked.NoThrow := by
  refine .bind (.call _) fun pipeline => ?_
  cases pipeline with
  | false => trivial
  | true =>
  have hquit : quitLoopIfRunning.NoThrow := by
    refine .bind (.call _) fun loop => ?_
    cases loop with
    | false => trivial
    | true => exact .bind (.call _) fun running => .when running (.call _)
  refine .bind (.call _) fun _ => .bind hquit fun _ => .bind ?_ fun _ => ?_
  · exact .bind (.call _) fun joinable => .when joinable (.call _)
  · exact .bind (.call _) fun _ => .bind (.when _ (.bind (.call _) fun _ => .call _)) fun _ =>
      .bind (.call _) fun _ => .bind (.when _ (.bind (.call _) fun _ => .call _)) fun _ =>
        .bind (.call _) fun _ => .bind (.when _ (.bind (.call _) fun _ => .call _)) fun _ =>
          .bind (.call _) fun _ => .call _

theorem noThrow_lockGuard {α : Type} {m : Mutex} {scope : Prog Sys α} (h : scope.NoThrow) :
    (lockGuard m scope).NoThrow :=
  .bind (.call _) fun _ => .ensuring h (.call _)

theorem noThrow_disconnectVideoRequestSlot : (disconnectVideoRequestSlot legacy).NoThrow := by
  have hslot : ∀ camera, Prog.NoThrow (S := Sys) (if !camera then return else do
      Prog.when (← sys (.isSet .videoRequestSlot)) do
        sys (.disconnect .video)
        sys (.assign .videoRequestSlot false)) := by
    intro camera
    cases camera with
    | false => trivial
    | true => exact .bind (.call _) fun set => .when set (.bind (.call _) fun _ => .call _)
  cases legacy with
  | true => exact .bind (.call _) hslot
  | false => exact hslot true

theorem noThrow_clearRequests : clearRequests.NoThrow := noThrow_lockGuard (.call _)

theorem noThrow_resetAllocator : resetAllocator.NoThrow := noThrow_lockGuard (.call _)

theorem noThrow_shutdownGstreamerPipeline : shutdownGstreamerPipeline.NoThrow :=
  noThrow_lockGuard noThrow_shutdownLocked

theorem noThrow_teardown : (teardown legacy).NoThrow := by
  refine .bind noThrow_disconnectVideoRequestSlot fun _ =>
    .bind noThrow_stopCameraIfRunning fun _ => .bind (noThrow_lockGuard ?_) fun _ =>
      noThrow_resetAllocator
  exact .bind noThrow_clearRequests fun _ => noThrow_shutdownGstreamerPipeline

theorem noThrow_rollbackFailedVideoStart : (rollbackFailedVideoStart legacy).NoThrow :=
  noThrow_lockGuard <| .bind noThrow_disconnectVideoRequestSlot fun _ =>
    .bind noThrow_stopCameraIfRunning fun _ => .bind noThrow_clearRequests fun _ =>
      .bind noThrow_shutdownGstreamerPipeline fun _ => .bind noThrow_resetAllocator fun _ =>
        .bind (.call _) fun _ => .call _

/-- Whatever the teardown does, `stopVideoMode` throws nothing. -/
theorem noThrow_stopVideoMode : (stopVideoMode legacy).NoThrow := by
  refine .bind (.call _) fun _ => .ensuring (.bind (.call _) fun _ => ?_) (.call _)
  split
  · trivial
  · refine .tryCatch _ (.bind ?_ fun _ => trivial)
    exact .bind (.call _) fun _ => .bind (.call _) fun _ =>
      .bind (.tryCatch _ trivial) fun _ => .call _

/-- A missing element ends the start of the pipeline. -/
theorem ends_dropWithoutEncoder (convert : Bool) :
    (dropWithoutEncoder convert).Ends (· = false) :=
  .bind _ fun _ => .bind _ fun _ => .bind _ fun _ => .bind _ fun _ => .bind _ fun _ =>
    .bind _ fun _ => rfl

theorem ends_dropElements (convert h264enc h264parse queue : Bool) :
    (dropElements convert h264enc h264parse queue).Ends (· = false) :=
  .bind _ fun _ => .bind _ fun _ => .bind _ fun _ => .bind _ fun _ => .bind _ fun _ =>
    .bind _ fun _ => .bind _ fun _ => .bind _ fun _ => .bind _ fun _ => .bind _ fun _ =>
      .bind _ fun _ => .bind _ fun _ => rfl

end

end CameraManager

end SurfCam
