import SurfCam.Logic.Discipline
import SurfCam.Camera.LockOrder

/-!
# What the mutexes guard

Which assignments to the members and which calls into libcamera and GStreamer the operations and the
slots make only under a mutex, and under which.  Any number of threads call the operations of one
`CameraManager`, in any order.

The members are read without a mutex too: `camera_` and the other pointers, `isVideoMode_` and
`isInitialized_` in `stopVideoMode`, in the slots and in the accessors.
-/

namespace SurfCam

open Interaction CameraManager Discipline

/-- The mutexes of which a thread has to own one when it makes a call.  Of the reads only those of
`completed` and `snapshotsPaused_` are guarded, and of libcamera's calls not those that the slots
make on the request at hand. -/
def SysCall.guardedBy : SysCall → List Mutex
  | .pendingPush _ | .pendingClear => [.requestMutex_]
  -- the camera is looked for, opened and closed
  | .makeCameraManager | .managerStart | .managerCameras | .managerStop | .acquire | .release
  -- and set up
  | .generateConfiguration _ | .configure _ | .makeAllocator _ | .allocate _ | .allocatorBuffers _
  | .deleteAllocator | .createRequest | .addBuffer _ | .dropRequest _ | .connect _
  | .disconnect .photo | .cameraStart => [.cameraOpsMutex_]
  -- it is stopped by an operation that has it, or by the end of video mode
  | .stopBegin | .stopEnd | .disconnect .video => [.cameraOpsMutex_, .videoTeardownMutex_]
  | .openOutput | .writeOutput | .closeOutput => [.cameraOpsMutex_]
  | .planeCount | .mapPlane | .unmapPlane => [.pipelinePushMutex_, .cameraOpsMutex_]
  -- a pipeline is built by an operation
  | .createDirectories | .pipelineNew | .elementFactoryMake _ | .binAddMany | .elementLinkMany
  | .setProperties _ _ _ | .getBus | .busAddWatch | .mainLoopNew | .spawnGstThread
  | .setState .playing => [.cameraOpsMutex_]
  | .objectUnref _ => [.pipelinePushMutex_, .cameraOpsMutex_]
  -- it is fed and taken down by one thread at a time
  | .setState .null | .gstThreadJoinable | .gstThreadJoin | .mainLoopUnref | .requestBuffers _
  | .bufferNewAllocate | .bufferMap | .bufferUnmap | .bufferUnref | .appSrcPushBuffer =>
    [.pipelinePushMutex_]
  | .assign p value =>
    match p with
    | .cameraManager_ | .camera_ | .currentConfig_ => [.cameraOpsMutex_]
    | .allocator_ => if value then [.cameraOpsMutex_] else [.bufferMutex_]
    | .videoRequestSlot =>
      if value then [.cameraOpsMutex_] else [.cameraOpsMutex_, .videoTeardownMutex_]
    | .pipeline_ | .appsrc_ | .hlssink_ | .bus_ | .loop_ =>
      [.pipelinePushMutex_, .cameraOpsMutex_]
  | .store f value =>
    match f with
    | .isInitialized_ | .snapshotsPaused_ => [.cameraOpsMutex_]
    | .isVideoMode_ | .captureActive_ | .shuttingDown_ => [.cameraOpsMutex_, .videoTeardownMutex_]
    | .completed => if value then [.completionMutex] else [.cameraOpsMutex_]
    | _ => []
  | .load .completed => [.completionMutex]
  | .load .snapshotsPaused_ => [.cameraOpsMutex_]
  | _ => []

/-- The mutexes of `CameraManager.cpp`. -/
def mutexes : Discipline Sys Mutex where
  takes
    | .lock m | .relock m => some m
    | .waitReacquire => some .completionMutex
    | _ => none
  gives
    | .unlock m => some m
    | .waitRelease => some .completionMutex
    | _ => none
  needs := SysCall.guardedBy

namespace Guards

/-- A mutex is taken while it is free. -/
theorem owners : mutexes.Owners system World.owner where
  takes {t c r w w' m} hact htakes := by
    obtain ⟨hanswers, rfl⟩ := system_act.mp hact
    have hshared := World.shared_of_answers hanswers
    cases c with
    | lock m' =>
      cases htakes
      exact ⟨Option.isNone_iff_eq_none.mp hshared, rfl⟩
    | relock m' =>
      cases htakes
      exact ⟨Option.isNone_iff_eq_none.mp hshared, rfl⟩
    | waitReacquire =>
      cases htakes
      simp only [World.sharedAnswers, Bool.and_eq_true] at hshared
      exact ⟨Option.isNone_iff_eq_none.mp hshared.1, rfl⟩
    | _ => cases htakes
  gives {t c r w w' m} hact _ hgives hown := by
    obtain ⟨-, rfl⟩ := system_act.mp hact
    cases c with
    | unlock m' =>
      cases hgives
      exact if_pos hown
    | waitRelease =>
      cases hgives
      rfl
    | _ => cases hgives
  other {t c r w w'} hact htakes hgives := by
    obtain ⟨-, rfl⟩ := system_act.mp hact
    cases c with
    | lock m => cases htakes
    | relock m => cases htakes
    | waitReacquire => cases htakes
    | unlock m => cases hgives
    | waitRelease => cases hgives
    | _ => rfl
  env {e w w'} henv := by
    cases henv
    rfl

/-- What may be done where exactly `l` is owned. -/
abbrev Keeps (l : List Mutex) (α : Type) (p : Prog Sys α) : Prop := mutexes.Keeps l α p

/-- The code is made of calls that neither lock nor unlock, and of parts that give back what they
take. -/
abbrev Made (l : List Mutex) {α : Type} (p : Prog Sys α) : Prop :=
  p.Built (fun c => mutexes.plain l c = true) (Keeps l)

section

variable {l : List Mutex} {α : Type}

theorem keeps_lockGuard {m : Mutex} {scope : Prog Sys α} (hm : m ∉ l)
    (h : Keeps (m :: l) α scope) : Keeps l α (lockGuard m scope) := by
  refine wlp_lock rfl rfl rfl hm fun _ => ?_
  have hunlock : ∀ (Q : Set Mutex → Prop) (E : Set Mutex → Prop), Q (holding l) →
      mutexes.locks.wlp (sys (.unlock m)) (fun _ => Q) E (holding (m :: l)) := by
    intro Q E hQ
    rw [← bind_pure (sys (.unlock m))]
    exact wlp_unlock rfl rfl rfl hm fun _ => hQ
  rw [Local.wlp_ensuring]
  refine Local.wlp_mono h (fun _ v hv => ?_) fun v hv => ?_
  · rw [hv]
    exact hunlock _ _ rfl
  · rw [hv]
    exact hunlock _ _ rfl

/-- Code with a mutex given up: what the rest takes again it has when it ends. -/
theorem keeps_unlocked {m : Mutex} {f : Unit → Prog Sys α} (hm : m ∉ l)
    (h : mutexes.locks.wlp (f ()) (fun _ v => v = holding (m :: l)) (fun v => v = holding (m :: l))
      (holding l)) : Keeps (m :: l) α (sys (.unlock m) >>= f) :=
  wlp_unlock rfl rfl rfl hm fun _ => h

theorem wlp_relock {m : Mutex} (hm : m ∉ l) (E : Set Mutex → Prop) :
    mutexes.locks.wlp (sys (.relock m)) (fun _ v => v = holding (m :: l)) E (holding l) := by
  rw [← bind_pure (sys (.relock m))]
  exact wlp_lock rfl rfl rfl hm fun _ => rfl

end

/-! ## The operations -/

section

variable {legacy : Bool} {l : List Mutex}

theorem keeps_clearRequests (hl : .requestMutex_ ∉ l) : Keeps l Unit clearRequests :=
  keeps_lockGuard hl (keeps_of_built (.call rfl))

theorem keeps_resetAllocator (hl : .bufferMutex_ ∉ l) : Keeps l Unit resetAllocator :=
  keeps_lockGuard hl (keeps_of_built (.call rfl))

theorem keeps_keepRequest (hl : .requestMutex_ ∉ l) (request : Nat) :
    Keeps l Unit (keepRequest request) :=
  keeps_lockGuard hl (keeps_of_built (.bind (.call rfl) fun _ => built_orThrow _))

theorem plain_of_shutdownCall (c : SysCall) (h : shutdownCall c = true) :
    mutexes.plain (.pipelinePushMutex_ :: l) c = true := by
  cases c with
  | assign p value => cases p <;> first | rfl | simp [shutdownCall, releaseCall, Ptr.ofPipeline] at h
  | setState s => cases s <;> first | rfl | cases h
  | _ => first | rfl | cases h

theorem keeps_shutdown (hl : .pipelinePushMutex_ ∉ l) : Keeps l Unit shutdownGstreamerPipeline :=
  keeps_lockGuard hl (keeps_of_built (built_shutdownLocked plain_of_shutdownCall))

section

variable (hstop : mutexes.plain l .stopBegin = true)

include hstop

theorem made_cameraStop : Made l cameraStop := .bind (.call hstop) fun _ => .call hstop

theorem made_stopCameraIfRunning : Made l (stopCameraIfRunning legacy) :=
  .bind (.call rfl) fun _ => .ite (.ret _) <| .ite (made_cameraStop hstop) <|
    .bind (.call rfl) fun _ => .when _ (made_cameraStop hstop)

theorem made_disconnectVideoRequestSlot : Made l (disconnectVideoRequestSlot legacy) := by
  refine built_dropSlot fun c h => ?_
  cases c with
  | isSet p => rfl
  | assign p value =>
    obtain ⟨hvalue, rfl⟩ : !value ∧ p = .videoRequestSlot := of_decide_eq_true h
    rw [Bool.not_eq_true'] at hvalue
    rw [hvalue]
    exact hstop
  | disconnect s =>
    obtain rfl : s = .video := of_decide_eq_true h
    exact hstop
  | _ => cases h

end

theorem keeps_rollbackFailedVideoStart : Keeps [] Unit (rollbackFailedVideoStart legacy) := by
  refine keeps_lockGuard (by decide) (keeps_of_built ?_)
  exact .bind (made_disconnectVideoRequestSlot rfl) fun _ =>
    .bind (made_stopCameraIfRunning rfl) fun _ =>
      .bind (.part (keeps_clearRequests (by decide))) fun _ =>
        .bind (.part (keeps_shutdown (by decide))) fun _ =>
          .bind (.part (keeps_resetAllocator (by decide))) fun _ =>
            .bind (.call rfl) fun _ => .call rfl

theorem keeps_teardown : Keeps [.videoTeardownMutex_] Unit (teardown legacy) := by
  have hlocked : Keeps [.videoTeardownMutex_] Unit (lockGuard .cameraOpsMutex_ do
      clearRequests
      shutdownGstreamerPipeline) := by
    refine keeps_lockGuard (by decide) (keeps_of_built ?_)
    exact .bind (.part (keeps_clearRequests (by decide))) fun _ =>
      .part (keeps_shutdown (by decide))
  refine keeps_of_built ?_
  exact .bind (made_disconnectVideoRequestSlot rfl) fun _ =>
    .bind (made_stopCameraIfRunning rfl) fun _ => .bind (.part hlocked) fun _ =>
      .part (keeps_resetAllocator (by decide))

theorem keeps_stopVideoMode : Keeps [] Bool (stopVideoMode legacy) := by
  have hteardown : Made [.videoTeardownMutex_] (teardown legacy) := .part keeps_teardown
  refine keeps_lockGuard (by decide) (keeps_of_built ?_)
  refine .bind (.call rfl) fun _ => .ite (.ret _) (.tryCatch ?_ (.bind ?_ fun _ => .ret _))
  · exact .bind (.call rfl) fun _ => .bind (.call rfl) fun _ => .bind hteardown fun _ =>
      .bind (.call rfl) fun _ => .bind (.call rfl) fun _ => .ret _
  · exact .bind (.call rfl) fun _ => .bind (.call rfl) fun _ =>
      .bind (.tryCatch hteardown (.ret _)) fun _ => .call rfl

/-! ### With `cameraOpsMutex_` given up -/

/-- Nothing is thrown before the mutex is owned again. -/
theorem keeps_stopVideoModeUnlocked :
    Keeps [.cameraOpsMutex_] Unit (stopVideoModeUnlocked legacy) := by
  refine keeps_unlocked (by decide) ?_
  refine Local.wlp_bind_of (wlp_of_noThrow noThrow_stopVideoMode keeps_stopVideoMode) fun _ v hv => ?_
  rw [hv]
  exact wlp_relock (by decide) _

theorem keeps_rollbackUnlocked : Keeps [.cameraOpsMutex_] Bool (rollbackUnlocked legacy) := by
  refine keeps_unlocked (by decide) ?_
  have hrollback : mutexes.locks.wlp
      ((rollbackFailedVideoStart legacy).ensuring (sys (.relock .cameraOpsMutex_)))
      (fun _ v => v = holding [.cameraOpsMutex_]) (fun v => v = holding [.cameraOpsMutex_])
      (holding []) := by
    rw [Local.wlp_ensuring]
    refine Local.wlp_mono keeps_rollbackFailedVideoStart (fun _ v hv => ?_) fun v hv => ?_
    · rw [hv]
      exact wlp_relock (by decide) _
    · rw [hv]
      exact wlp_relock (by decide) _
  exact Local.wlp_bind_of hrollback fun _ v hv => hv

theorem made_cameraReady : Made l cameraReady := built_cameraReady rfl rfl

theorem made_leaveVideoMode : Made [.cameraOpsMutex_] (leaveVideoMode legacy) :=
  .bind (.call rfl) fun _ => .ite (.ret _) <|
    .bind (.part keeps_stopVideoModeUnlocked) fun _ => made_cameraReady

/-! ### With `cameraOpsMutex_` owned -/

theorem plain_of_pipelineCall (c : SysCall) (h : pipelineCall c = true) :
    mutexes.plain [.cameraOpsMutex_] c = true := by
  cases c with
  | assign p value => cases p <;> first | rfl | simp [pipelineCall] at h
  | setState s => cases s <;> first | rfl | cases h
  | _ => first | rfl | cases h

theorem plain_of_photoCall (c : SysCall) (h : photoCall c = true) :
    mutexes.plain [.cameraOpsMutex_] c = true := by
  cases c with
  | disconnect s => cases s <;> rfl
  | store f value =>
    obtain ⟨rfl, hvalue⟩ : f = .completed ∧ !value := of_decide_eq_true h
    rw [Bool.not_eq_true'] at hvalue
    rw [hvalue]
    rfl
  | _ => first | rfl | cases h

theorem plain_of_acquireCall (c : SysCall) (h : acquireCall c = true) :
    mutexes.plain [.cameraOpsMutex_] c = true := by
  cases c with
  | assign p value =>
    rcases (of_decide_eq_true h : p = .camera_ ∨ p = .cameraManager_) with rfl | rfl <;> rfl
  | store f value =>
    obtain rfl : f = .isInitialized_ := of_decide_eq_true h
    rfl
  | _ => first | rfl | cases h

theorem made_queueBuffer : Made [.cameraOpsMutex_] (queueBuffer legacy) := by
  have hrollback : Made [.cameraOpsMutex_] (rollbackUnlocked legacy) :=
    .part keeps_rollbackUnlocked
  refine .bind (.call rfl) fun r => ?_
  cases r with
  | null => exact hrollback
  | threw => exact .throw
  | request request =>
    refine .ensuring ?_ (.call rfl)
    refine .bind (.call rfl) fun _ => .bind (built_check _) fun _ => .ite hrollback ?_
    refine .bind (.call rfl) fun _ => .bind (built_check _) fun _ => .ite hrollback ?_
    exact .bind (.part (keeps_keepRequest (by decide) request)) fun _ => .ret _

theorem made_initializeGstreamerPipeline (width height fps : Nat) :
    Made [.cameraOpsMutex_] (initializeGstreamerPipeline width height fps) := by
  have hshutdown : Made [.cameraOpsMutex_] shutdownGstreamerPipeline :=
    .part (keeps_shutdown (by decide))
  exact built_initializeGstreamerPipeline plain_of_pipelineCall hshutdown
    (built_startPipeline plain_of_pipelineCall hshutdown rfl) width height fps

theorem made_startStreams (streams width height fps : Nat) :
    Made [.cameraOpsMutex_] (startStreams legacy streams width height fps) := by
  have hrollback : Made [.cameraOpsMutex_] (rollbackUnlocked legacy) :=
    .part keeps_rollbackUnlocked
  have hreset : Made [.cameraOpsMutex_] resetAllocator := .part (keeps_resetAllocator (by decide))
  refine .bind (.call rfl) fun _ => .bind (built_orThrow _) fun _ => .bind (.call rfl) fun _ => ?_
  refine .bind (built_allocateStreams hreset rfl _) fun _ => .ite (.ret _) ?_
  refine .bind (made_initializeGstreamerPipeline width height fps) fun _ => .ite hrollback ?_
  refine .bind (made_disconnectVideoRequestSlot rfl) fun _ => .bind (.call rfl) fun _ => ?_
  refine .bind (built_orThrow _) fun _ => .bind (.call rfl) fun _ => .bind (.call rfl) fun _ => ?_
  refine .bind (built_check _) fun _ => .ite hrollback (.bind (.call rfl) fun r => ?_)
  cases r with
  | none => exact .throw
  | some videoBuffers =>
    refine .bind (built_queueBuffers made_queueBuffer videoBuffers) fun _ => .ite (.ret _) ?_
    exact .bind (.call rfl) fun _ => .bind (.call rfl) fun _ => .bind (.call rfl) fun _ => .ret _

theorem made_configureVideo (width height fps : Nat) :
    Made [.cameraOpsMutex_] (configureVideo legacy width height fps) := by
  refine .bind (.call rfl) fun r => ?_
  rcases r with _ | (_ | streams) | _
  · exact .bind (.call rfl) fun _ => .bind (.call rfl) fun e => e.elim
  · exact .bind (.call rfl) fun _ => .bind (.call rfl) fun e => e.elim
  · exact .bind (.call rfl) fun _ => .bind (.call rfl) fun _ => .bind (built_check _) fun _ =>
      .ite (.ret _) (made_startStreams _ _ _ _)
  · exact .throw

theorem keeps_startVideoMode (width height fps : Nat) :
    Keeps [] Bool (startVideoMode legacy width height fps) := by
  refine keeps_lockGuard (by decide) (keeps_of_built ?_)
  refine .bind made_cameraReady fun _ => .ite (.ret _) (.tryCatch ?_ (.part keeps_rollbackUnlocked))
  exact .bind made_leaveVideoMode fun _ => .ite (.ret _) (made_configureVideo _ _ _)

/-- The wait gives `completionMutex` up and has it again when it returns. -/
theorem keeps_awaitCompletion : Keeps [.cameraOpsMutex_] Bool awaitCompletion := by
  have hwait : Keeps [.completionMutex, .cameraOpsMutex_] Bool waitForCompletion := by
    refine Local.wlp_bind_of (keeps_of_built (.call rfl)) fun completed v hv => ?_
    rw [hv]
    cases completed with
    | true => rfl
    | false =>
      refine wlp_unlock rfl rfl rfl (by decide) fun _ => ?_
      rw [← bind_pure (sys .waitReacquire)]
      exact wlp_lock rfl rfl rfl (by decide) fun _ => rfl
  refine keeps_lockGuard (by decide) (keeps_of_built ?_)
  exact .bind (.part hwait) fun _ => .ite (.ret _) (.bind (made_cameraStop rfl) fun _ => .ret _)

theorem made_photoRequest : Made [.cameraOpsMutex_] (photoRequest legacy) := by
  have hwith : ∀ request, Made [.cameraOpsMutex_] (captureWith legacy request) := by
    intro request
    refine .bind (.call rfl) fun r => ?_
    rcases r with _ | (_ | _)
    · exact .throw
    · exact .ret _
    · refine .bind (.call rfl) fun _ => .bind (built_check _) fun _ => .ite (.ret _) ?_
      refine .bind (.call rfl) fun _ => .bind (.call rfl) fun _ => .bind (built_orThrow _) fun _ => ?_
      refine .ensuring (built_capture (fun c h => plain_of_photoCall c (call_of_definedCall h))
        (.part keeps_awaitCompletion) ?_ rfl) (.call rfl)
      exact built_saveImage fun c h => plain_of_photoCall c (photoCall_of_imageCall h)
  refine .bind (.call rfl) fun r => ?_
  cases r with
  | null => exact .ret _
  | threw => exact .throw
  | request request => exact .ensuring (hwith request) (.call rfl)

theorem keeps_takePicture : Keeps [] Bool (takePicture legacy) := by
  refine keeps_lockGuard (by decide) (keeps_of_built ?_)
  refine .bind (.call rfl) fun _ => .ite (.ret _) ?_
  refine .bind made_cameraReady fun _ => .ite (.ret _) ?_
  refine .bind made_leaveVideoMode fun _ => .ite (.ret _) ?_
  exact built_capturePhoto plain_of_photoCall made_photoRequest

theorem keeps_initializeCamera : Keeps [] Bool initializeCamera := by
  refine keeps_lockGuard (by decide) (keeps_of_built ?_)
  refine .tryCatch (.bind (built_acquireCamera plain_of_acquireCall) fun _ => .ite (.ret _) ?_) (.ret _)
  exact .bind (.call rfl) fun _ => .bind (.call rfl) fun _ => .ret _

theorem keeps_reinitializeCamera : Keeps [] Bool (reinitializeCamera legacy) := by
  refine keeps_lockGuard (by decide) (keeps_of_built ?_)
  refine .bind (.call rfl) fun _ => .bind (.when _ (.part keeps_stopVideoModeUnlocked)) fun _ => ?_
  refine .tryCatch ?_ (.bind (.call rfl) fun _ => .ret _)
  refine .bind (built_releaseCamera plain_of_acquireCall (made_stopCameraIfRunning rfl)) fun _ => ?_
  refine .bind (.part (keeps_resetAllocator (by decide))) fun _ => ?_
  refine .bind (.part (keeps_shutdown (by decide))) fun _ => ?_
  refine .bind (built_acquireCamera plain_of_acquireCall) fun _ =>
    .ite (.bind (.call rfl) fun _ => .ret _) ?_
  exact .bind (.call rfl) fun _ => .bind (.call rfl) fun _ => .bind (.call rfl) fun _ =>
    .bind (.call rfl) fun _ => .ret _

theorem keeps_operate (op : Operation) : Keeps [] Bool (operate legacy op) := by
  cases op with
  | initializeCamera => exact keeps_initializeCamera
  | takePicture => exact keeps_takePicture
  | startVideoMode width height fps => exact keeps_startVideoMode width height fps
  | stopVideoMode => exact keeps_stopVideoMode
  | reinitializeCamera => exact keeps_reinitializeCamera

/-! ## The other threads -/

theorem made_recycleVideoRequest (request : Nat) : Made l (recycleVideoRequest legacy request) := by
  refine built_recycleVideoRequest fun c h => ?_
  cases c <;> first | rfl | cases h

theorem made_allowPipeline : Made l allowPipeline :=
  .bind (.call rfl) fun _ => .ite (.ret _) (.bind (.call rfl) fun _ => .ret _)

theorem made_pushFrames (buffers : Nat) :
    Made [.pipelinePushMutex_] (pushFrames legacy buffers) := by
  have hbuffer : Made [.pipelinePushMutex_] pushGstBuffer := by
    refine .bind (.call rfl) fun _ => .ite (.bind (.call rfl) fun _ => ?_) (.call rfl)
    exact .bind (.call rfl) fun _ => .when _ (.bind (.call rfl) fun _ => .call rfl)
  have hplane : ∀ planes, Made [.pipelinePushMutex_] (do
      if planes = 0 then return
      if (← sys .mapPlane) ≠ .ok then return
      Prog.when (← sys .bufferNewAllocate) pushGstBuffer
      sys .unmapPlane) := by
    intro planes
    refine .ite (.ret _) (.bind (.call rfl) fun _ => .ite (.ret _) (.bind (.call rfl) fun _ => ?_))
    exact .bind (.when _ hbuffer) fun _ => .call rfl
  have hframe : Made [.pipelinePushMutex_] (pushFrame legacy) := by
    refine .bind (.call rfl) fun _ => .ite (.ret _) ?_
    exact .ite (.bind (.ret _) hplane) (.bind (.call rfl) hplane)
  induction buffers with
  | zero => exact .ret _
  | succ buffers ih => exact .bind hframe fun _ => ih

theorem keeps_pushAndRecycle (request : Nat) :
    Keeps [] Unit (pushAndRecycle legacy request) := by
  refine keeps_lockGuard (by decide) (keeps_of_built ?_)
  refine .bind made_allowPipeline fun _ => .bind (.call rfl) fun _ => ?_
  refine .ite (made_recycleVideoRequest request) (.bind (.call rfl) fun _ => ?_)
  exact .bind (made_pushFrames _) fun _ => made_recycleVideoRequest request

theorem keeps_photoCompleted : Keeps [] Unit photoCompleted :=
  keeps_lockGuard (by decide) (keeps_of_built (.call rfl))

theorem made_runSlots (request : Nat) (slots : List Slot) :
    Made [] (runSlots legacy request slots) := by
  induction slots with
  | nil => exact .ret _
  | cons s rest ih =>
    refine .bind ?_ fun _ => ih
    cases s with
    | photo => exact .part keeps_photoCompleted
    | video =>
      refine .bind (.call rfl) fun _ => .ite (.ret _) (.bind made_allowPipeline fun _ => ?_)
      exact .ite (made_recycleVideoRequest request) (.part (keeps_pushAndRecycle request))

/-- The threads that run: the callers, libcamera's and those of the main loops. -/
theorem keeps_body (t : Tid) (pc : t.Pc) (ht : LockOrder.present t = true) :
    Keeps [] _ ((crowd legacy).body t pc) := by
  cases t with
  | caller n =>
    exact keeps_of_built (.bind (.call rfl) fun op => .bind (.part (keeps_operate op)) fun _ => .ret _)
  | callback =>
    refine keeps_of_built (.bind (.bind (.call rfl) fun completion => ?_) fun _ => .ret _)
    exact .bind (made_runSlots _ _) fun _ => .call rfl
  | gst n =>
    refine keeps_of_built (built_gstBody pc fun c h => ?_)
    cases c with
    | store f value => cases f <;> first | rfl | simp [gstCall, turnCall] at h
    | _ => first | rfl | cases h
  | _ => cases ht

end

/-- What the mutexes ensure in a state of the threads. -/
structure Kept {K : Code Sys Tid} (cfg : Config K World) : Prop where
  /-- A mutex is given back by the thread that owns it. -/
  unlock : ∀ t m, cfg.pending t = some (.unlock m) → cfg.world.owner m = some t
  /-- And so is the one that a wait gives up. -/
  wait : ∀ t, cfg.pending t = some .waitRelease → cfg.world.owner .completionMutex = some t
  /-- No thread locks what it owns already. -/
  lock : ∀ t m, cfg.pending t = some (.lock m) ∨ cfg.pending t = some (.relock m) →
    cfg.world.owner m ≠ some t
  /-- What is guarded is used by a thread that owns one of the guards. -/
  guarded : ∀ t c, cfg.pending t = some c → c.guardedBy ≠ [] →
    ∃ m ∈ c.guardedBy, cfg.world.owner m = some t
  /-- What one and the same mutex guards is used by one thread at a time. -/
  apart : ∀ t u c d m, cfg.pending t = some c → cfg.pending u = some d → c.guardedBy = [m] →
    d.guardedBy = [m] → t = u
  /-- A thread that is between two operations, or at its end, owns nothing. -/
  idle : ∀ t, cfg.pending t = none → ∀ m, cfg.world.owner m ≠ some t

theorem kept_of_allows {K : Code Sys Tid} {cfg : Config K World}
    (h : ∀ t c, cfg.pending t = some c → mutexes.Allows c (owned World.owner t cfg.world))
    (hidle : ∀ t, cfg.pending t = none → owned World.owner t cfg.world = ∅) : Kept cfg := by
  have hguarded : ∀ t c, cfg.pending t = some c → c.guardedBy ≠ [] →
      ∃ m ∈ c.guardedBy, cfg.world.owner m = some t := fun t c hc hne => (h t c hc).needs hne
  have hone : ∀ t c m, cfg.pending t = some c → c.guardedBy = [m] →
      cfg.world.owner m = some t := by
    intro t c m hc hm
    obtain ⟨m', hmem, hown⟩ := hguarded t c hc (by simp [hm])
    rw [hm, List.mem_singleton] at hmem
    rwa [← hmem]
  refine ⟨fun t m hc => (h t _ hc).gives m rfl, fun t hc => (h t _ hc).gives _ rfl, ?_, hguarded,
    ?_, ?_⟩
  · rintro t m (hc | hc)
    · exact (h t _ hc).takes m rfl
    · exact (h t _ hc).takes m rfl
  · intro t u c d m hc hd hcm hdm
    have ht := hone t c m hc hcm
    rw [hone u d m hd hdm] at ht
    exact (Option.some.inj ht).symm
  · intro t ht m hown
    have hmem : m ∈ owned World.owner t cfg.world := hown
    rw [hidle t ht] at hmem
    exact hmem

end Guards

/-- However many threads call the operations, and whatever fails: every thread gives back what it
owns and nothing else, locks nothing that it owns, and makes the calls of `guardedBy` (assignments to
members, the set-up of the camera, the building, feeding and taking down of the pipeline) only with a
mutex that guards them. -/
theorem CameraManager.mutexes_kept {legacy : Bool} {cfg : Config (crowd legacy) World}
    (hrun : Run system anyStep (crowdStart legacy) cfg) : Guards.Kept cfg := by
  have hret : ∀ t, ∃ next, (crowdStart legacy).prog t = .ret next ∧
      (LockOrder.present t = true ∨ next = none) := by
    intro t
    cases t with
    | caller n => exact ⟨_, rfl, .inl rfl⟩
    | callback => exact ⟨_, rfl, .inl rfl⟩
    | gst n => exact ⟨_, rfl, .inl rfl⟩
    | _ => exact ⟨_, rfl, .inr rfl⟩
  obtain ⟨hallows, hidle⟩ := Guards.owners.run_disciplined
    (fun t pc ht => Guards.keeps_body t pc ht) (fun _ => rfl) hret hrun
  exact Guards.kept_of_allows hallows hidle

/-- One caller has built its pipeline and starts the camera, a second one wants to take a picture,
and a third one to stop video mode. -/
def Guards.threeCallers : List (Choice Sys Tid World Signal) :=
  runs (.caller 0) .initializeCamera 13 ++ runs (.caller 0) (.startVideoMode 640 480 15) 40 ++
    runs (.caller 1) .takePicture 2 ++ runs (.caller 2) .stopVideoMode 3

theorem CameraManager.mutexes_kept_start :
    ∃ cfg : Config (crowd false) World,
      cfg.pending (.caller 0) = some .cameraStart ∧
        cfg.pending (.caller 1) = some (.lock .cameraOpsMutex_) ∧
          cfg.world.owner .videoTeardownMutex_ = some (.caller 2) ∧ Guards.Kept cfg := by
  obtain ⟨cfg, hrun, htest⟩ := exec_reaches system (fun _ _ => true) (crowdStart false)
    Guards.threeCallers
    (fun cfg => cfg.pending (.caller 0) = some .cameraStart ∧
      cfg.pending (.caller 1) = some (.lock .cameraOpsMutex_) ∧
        cfg.world.owner .videoTeardownMutex_ = some (.caller 2))
    (by decide +kernel)
  obtain ⟨hstart, hlock, howner⟩ := of_decide_eq_true htest
  exact ⟨cfg, hstart, hlock, howner, CameraManager.mutexes_kept (hrun.mono fun _ _ _ => trivial)⟩

end SurfCam
