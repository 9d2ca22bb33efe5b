import SurfCam.Camera.Calls

/-!
# CameraManager

The operations of `CameraManager.cpp`.  `legacy` is `SURFCAM_LIBCAMERA_LEGACY`.  Early returns and
exceptions run the destructors of the scopes they leave, innermost first.
-/

namespace SurfCam

open Interaction

namespace CameraManager

/-- `camera_->stop()`, which blocks until every queued request has been completed or cancelled. -/
def cameraStop : Prog Sys Unit := do
  sys .stopBegin
  sys .stopEnd

/-- `!isInitialized_ || !camera_`, negated. -/
def cameraReady : Prog Sys Bool := do
  if !(← sys (.load .isInitialized_)) then return false
  sys (.isSet .camera_)

def consumeEncoderPipelineFailure : Prog Sys Bool :=
  sys (.exchange .gstPipelineError_ false)

section

variable (legacy : Bool)

def stopCameraIfRunning : Prog Sys Unit := do
  if !(← sys (.isSet .camera_)) then return
  if legacy then cameraStop
  else Prog.when (← sys .cameraIsRunning) cameraStop

def disconnectVideoRequestSlot : Prog Sys Unit := do
  -- only the legacy branch looks at `camera_`
  let camera ← if legacy then sys (.isSet .camera_) else pure true
  if !camera then return
  Prog.when (← sys (.isSet .videoRequestSlot)) do
    sys (.disconnect .video)
    sys (.assign .videoRequestSlot false)

end

/-! ## The pipeline -/

/-- `if (loop_ && g_main_loop_is_running(loop_)) g_main_loop_quit(loop_)`. -/
def quitLoopIfRunning : Prog Sys Unit := do
  if !(← sys (.isSet .loop_)) then return
  Prog.when (← sys .mainLoopIsRunning) (sys .mainLoopQuit)

def joinGstThread : Prog Sys Unit := do
  Prog.when (← sys .gstThreadJoinable) (sys .gstThreadJoin)

/-- The end of `shutdownGstreamerPipeline`, after the join. -/
def releasePipeline : Prog Sys Unit := do
  Prog.when (← sys (.isSet .bus_)) do
    sys (.objectUnref .bus)
    sys (.assign .bus_ false)
  Prog.when (← sys (.isSet .pipeline_)) do
    sys (.objectUnref .pipeline)
    sys (.assign .pipeline_ false)
  Prog.when (← sys (.isSet .loop_)) do
    sys .mainLoopUnref
    sys (.assign .loop_ false)
  sys (.assign .appsrc_ false)
  sys (.assign .hlssink_ false)

/-- The scope of `pipelinePushMutex_` in `shutdownGstreamerPipeline`. -/
def shutdownLocked : Prog Sys Unit := do
  if !(← sys (.isSet .pipeline_)) then return
  let _ ← sys (.setState .null)
  quitLoopIfRunning
  joinGstThread
  releasePipeline

def shutdownGstreamerPipeline : Prog Sys Unit :=
  lockGuard .pipelinePushMutex_ shutdownLocked

def unrefIf (made : Bool) (o : GstObject) : Prog Sys Unit :=
  Prog.when made (sys (.objectUnref o))

/-- The loop over `encoders`. -/
def makeEncoder : Prog Sys Bool := do
  if ← sys (.elementFactoryMake .omxh264enc) then return true
  if ← sys (.elementFactoryMake .v4l2h264enc) then return true
  sys (.elementFactoryMake .x264enc)

def makeHlssink : Prog Sys Unit := do
  sys (.assign .hlssink_ (← sys (.elementFactoryMake .hlssink)))
  Prog.when (!(← sys (.isSet .hlssink_))) do
    sys (.assign .hlssink_ (← sys (.elementFactoryMake .hlssink2)))

/-- The exit for a missing H264 encoder. -/
def dropWithoutEncoder (convert : Bool) : Prog Sys Bool := do
  unrefIf (← sys (.isSet .appsrc_)) .appsrc
  unrefIf convert .convert
  sys (.objectUnref .pipeline)
  sys (.assign .pipeline_ false)
  sys (.assign .appsrc_ false)
  return false

/-- The exit for a missing element. -/
def dropElements (convert h264enc h264parse queue : Bool) : Prog Sys Bool := do
  unrefIf (← sys (.isSet .appsrc_)) .appsrc
  unrefIf convert .convert
  unrefIf h264enc .h264enc
  unrefIf h264parse .h264parse
  unrefIf queue .queue
  unrefIf (← sys (.isSet .hlssink_)) .hlssink
  sys (.objectUnref .pipeline)
  sys (.assign .pipeline_ false)
  sys (.assign .appsrc_ false)
  sys (.assign .hlssink_ false)
  return false

/-- From `gst_pipeline_get_bus` on: the bus watch, the loop, its thread and the state change. -/
def startPipeline : Prog Sys Bool := do
  sys .getBus
  sys (.assign .bus_ true)
  sys .busAddWatch
  sys .mainLoopNew
  sys (.assign .loop_ true)
  (← sys .spawnGstThread).orThrow
  if !(← sys (.setState .playing)) then
    shutdownGstreamerPipeline
    return false
  sys (.store .gstPipelineError_ false)
  return true

/-- From `gst_bin_add_many` on. -/
def linkAndStart (width height fps : Nat) : Prog Sys Bool := do
  sys .binAddMany
  if !(← sys .elementLinkMany) then
    shutdownGstreamerPipeline
    return false
  (← sys (.setProperties width height fps)).orThrow
  startPipeline

/-- From `gst_pipeline_new` on. -/
def buildPipeline (width height fps : Nat) : Prog Sys Bool := do
  sys (.assign .pipeline_ (← sys .pipelineNew))
  if !(← sys (.isSet .pipeline_)) then return false
  sys (.assign .appsrc_ (← sys (.elementFactoryMake .appsrc)))
  let convert ← sys (.elementFactoryMake .videoconvert)
  let h264enc ← makeEncoder
  if !h264enc then dropWithoutEncoder convert
  else
    let h264parse ← sys (.elementFactoryMake .h264parse)
    let queue ← sys (.elementFactoryMake .queue)
    makeHlssink
    let appsrc ← sys (.isSet .appsrc_)
    let hlssink ← sys (.isSet .hlssink_)
    if !appsrc || !convert || !h264enc || !h264parse || !queue || !hlssink then
      dropElements convert h264enc h264parse queue
    else linkAndStart width height fps

def initializeGstreamerPipeline (width height fps : Nat) : Prog Sys Bool :=
  Prog.tryCatch
    (do
      (← sys .createDirectories).orThrow
      buildPipeline width height fps)
    (do
      shutdownGstreamerPipeline
      return false)

/-! ## Stopping video mode -/

/-- `pendingRequests_.clear(); completedRequests_.clear();` under `requestMutex_`. -/
def clearRequests : Prog Sys Unit :=
  lockGuard .requestMutex_ (sys .pendingClear)

/-- `allocator_.reset()` under `bufferMutex_`. -/
def resetAllocator : Prog Sys Unit :=
  lockGuard .bufferMutex_ (sys (.assign .allocator_ false))

section

variable (legacy : Bool)

def rollbackFailedVideoStart : Prog Sys Unit :=
  lockGuard .videoTeardownMutex_ do
    disconnectVideoRequestSlot legacy
    stopCameraIfRunning legacy
    clearRequests
    shutdownGstreamerPipeline
    resetAllocator
    sys (.store .captureActive_ false)
    sys (.store .shuttingDown_ false)

/-- What `stopVideoMode` and its recovery tear down: the slot, the camera, the pipeline and the
allocator. -/
def teardown : Prog Sys Unit := do
  disconnectVideoRequestSlot legacy
  stopCameraIfRunning legacy
  lockGuard .cameraOpsMutex_ do
    clearRequests
    shutdownGstreamerPipeline
  resetAllocator

def bestEffortVideoTeardownWhileHoldingTeardownLock : Prog Sys Unit := do
  sys (.store .captureActive_ false)
  sys (.store .shuttingDown_ false)
  (teardown legacy).tryCatch (return ())
  sys (.store .isVideoMode_ false)

def stopVideoMode : Prog Sys Bool :=
  lockGuard .videoTeardownMutex_ do
    if !(← sys (.load .isVideoMode_)) then return true
    Prog.tryCatch
      (do
        sys (.store .captureActive_ false)
        sys (.store .shuttingDown_ true)
        teardown legacy
        sys (.store .shuttingDown_ false)
        sys (.store .isVideoMode_ false)
        return true)
      (do
        bestEffortVideoTeardownWhileHoldingTeardownLock legacy
        return false)

/-- `cameraLock.unlock(); stopVideoMode(); cameraLock.lock();` -/
def stopVideoModeUnlocked : Prog Sys Unit := do
  sys (.unlock .cameraOpsMutex_)
  let _ ← stopVideoMode legacy
  sys (.relock .cameraOpsMutex_)

/-- `if (isVideoMode_)` of `takePicture` and `startVideoMode`; false when the camera is gone. -/
def leaveVideoMode : Prog Sys Bool := do
  if !(← sys (.load .isVideoMode_)) then return true
  stopVideoModeUnlocked legacy
  cameraReady

/-! ## Starting video mode -/

/-- An exit of `startVideoMode` with `ScopedUnlockUniqueLock`: the rollback runs with
`cameraOpsMutex_` released. -/
def rollbackUnlocked : Prog Sys Bool := do
  sys (.unlock .cameraOpsMutex_)
  (rollbackFailedVideoStart legacy).ensuring (sys (.relock .cameraOpsMutex_))
  return false

/-- `allocator_->allocate(sc.stream())` for every stream of the configuration. -/
def allocateStreams : Nat → Prog Sys Bool
  | 0 => return true
  | streams + 1 => do
    match ← sys (.allocate .video) with
    | .ok => allocateStreams streams
    | .failed =>
      resetAllocator
      return false
    | .threw => .throw

/-- A request for one buffer; at the end of its scope it is destroyed, unless it was moved into
`pendingRequests_`. -/
def queueBuffer : Prog Sys Bool := do
  match ← sys .createRequest with
  | .null => rollbackUnlocked legacy
  | .threw => .throw
  | .request request =>
    Prog.ensuring
      (do
        if !(← (← sys (.addBuffer request)).check) then rollbackUnlocked legacy
        else if !(← (← sys (.queueRequest request)).check) then rollbackUnlocked legacy
        else
          lockGuard .requestMutex_ (do (← sys (.pendingPush request)).orThrow)
          return true)
      (sys (.dropRequest request))

/-- The loop over `videoBuffers`; an entry says whether the holder is not null. -/
def queueBuffers : List Bool → Prog Sys Bool
  | [] => return true
  | bufferHolder :: rest => do
    if !bufferHolder then queueBuffers rest
    else if ← queueBuffer legacy then queueBuffers rest
    else return false

/-- From `allocator_ = make_unique` on. -/
def startStreams (streams width height fps : Nat) : Prog Sys Bool := do
  (← sys (.makeAllocator .video)).orThrow
  sys (.assign .allocator_ true)
  if !(← allocateStreams streams) then return false
  if !(← initializeGstreamerPipeline width height fps) then return ← rollbackUnlocked legacy
  disconnectVideoRequestSlot legacy
  (← sys (.connect .video)).orThrow
  sys (.assign .videoRequestSlot true)
  if !(← (← sys .cameraStart).check) then return ← rollbackUnlocked legacy
  match ← sys (.allocatorBuffers .video) with
  | none => .throw
  | some videoBuffers =>
    if !(← queueBuffers legacy videoBuffers) then return false
    sys (.store .isVideoMode_ true)
    sys (.store .captureActive_ true)
    sys (.store .shuttingDown_ false)
    return true

/-- From `generateConfiguration` on. -/
def configureVideo (width height fps : Nat) : Prog Sys Bool := do
  match ← sys (.generateConfiguration .video) with
  | .threw => .throw
  | .null =>
    sys (.assign .currentConfig_ false)
    nomatch ← sys .undefinedBehaviour
  | .streams 0 =>
    sys (.assign .currentConfig_ true)
    nomatch ← sys .undefinedBehaviour
  | .streams (streams + 1) =>
    sys (.assign .currentConfig_ true)
    if !(← (← sys (.configure ⟨width, height, .RGB888, 4⟩)).check) then return false
    startStreams legacy (streams + 1) width height fps

/-- The scope of `cameraLock` in `startVideoMode`. -/
def startVideoModeLocked (width height fps : Nat) : Prog Sys Bool := do
  if !(← cameraReady) then return false
  Prog.tryCatch
    (do
      if !(← leaveVideoMode legacy) then return false
      configureVideo legacy width height fps)
    (rollbackUnlocked legacy)

def startVideoMode (width height fps : Nat) : Prog Sys Bool :=
  lockGuard .cameraOpsMutex_ (startVideoModeLocked legacy width height fps)

/-! ## Taking a picture -/

/-- `completionCV.wait_for(lock, 5 s, completed)`. -/
def waitForCompletion : Prog Sys Bool := do
  if ← sys (.load .completed) then return true
  sys .waitRelease
  sys .waitReacquire

/-- From the mapping of the buffer on: the picture is written and the camera stopped. -/
def saveImage : Prog Sys Bool := do
  let planes ← if legacy then pure 1 else sys .planeCount
  if planes = 0 then nomatch ← sys .undefinedBehaviour
  if !(← (← sys .mapPlane).check) then
    cameraStop
    return false
  -- with a legacy libcamera the destructor of `mapped` unmaps at the end of the scope
  Prog.ensuring
    (do
      if !(← (← sys .openOutput).check) then
        cameraStop
        return false
      let _ ← sys .writeOutput
      let _ ← sys .closeOutput
      Prog.when (!legacy) (sys .unmapPlane)
      cameraStop
      return true)
    (Prog.when legacy (sys .unmapPlane))

/-- The scope of `lock(completionMutex)`: false after a timeout, with the camera stopped. -/
def awaitCompletion : Prog Sys Bool :=
  lockGuard .completionMutex do
    if ← waitForCompletion then return true
    cameraStop
    return false

/-- From `camera_->start()` on, inside the scope of `photoSlot`. -/
def capture (request : Nat) : Prog Sys Bool := do
  if !(← (← sys .cameraStart).check) then return false
  sys (.sleepFor 500)
  if !(← (← sys (.queueRequest request)).check) then
    cameraStop
    return false
  if !(← awaitCompletion) then return false
  saveImage legacy

/-- From `allocator.buffers()` on, inside the scope of the request. -/
def captureWith (request : Nat) : Prog Sys Bool := do
  match ← sys (.allocatorBuffers .photo) with
  | none => .throw
  | some [] => return false
  | some (_ :: _) =>
    if !(← (← sys (.addBuffer request)).check) then return false
    sys (.store .completed false)
    (← sys (.connect .photo)).orThrow
    (capture legacy request).ensuring (sys (.disconnect .photo))

/-- From `createRequest` on. -/
def photoRequest : Prog Sys Bool := do
  match ← sys .createRequest with
  | .null => return false
  | .threw => .throw
  | .request request => (captureWith legacy request).ensuring (sys (.dropRequest request))

/-- The body of the `try` of `takePicture`. -/
def configurePhoto : Prog Sys Bool := do
  match ← sys (.generateConfiguration .photo) with
  | .threw => .throw
  | .null | .streams 0 => nomatch ← sys .undefinedBehaviour
  | .streams (_ + 1) =>
    if !(← (← sys (.configure ⟨2592, 1944, .MJPEG, 1⟩)).check) then return false
    (← sys (.makeAllocator .photo)).orThrow
    Prog.ensuring
      (do
        if !(← (← sys (.allocate .photo)).check) then return false
        photoRequest legacy)
      (sys .deleteAllocator)

/-- The `try` of `takePicture` with its handler. -/
def capturePhoto : Prog Sys Bool :=
  (configurePhoto legacy).tryCatch do
    stopCameraIfRunning legacy
    return false

def takePicture : Prog Sys Bool :=
  lockGuard .cameraOpsMutex_ do
    if ← sys (.load .snapshotsPaused_) then return false
    if !(← cameraReady) then return false
    if !(← leaveVideoMode legacy) then return false
    capturePhoto legacy

/-! ## Acquiring the camera -/

/-- `cameraManager_ = make_unique`, `start()`, `cameras()` and `acquire()`, as `initialize` and
`reinitialize` do them. -/
def acquireCamera : Prog Sys Bool := do
  (← sys .makeCameraManager).orThrow
  sys (.assign .cameraManager_ true)
  -- the error return of `start()` is ignored
  let _ ← (← sys .managerStart).check
  match ← sys .managerCameras with
  | none => .throw
  | some 0 => return false
  | some (_ + 1) =>
    sys (.assign .camera_ true)
    (← sys .acquire).check

/-- `CameraManager::initialize`. -/
def initializeCamera : Prog Sys Bool :=
  lockGuard .cameraOpsMutex_ <| Prog.tryCatch
    (do
      if !(← acquireCamera) then return false
      sys (.store .isInitialized_ true)
      sys (.store .snapshotsPaused_ false)
      return true)
    (return false)

/-- The camera and its manager are given back. -/
def releaseCamera : Prog Sys Unit := do
  Prog.when (← sys (.isSet .camera_)) do
    stopCameraIfRunning legacy
    sys .release
    sys (.assign .camera_ false)
  Prog.when (← sys (.isSet .cameraManager_)) do
    sys .managerStop
    sys (.assign .cameraManager_ false)

/-- `CameraManager::reinitialize`. -/
def reinitializeCamera : Prog Sys Bool :=
  lockGuard .cameraOpsMutex_ do
    Prog.when (← sys (.load .isVideoMode_)) (stopVideoModeUnlocked legacy)
    Prog.tryCatch
      (do
        releaseCamera legacy
        resetAllocator
        shutdownGstreamerPipeline
        if !(← acquireCamera) then
          sys (.store .snapshotsPaused_ true)
          return false
        sys (.store .isInitialized_ true)
        sys (.store .isVideoMode_ false)
        sys (.store .captureActive_ false)
        sys (.store .snapshotsPaused_ false)
        return true)
      (do
        sys (.store .snapshotsPaused_ true)
        return false)

/-- `~CameraManager`. -/
def destroy : Prog Sys Unit :=
  Prog.tryCatch
    (do
      Prog.when (← sys (.load .isVideoMode_)) do
        let _ ← stopVideoMode legacy
      Prog.when (← sys (.isSet .camera_)) do
        stopCameraIfRunning legacy
        sys .release
      resetAllocator
      Prog.when (← sys (.isSet .cameraManager_)) (sys .managerStop)
      sys (.assign .cameraManager_ false)
      shutdownGstreamerPipeline)
    (return ())

/-- One call of a public operation. -/
def operate : Operation → Prog Sys Bool
  | .initializeCamera => initializeCamera
  | .takePicture => takePicture legacy
  | .startVideoMode width height fps => startVideoMode legacy width height fps
  | .stopVideoMode => stopVideoMode legacy
  | .reinitializeCamera => reinitializeCamera legacy

end

end CameraManager

end SurfCam
