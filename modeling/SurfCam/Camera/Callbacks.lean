import SurfCam.Camera.Manager

/-!
# Callbacks

What libcamera's thread and the threads of the GLib main loops run: the slots of
`requestCompleted`, and `onGstMessage`.
-/

namespace SurfCam

open Interaction

namespace CameraManager

/-- `captureActive_ && !shuttingDown_` -/
def allowPipeline : Prog Sys Bool := do
  if !(← sys (.load .captureActive_)) then return false
  return !(← sys (.load .shuttingDown_))

/-- The use of an allocated `GstBuffer`: a failed push is followed by an unref. -/
def pushGstBuffer : Prog Sys Unit := do
  if ← sys .bufferMap then
    sys .bufferUnmap
    Prog.when (!(← sys .appSrcPushBuffer)) do
      sys .bufferUnref
      sys (.store .gstPipelineError_ true)
  else sys .bufferUnref

section

variable (legacy : Bool)

/-- The body of the loop over the buffers of a request. -/
def pushFrame : Prog Sys Unit := do
  if !(← sys (.isSet .appsrc_)) then return
  let planes ← if legacy then pure 1 else sys .planeCount
  if planes = 0 then return
  if (← sys .mapPlane) ≠ .ok then return
  Prog.when (← sys .bufferNewAllocate) pushGstBuffer
  sys .unmapPlane

def pushFrames : (buffers : Nat) → Prog Sys Unit
  | 0 => return ()
  | buffers + 1 => do
    pushFrame legacy
    pushFrames buffers

def recycleVideoRequest (request : Nat) : Prog Sys Unit := do
  sys (.reuse request)
  if !(← sys (.isSet .camera_)) then return
  let running ← if legacy then pure true else sys .cameraIsRunning
  if !running then return
  -- an error return is only logged
  let _ ← sys (.queueRequest request)

/-- The part of `requestComplete` that holds `pipelinePushMutex_`. -/
def pushAndRecycle (request : Nat) : Prog Sys Unit :=
  lockGuard .pipelinePushMutex_ do
    let stillAllow ← allowPipeline
    let appsrc ← sys (.isSet .appsrc_)
    if !stillAllow || !appsrc then recycleVideoRequest legacy request
    else
      pushFrames legacy (← sys (.requestBuffers request))
      recycleVideoRequest legacy request

def requestComplete (request : Nat) : Prog Sys Unit := do
  if ← sys (.requestStatusCancelled request) then return
  if !(← allowPipeline) then recycleVideoRequest legacy request
  else pushAndRecycle legacy request

end

/-- The lambda that `takePicture` connects. -/
def photoCompleted : Prog Sys Unit :=
  lockGuard .completionMutex (sys (.store .completed true))

def onGstMessage : GstMessage → Prog Sys Unit
  | .error => do
    sys (.store .gstPipelineError_ true)
    quitLoopIfRunning
  | .eos | .other => return ()

/-! ## The threads that run them -/

/-- One slot of `requestCompleted`. -/
def runSlot (legacy : Bool) (request : Nat) : Slot → Prog Sys Unit
  | .photo => photoCompleted
  | .video => requestComplete legacy request

def runSlots (legacy : Bool) (request : Nat) : List Slot → Prog Sys Unit
  | [] => return ()
  | s :: rest => do
    runSlot legacy request s
    runSlots legacy request rest

/-- libcamera completes a request. -/
def completionTurn (legacy : Bool) : Prog Sys Unit := do
  let completion ← sys .nextCompletion
  runSlots legacy completion.request completion.slots
  sys .completionDone

/-- The thread that `initializeGstreamerPipeline` starts, up to its first turn. -/
def gstThreadBegin : Prog Sys Unit := do
  sys .threadBegin
  sys (.store .gstRunning_ true)
  sys .mainLoopEnter

/-- One turn of its loop; false when `g_main_loop_run` has returned. -/
def gstThreadTurn : Prog Sys Bool := do
  match ← sys .mainLoopTurn with
  | .message m =>
    onGstMessage m
    return true
  | .returned =>
    sys (.store .gstRunning_ false)
    sys .threadEnd
    return false

end CameraManager

end SurfCam
