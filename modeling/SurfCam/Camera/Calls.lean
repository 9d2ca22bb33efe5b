import SurfCam.Config
import SurfCam.Logic.Program

/-!
# What the camera code calls

The calls of `CameraManager.cpp` and `main.cpp`: into the mutexes, flags and pointers that the
threads share, into libcamera, GStreamer and GLib, the file system and the threads.  An `Outcome`
is the reply of a call that can fail in two ways.

The calls of a teardown (to disconnect a slot, to stop and release the camera, to stop its manager,
to join the thread of a main loop, to drop references) are assumed not to throw: their replies are
not `Outcome`s.  So the handlers around a teardown are never entered.
-/

namespace SurfCam

open Interaction

/-- The mutexes of `CameraManager`, and `completionMutex` of `takePicture`. -/
inductive Mutex where
  | cameraOpsMutex_
  | videoTeardownMutex_
  | requestMutex_
  | bufferMutex_
  | pipelinePushMutex_
  | completionMutex
  deriving DecidableEq

/-- The Boolean variables that threads share: members, `completed` of `takePicture`, and the
globals of `main.cpp`. -/
inductive Flag where
  | isInitialized_
  | isVideoMode_
  | captureActive_
  | shuttingDown_
  | gstRunning_
  | gstPipelineError_
  | snapshotsPaused_
  | completed
  | keepRunning
  | streamShouldRun
  | emergencyStopHls
  | cameraRecoveryNeeded
  deriving DecidableEq

/-- The members that are null or not.  `videoRequestSlot` is `videoRequestCompletedConn_`, or
`videoRequestSlotConnected_` with a legacy libcamera. -/
inductive Ptr where
  | cameraManager_
  | camera_
  | currentConfig_
  | allocator_
  | pipeline_
  | appsrc_
  | hlssink_
  | bus_
  | loop_
  | videoRequestSlot
  deriving DecidableEq

/-- The members that make up the pipeline. -/
def Ptr.ofPipeline : Ptr → Bool
  | pipeline_ | appsrc_ | hlssink_ | bus_ | loop_ => true
  | _ => false

/-- The two functions that are connected to `requestCompleted`. -/
inductive Slot where
  | photo
  | video
  deriving DecidableEq

/-- The allocator of `takePicture` and the member `allocator_`. -/
inductive Allocator where
  | photo
  | video
  deriving DecidableEq

inductive PixelFormat where
  | MJPEG
  | RGB888
  deriving DecidableEq

/-- The stream configuration that is passed to `configure`. -/
structure StreamConfig where
  width : Nat
  height : Nat
  pixelFormat : PixelFormat
  bufferCount : Nat
  deriving DecidableEq

/-- The GStreamer elements, by the factory that makes them. -/
inductive Element where
  | appsrc
  | videoconvert
  | omxh264enc
  | v4l2h264enc
  | x264enc
  | h264parse
  | queue
  | hlssink
  | hlssink2
  deriving DecidableEq

/-- What `gst_object_unref` is called on. -/
inductive GstObject where
  | appsrc
  | convert
  | h264enc
  | h264parse
  | queue
  | hlssink
  | bus
  | pipeline
  deriving DecidableEq

inductive GstState where
  | null
  | playing
  deriving DecidableEq

/-- The messages that `onGstMessage` tells apart. -/
inductive GstMessage where
  | error
  | eos
  | other
  deriving DecidableEq

/-- Success, an error return, or a `std::exception`. -/
inductive Outcome where
  | ok
  | failed
  | threw
  deriving DecidableEq

/-- `generateConfiguration`: null, a configuration with so many streams, or an exception. -/
inductive ConfigReply where
  | null
  | streams (n : Nat)
  | threw
  deriving DecidableEq

/-- `createRequest`: null, a request, or an exception. -/
inductive RequestReply where
  | null
  | request (r : Nat)
  | threw
  deriving DecidableEq

/-- What a turn of `g_main_loop_run` does: it dispatches a bus message, or the loop returns. -/
inductive LoopTurn where
  | message (m : GstMessage)
  | returned
  deriving DecidableEq

/-- A completed request, its status, and the connected slots that libcamera runs for it. -/
structure Completion where
  request : Nat
  cancelled : Bool
  slots : List Slot
  deriving DecidableEq

/-- The public operations of `CameraManager`. -/
inductive Operation where
  | initializeCamera
  | takePicture
  | startVideoMode (width height fps : Nat)
  | stopVideoMode
  | reinitializeCamera
  deriving DecidableEq

/-- The threads that `main` starts and joins. -/
inductive WorkerThread where
  | snapshotThread
  | checkStreamThread
  | monitorThread
  deriving DecidableEq

inductive SysCall where
  /-- construction of a `lock_guard` or a `unique_lock` -/
  | lock (m : Mutex)
  /-- `unique_lock::lock()` -/
  | relock (m : Mutex)
  | unlock (m : Mutex)
  /-- the first half of `completionCV.wait_for`: give up `completionMutex` and wait -/
  | waitRelease
  /-- its second half: own the mutex again, because of `completed` (true) or of the timeout -/
  | waitReacquire
  | load (f : Flag)
  | store (f : Flag) (value : Bool)
  | exchange (f : Flag) (value : Bool)
  | isSet (p : Ptr)
  | assign (p : Ptr) (value : Bool)
  | sleepFor (milliseconds : Nat)
  /-- a null pointer is dereferenced or an empty list indexed -/
  | undefinedBehaviour
  -- libcamera
  | makeCameraManager
  | managerStart
  | managerCameras
  | managerStop
  | acquire
  | release
  | generateConfiguration (s : Slot)
  | configure (config : StreamConfig)
  | makeAllocator (a : Allocator)
  | allocate (a : Allocator)
  | allocatorBuffers (a : Allocator)
  | deleteAllocator
  | createRequest
  | addBuffer (request : Nat)
  | queueRequest (request : Nat)
  | reuse (request : Nat)
  | requestStatusCancelled (request : Nat)
  | requestBuffers (request : Nat)
  /-- the end of the scope of a `unique_ptr<Request>` -/
  | dropRequest (request : Nat)
  | pendingPush (request : Nat)
  | pendingClear
  | connect (s : Slot)
  | disconnect (s : Slot)
  | cameraStart
  | cameraIsRunning
  /-- `camera_->stop()` is called -/
  | stopBegin
  /-- and returns -/
  | stopEnd
  | planeCount
  | mapPlane
  | unmapPlane
  | nextCompletion
  | completionDone
  -- GStreamer and GLib
  | createDirectories
  | pipelineNew
  | elementFactoryMake (e : Element)
  | objectUnref (o : GstObject)
  | binAddMany
  | elementLinkMany
  | setProperties (width height fps : Nat)
  | getBus
  | busAddWatch
  | mainLoopNew
  | mainLoopUnref
  | mainLoopIsRunning
  | mainLoopQuit
  | setState (s : GstState)
  | spawnGstThread
  | gstThreadJoinable
  | gstThreadJoin
  | mainLoopEnter
  | mainLoopTurn
  | bufferNewAllocate
  | bufferMap
  | bufferUnmap
  | bufferUnref
  | appSrcPushBuffer
  -- the output file of a snapshot
  | openOutput
  | writeOutput
  | closeOutput
  -- threads and the application
  | nextOperation
  | threadBegin
  | threadEnd
  | spawnWorker (t : WorkerThread)
  | joinWorker (t : WorkerThread)
  | spawnStreamThread
  | streamThreadJoinable
  | streamThreadJoin
  | cleanHlsDirectory
  | pollAndUpload (draining : Bool)
  | uploadSnapshot
  | isStreamingRequested
  | systemClockNow
  /-- the whole text of a file, if it can be opened -/
  | readFile (path : Str)
  deriving DecidableEq

@[reducible] def SysCall.Reply : SysCall → Type
  | waitReacquire | load _ | exchange _ _ | isSet _ => Bool
  | undefinedBehaviour => Empty
  | makeCameraManager | managerStart | acquire | configure _ | makeAllocator _ | allocate _
  | addBuffer _ | queueRequest _ | pendingPush _ | connect _ | cameraStart | mapPlane => Outcome
  | managerCameras => Option Nat
  | generateConfiguration _ => ConfigReply
  | allocatorBuffers _ => Option (List Bool)
  | createRequest => RequestReply
  | requestStatusCancelled _ | cameraIsRunning => Bool
  | requestBuffers _ | planeCount => Nat
  | nextCompletion => Completion
  | createDirectories | setProperties _ _ _ | spawnGstThread | openOutput => Outcome
  | pipelineNew | elementFactoryMake _ | elementLinkMany | mainLoopIsRunning | setState _
  | gstThreadJoinable | bufferNewAllocate | bufferMap | appSrcPushBuffer => Bool
  | mainLoopTurn => LoopTurn
  | writeOutput | closeOutput => Bool
  | nextOperation => Operation
  | spawnStreamThread | cleanHlsDirectory | pollAndUpload _ | uploadSnapshot => Outcome
  | streamThreadJoinable => Bool
  | isStreamingRequested => Option (Option Bool)
  | systemClockNow => Int
  | readFile _ => Option Str
  | _ => Unit

/-- The calls of the camera code and the application. -/
@[reducible] def Sys : Signature where
  Call := SysCall
  Reply := SysCall.Reply

/-- One call of the camera code. -/
abbrev sys (c : SysCall) : Prog Sys c.Reply := .call c .ret

/-- A call whose error return is a result. -/
def Outcome.check : Outcome → Prog Sys Bool
  | ok => return true
  | failed => return false
  | threw => .throw

/-- A call that returns normally or throws. -/
def Outcome.orThrow : Outcome → Prog Sys Unit
  | ok => return ()
  | failed | threw => .throw

/-- A `lock_guard` for the rest of a scope. -/
def lockGuard {α : Type} (m : Mutex) (scope : Prog Sys α) : Prog Sys α := do
  sys (.lock m)
  scope.ensuring (sys (.unlock m))

end SurfCam
