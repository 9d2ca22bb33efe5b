import SurfCam.App.Decision
import SurfCam.App.Monitor
import SurfCam.Camera.Callbacks

/-!
# The threads of main.cpp

Every worker of `main.cpp` from one loop head to the next.  The poll of the uploader and the
requests of `ApiClient` are seen from outside: they return or throw.
-/

namespace SurfCam

open Interaction

namespace App

/-- `stopHlsStreamSession` -/
def stopHlsStreamSession : Prog Sys Unit := do
  sys (.store .streamShouldRun false)
  Prog.when (← sys .streamThreadJoinable) (sys .streamThreadJoin)

def reapFinishedHlsWorker : Prog Sys Unit := do
  if !(← sys .streamThreadJoinable) then return
  Prog.when (!(← sys (.load .streamShouldRun))) (sys .streamThreadJoin)

/-- A call that may throw and whose result is only logged. -/
def logged (c : Prog Sys Outcome) : Prog Sys Unit := do
  let _ ← (← c).check

section

variable (legacy : Bool)

/-! ## snapshotWorker -/

/-- One turn of the loop of `snapshotWorker`; false when the thread ends. -/
def snapshotTurn : Prog Sys Bool := do
  if !(← sys (.load .keepRunning)) then
    sys .threadEnd
    return false
  Prog.tryCatch
    (do Prog.when (← CameraManager.takePicture legacy) (logged (sys .uploadSnapshot)))
    (return ())
  sys (.sleepFor (1000 * Config.SNAPSHOT_INTERVAL))
  return true

/-! ## streamHlsWorker -/

/-- The end of the thread, with the destructor of `clearStreamFlag`. -/
def hlsWorkerEnd : Prog Sys Unit := do
  sys (.store .streamShouldRun false)
  sys .threadEnd

/-- From the start of the thread to the upload loop; false when the thread ends before it. -/
def hlsWorkerBegin : Prog Sys Bool := do
  sys .threadBegin
  match ← sys .cleanHlsDirectory with
  | .ok =>
    if !(← CameraManager.startVideoMode legacy Config.CAMERA_WIDTH Config.CAMERA_HEIGHT
        Config.STREAM_FPS) then
      sys (.store .cameraRecoveryNeeded true)
      hlsWorkerEnd
      return false
    return true
  | _ =>
    hlsWorkerEnd
    return false

/-- The condition of the upload loop. -/
def hlsLoopCondition : Prog Sys Bool := do
  if !(← sys (.load .streamShouldRun)) then return false
  if !(← sys (.load .keepRunning)) then return false
  return !(← sys (.load .emergencyStopHls))

/-- One turn of the upload loop; false when the loop is left. -/
def hlsLoopTurn : Prog Sys Bool := do
  if !(← hlsLoopCondition) then return false
  if ← CameraManager.consumeEncoderPipelineFailure then return false
  Prog.tryCatch
    (do
      logged (sys (.pollAndUpload false))
      sys (.sleepFor Config.HLS_UPLOAD_POLL)
      return true)
    (return false)

/-- The polls that are left to drain. -/
def drain : (polls : Nat) → Prog Sys Unit
  | 0 => return ()
  | polls + 1 => do
    logged (sys (.pollAndUpload true))
    sys (.sleepFor 250)
    drain polls

/-- After the upload loop. -/
def hlsWorkerFinish : Prog Sys Unit := do
  let _ ← CameraManager.stopVideoMode legacy
  (drain 8).tryCatch (return ())
  hlsWorkerEnd

/-! ## streamCheckWorker -/

/-- `cameraRecoveryNeeded` is served. -/
def recoverCamera : Prog Sys Unit := do
  if !(← sys (.exchange .cameraRecoveryNeeded false)) then return
  Prog.when (← sys (.load .keepRunning)) do
    stopHlsStreamSession
    Prog.when (!(← CameraManager.reinitializeCamera legacy)) (sys (.sleepFor 60000))

/-- The head of the loop: the finished worker is reaped, an emergency stop and a recovery served. -/
def serveRequests (m : StreamCheck.Memory) : Prog Sys StreamCheck.Memory := do
  reapFinishedHlsWorker
  let emergency ← sys (.exchange .emergencyStopHls false)
  Prog.when emergency stopHlsStreamSession
  recoverCamera legacy
  return if emergency then { m with apiFailureStreak := 0 } else m

/-- The session follows the decision; false when the thread could not be started. -/
def followDecision (shouldStream : Bool) : Prog Sys Bool := do
  if !(← sys (.load .keepRunning)) then return true
  let joinable ← sys .streamThreadJoinable
  if shouldStream && !joinable then
    sys (.store .streamShouldRun true)
    return (← sys .spawnStreamThread) = .ok
  Prog.when (!shouldStream && joinable) stopHlsStreamSession
  return true

/-- The `try` of the loop: the new variables, and whether the turn goes on to its sleep. -/
def checkStream (m : StreamCheck.Memory) : Prog Sys (StreamCheck.Memory × Bool) := do
  match ← sys .isStreamingRequested with
  | none => return ({ m with apiFailureStreak := m.apiFailureStreak + 1 }, true)
  | some streamState =>
    if !(← sys (.load .keepRunning)) then return (m, false)
    let now ← sys .systemClockNow
    let m := m.update StreamCheck.armhf now streamState
    -- the thread that cannot be started throws `std::system_error` into the same handler
    if ← followDecision (m.shouldStream now streamState) then return (m, true)
    return ({ m with apiFailureStreak := m.apiFailureStreak + 1 }, true)

/-- The sleeps at the end of a turn. -/
def checkSleep (apiFailureStreak : Nat) : Prog Sys Unit := do
  sys (.sleepFor (1000 * Config.STREAM_CHECK_INTERVAL))
  if apiFailureStreak ≤ 5 then return
  Prog.when (← sys (.load .keepRunning)) do
    sys (.sleepFor (1000 * min 180 ((apiFailureStreak - 5) * 20)))

/-- One turn of the loop of `streamCheckWorker`; nothing when the thread ends. -/
def checkTurn (m : StreamCheck.Memory) : Prog Sys (Option StreamCheck.Memory) := do
  if !(← sys (.load .keepRunning)) then
    sys .threadEnd
    return none
  let m ← serveRequests legacy m
  let (m, goesOn) ← checkStream m
  Prog.when goesOn (checkSleep m.apiFailureStreak)
  return some m

/-! ## monitorSystemResources -/

/-- One turn of the loop of `monitorSystemResources`; false when the thread ends. -/
def monitorTurn : Prog Sys Bool := do
  if !(← sys (.load .keepRunning)) then
    sys .threadEnd
    return false
  Monitor.cycle
  sys (.sleepFor 30000)
  return true

/-! ## main -/

/-- One turn of the loop that initializes the camera: none to go on with the loop, some false when
`main` returns, some true when the workers run. -/
def mainInitTurn (retryDelay : Nat) : Prog Sys (Option Bool) := do
  -- `while (keepRunning && !camera.initialize())`
  let keepRunning ← sys (.load .keepRunning)
  let retry ← if keepRunning then (do return !(← CameraManager.initializeCamera)) else pure false
  if retry then
    sys (.sleepFor (1000 * retryDelay))
    return none
  if !(← sys (.load .keepRunning)) then
    CameraManager.destroy legacy
    sys .threadEnd
    return some false
  sys (.spawnWorker .snapshotThread)
  sys (.spawnWorker .checkStreamThread)
  sys (.spawnWorker .monitorThread)
  return some true

/-- One turn of the loop that waits for the signal, and the shutdown; false when `main` returns. -/
def mainWaitTurn : Prog Sys Bool := do
  if ← sys (.load .keepRunning) then
    sys (.sleepFor 1000)
    return true
  sys (.store .streamShouldRun false)
  sys (.joinWorker .snapshotThread)
  sys (.joinWorker .checkStreamThread)
  sys (.joinWorker .monitorThread)
  stopHlsStreamSession
  CameraManager.destroy legacy
  sys .threadEnd
  return false

end

end App

end SurfCam
