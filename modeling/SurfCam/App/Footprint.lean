import SurfCam.App.Workers
import SurfCam.Camera.Footprint

/-!
# What the threads of main.cpp are put together from

As `Camera/Footprint.lean` does for the operations: which calls the workers make, apart from those
that start, join and end threads, and apart from the poll of a live session.
-/

namespace SurfCam

open Interaction Prog CameraManager

namespace App

/-- The calls of the workers that concern neither the camera nor another thread, apart from those
with a meaning of their own: a session is asked for, a recovery or an emergency stop is asked for or
served, an error of the encoder is consumed, the directory of a session is cleaned. -/
def workerCall : SysCall → Bool
  | .load f => f = .keepRunning ∨ f = .streamShouldRun ∨ f = .emergencyStopHls
  | .store f value => f = .streamShouldRun ∧ !value
  | .sleepFor _ | .threadBegin | .uploadSnapshot | .isStreamingRequested | .systemClockNow
  | .readFile _ | .streamThreadJoinable => true
  | .pollAndUpload draining => draining
  | _ => false

section

variable {P : SysCall → Prop} {X : ∀ α : Type, Prog Sys α → Prop} {legacy : Bool}
  (hW : ∀ c, workerCall c = true → P c)

theorem built_logged {c : Prog Sys Outcome} (hc : Built P X c) : Built P X (logged c) :=
  .bind hc fun _ => .bind (built_check _) fun _ => .ret _

include hW

/-! ## The session -/

section

variable (hj : P .streamThreadJoin)

include hj

theorem built_stopHlsStreamSession : Built P X stopHlsStreamSession :=
  .bind (.call (hW _ rfl)) fun _ => .bind (.call (hW _ rfl)) fun _ => .when _ (.call hj)

theorem built_reapFinishedHlsWorker : Built P X reapFinishedHlsWorker :=
  .bind (.call (hW _ rfl)) fun _ => .ite (.ret _) <|
    .bind (.call (hW _ rfl)) fun _ => .when _ (.call hj)

theorem built_recoverCamera (hn : P (.exchange .cameraRecoveryNeeded false))
    (hr : Built P X (reinitializeCamera legacy)) : Built P X (recoverCamera legacy) :=
  .bind (.call hn) fun _ => .ite (.ret _) <| .bind (.call (hW _ rfl)) fun _ =>
    .when _ <| .bind (built_stopHlsStreamSession hW hj) fun _ =>
      .bind hr fun _ => .when _ (.call (hW _ rfl))

theorem built_serveRequests (he : P (.exchange .emergencyStopHls false))
    (hr : Built P X (recoverCamera legacy)) (m : StreamCheck.Memory) :
    Built P X (serveRequests legacy m) :=
  .bind (built_reapFinishedHlsWorker hW hj) fun _ => .bind (.call he) fun _ =>
    .bind (.when _ (built_stopHlsStreamSession hW hj)) fun _ => .bind hr fun _ => .ret _

theorem built_followDecision (ho : P (.store .streamShouldRun true)) (hs : P .spawnStreamThread)
    (shouldStream : Bool) : Built P X (followDecision shouldStream) :=
  .bind (.call (hW _ rfl)) fun _ => .ite (.ret _) <| .bind (.call (hW _ rfl)) fun _ =>
    .ite (.bind (.call ho) fun _ => .bind (.call hs) fun _ => .ret _) <|
      .bind (.when _ (built_stopHlsStreamSession hW hj)) fun _ => .ret _

end

theorem built_checkStream (hf : ∀ shouldStream, Built P X (followDecision shouldStream))
    (m : StreamCheck.Memory) : Built P X (checkStream m) := by
  refine .bind (.call (hW _ rfl)) fun r => ?_
  cases r with
  | none => exact .ret _
  | some streamState =>
    exact .bind (.call (hW _ rfl)) fun _ => .ite (.ret _) <| .bind (.call (hW _ rfl)) fun _ =>
      .bind (hf _) fun _ => .ite (.ret _) (.ret _)

theorem built_checkSleep (apiFailureStreak : Nat) : Built P X (checkSleep apiFailureStreak) :=
  .bind (.call (hW _ rfl)) fun _ => .ite (.ret _) <|
    .bind (.call (hW _ rfl)) fun _ => .when _ (.call (hW _ rfl))

/-! ## streamHlsWorker -/

theorem built_hlsLoopTurn (hc : P (.exchange .gstPipelineError_ false))
    (hp : P (.pollAndUpload false)) : Built P X hlsLoopTurn := by
  have hcondition : Built P X hlsLoopCondition :=
    .bind (.call (hW _ rfl)) fun _ => .ite (.ret _) <|
      .bind (.call (hW _ rfl)) fun _ => .ite (.ret _) (.bind (.call (hW _ rfl)) fun _ => .ret _)
  exact .bind hcondition fun _ => .ite (.ret _) <| .bind (.call hc) fun _ =>
    .ite (.ret _) <| .tryCatch
      (.bind (built_logged (.call hp)) fun _ => .bind (.call (hW _ rfl)) fun _ => .ret _)
      (.ret _)

theorem built_drain (polls : Nat) : Built P X (drain polls) := by
  induction polls with
  | zero => exact .ret _
  | succ polls ih =>
    exact .bind (built_logged (.call (hW _ rfl))) fun _ => .bind (.call (hW _ rfl)) fun _ => ih

section

variable (he : P .threadEnd)

include he

theorem built_hlsWorkerEnd : Built P X hlsWorkerEnd :=
  .bind (.call (hW _ rfl)) fun _ => .call he

theorem built_hlsWorkerBegin (hc : P .cleanHlsDirectory)
    (hn : P (.store .cameraRecoveryNeeded true))
    (hs : Built P X (startVideoMode legacy Config.CAMERA_WIDTH Config.CAMERA_HEIGHT
      Config.STREAM_FPS)) :
    Built P X (hlsWorkerBegin legacy) := by
  have hend : Built P X (hlsWorkerEnd >>= fun _ => .ret false) :=
    .bind (built_hlsWorkerEnd hW he) fun _ => .ret _
  refine .bind (.call (hW _ rfl)) fun _ => .bind (.call hc) fun r => ?_
  cases r with
  | ok => exact .bind hs fun _ => .ite (.bind (.call hn) fun _ => hend) (.ret _)
  | failed => exact hend
  | threw => exact hend

theorem built_hlsWorkerFinish (hs : Built P X (stopVideoMode legacy)) :
    Built P X (hlsWorkerFinish legacy) :=
  .bind hs fun _ => .bind (.tryCatch (built_drain hW 8) (.ret _)) fun _ => built_hlsWorkerEnd hW he

/-! ## The other threads -/

theorem built_snapshotTurn (ht : Built P X (takePicture legacy)) :
    Built P X (snapshotTurn legacy) :=
  .bind (.call (hW _ rfl)) fun _ => .ite (.bind (.call he) fun _ => .ret _) <|
    .bind
      (.tryCatch (.bind ht fun _ => .when _ (built_logged (.call (hW _ rfl)))) (.ret _))
      fun _ => .bind (.call (hW _ rfl)) fun _ => .ret _

theorem built_checkTurn (hj : P .streamThreadJoin) (hs : P (.exchange .emergencyStopHls false))
    (hr : Built P X (recoverCamera legacy))
    (hf : ∀ shouldStream, Built P X (followDecision shouldStream)) (m : StreamCheck.Memory) :
    Built P X (checkTurn legacy m) :=
  .bind (.call (hW _ rfl)) fun _ => .ite (.bind (.call he) fun _ => .ret _) <|
    .bind (built_serveRequests hW hj hs hr m) fun m => .bind (built_checkStream hW hf m) fun _ =>
      .bind (.when _ (built_checkSleep hW _)) fun _ => .ret _

theorem built_monitorTurn (hs : P (.store .emergencyStopHls true)) : Built P X monitorTurn := by
  have hcycle : Built P X Monitor.cycle :=
    .bind (.call (hW _ rfl)) fun _ => .bind (.call (hW _ rfl)) fun _ =>
      .bind (.when _ (.call hs)) fun _ => .when _ (.call hs)
  exact .bind (.call (hW _ rfl)) fun _ => .ite (.bind (.call he) fun _ => .ret _) <|
    .bind hcycle fun _ => .bind (.call (hW _ rfl)) fun _ => .ret _

variable (hd : Built P X (destroy legacy))

include hd

theorem built_mainInitTurn (hi : Built P X initializeCamera) (hs : ∀ t, P (.spawnWorker t))
    (retryDelay : Nat) : Built P X (mainInitTurn legacy retryDelay) := by
  refine .bind (.call (hW _ rfl)) fun _ =>
    .ite (.bind (.bind hi fun _ => .ret _) fun _ => ?_) (.bind (.ret _) fun _ => ?_) <;>
    exact .ite (.bind (.call (hW _ rfl)) fun _ => .ret _) <| .bind (.call (hW _ rfl)) fun _ =>
      .ite (.bind hd fun _ => .bind (.call he) fun _ => .ret _) <| .bind (.call (hs _)) fun _ =>
        .bind (.call (hs _)) fun _ => .bind (.call (hs _)) fun _ => .ret _

theorem built_mainWaitTurn (hj : P .streamThreadJoin) (hw : ∀ t, P (.joinWorker t)) :
    Built P X (mainWaitTurn legacy) :=
  .bind (.call (hW _ rfl)) fun _ => .ite (.bind (.call (hW _ rfl)) fun _ => .ret _) <|
    .bind (.call (hW _ rfl)) fun _ => .bind (.call (hw _)) fun _ => .bind (.call (hw _)) fun _ =>
      .bind (.call (hw _)) fun _ => .bind (built_stopHlsStreamSession hW hj) fun _ =>
        .bind hd fun _ => .bind (.call he) fun _ => .ret _

end

end

end App

end SurfCam
