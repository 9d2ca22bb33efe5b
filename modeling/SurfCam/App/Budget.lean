import SurfCam.App.Shutdown
import SurfCam.Logic.Meter
import SurfCam.Logic.Watch

/-!
# How long the shutdown takes

From the moment at which `keepRunning` is cleared, what every thread of the application sleeps,
waits for its picture and spends on its own requests is bounded: a thread that has seen the flag set
tests it again before it has spent its budget.
-/

namespace SurfCam

open Interaction Prog CameraManager Contract

namespace Budget

/-- The longest that a poll of the uploader and a request of `ApiClient` takes, in milliseconds. -/
structure Durations where
  pollAndUpload : Nat
  uploadSnapshot : Nat
  isStreamingRequested : Nat

/-- What a call takes at most, in milliseconds; locks and joins wait for another thread, and the
calls of libcamera and GStreamer are not counted. -/
def cost (d : Durations) : SysCall → Nat
  | .sleepFor milliseconds => milliseconds
  -- `wait_for` gives up after 5 s
  | .waitRelease => 5000
  | .pollAndUpload _ => d.pollAndUpload
  | .uploadSnapshot => d.uploadSnapshot
  | .isStreamingRequested => d.isStreamingRequested
  | _ => 0

/-- The thread has seen that the flag is set. -/
def sees : (c : SysCall) → c.Reply → Bool
  | .load .keepRunning, r => r
  | _, _ => false

/-- What a thread spends at most between two looks at the flag. -/
def budget (d : Durations) : Tid → Nat
  | .main => 60000
  | .snapshot => 35500 + d.uploadSnapshot
  | .check => max 180000 (65000 + d.isStreamingRequested)
  | .monitor => 30000
  | .hls _ => 2400 + 9 * d.pollAndUpload
  | .caller _ | .callback | .gst _ => 0

/-! ## The operations -/

section

variable {d : Durations} {legacy : Bool}

/-- The calls that take no time of their own. -/
abbrev Free (d : Durations) (c : SysCall) : Prop := cost d c = 0

theorem free_of_teardownCall (c : SysCall) (h : teardownCall c = true) : Free d c := by
  cases c <;> first | rfl | cases h

theorem free_of_shutdownCall (c : SysCall) (h : shutdownCall c = true) : Free d c := by
  cases c <;> first | rfl | cases h

theorem free_of_pipelineCall (c : SysCall) (h : pipelineCall c = true) : Free d c := by
  cases c <;> first | rfl | cases h

theorem free_of_videoCall (c : SysCall) (h : videoCall c = true) : Free d c := by
  cases c <;> first | rfl | cases h

theorem free_of_requestCall (c : SysCall) (h : requestCall c = true) : Free d c := by
  cases c <;> first | rfl | cases h

theorem free_of_acquireCall (c : SysCall) (h : acquireCall c = true) : Free d c := by
  cases c <;> first | rfl | cases h

theorem free_of_completionCall (c : SysCall) (h : completionCall c = true) : Free d c := by
  cases c <;> first | rfl | cases h

theorem free_of_gstCall (c : SysCall) (h : gstCall c = true) : Free d c := by
  cases c <;> first | rfl | cases h

theorem free_of_imageCall (c : SysCall) (h : imageCall c = true) : Free d c := by
  cases c <;> first | rfl | cases h

theorem built_shutdown_free : shutdownGstreamerPipeline.Built (Free d) noParts :=
  built_shutdownGstreamerPipeline free_of_shutdownCall rfl rfl

theorem built_stop_free : (stopVideoMode legacy).Built (Free d) noParts :=
  built_stopVideoMode free_of_teardownCall built_shutdown_free

theorem built_rollback_free : (rollbackUnlocked legacy).Built (Free d) noParts :=
  built_rollbackUnlocked free_of_teardownCall built_shutdown_free

theorem built_leave_free : (leaveVideoMode legacy).Built (Free d) noParts :=
  built_leaveVideoMode (fun c h => free_of_teardownCall c (teardownCall_of_stopCall h))
    (built_stopVideoModeUnlocked free_of_teardownCall built_shutdown_free)

theorem built_start_free (width height fps : Nat) :
    (startVideoMode legacy width height fps).Built (Free d) noParts :=
  built_startVideoMode free_of_teardownCall free_of_videoCall
    (built_initializeGstreamerPipeline free_of_pipelineCall built_shutdown_free
      (built_startPipeline free_of_pipelineCall built_shutdown_free rfl))
    built_shutdown_free
    (built_queueBuffer free_of_requestCall
      (built_keepRequest free_of_teardownCall free_of_requestCall) built_rollback_free)
    width height fps

/-- Code that takes no time. -/
theorem spends_of_free {α : Type} {p : Prog Sys α} (hp : p.Built (Free d) noParts) :
    p.Spends (cost d) 0 :=
  spends_of_built (fun _ h => h) (fun _ _ h => h.elim) hp

/-- A call that takes no time. -/
theorem spends_call {c : SysCall} (hc : Free d c) : (sys c).Spends (cost d) 0 :=
  spends_of_free (.call hc)

theorem spends_check (r : Outcome) : r.check.Spends (cost d) 0 := spends_of_free (built_check r)

theorem spends_awaitCompletion : awaitCompletion.Spends (cost d) 5000 := by
  have hstop : cameraStop.Spends (cost d) 0 :=
    (spends_call rfl).after fun _ => spends_call rfl
  have hwait : waitForCompletion.Spends (cost d) 5000 := by
    refine (spends_call rfl).after fun completed => .ite trivial ?_
    exact Spends.before (.call _) fun _ => spends_call rfl
  refine (spends_call rfl).after fun _ => Spends.scope ?_ (spends_call rfl)
  exact hwait.before fun arrived => .ite trivial (hstop.after fun _ => trivial)

theorem spends_capture {request : Nat} : (capture legacy request).Spends (cost d) 5500 := by
  have hstop : cameraStop.Spends (cost d) 0 :=
    (spends_call rfl).after fun _ => spends_call rfl
  refine (spends_call rfl).after fun _ => (spends_check _).after fun _ => .ite trivial ?_
  refine Spends.bind (m := 500) (n := 5000) (.call _) fun _ => ?_
  refine (spends_call rfl).after fun _ => (spends_check _).after fun _ => .ite ?_ ?_
  · exact hstop.after fun _ => trivial
  · exact spends_awaitCompletion.before fun arrived => .ite trivial
      (spends_of_free (built_saveImage free_of_imageCall))

theorem spends_photoRequest : (photoRequest legacy).Spends (cost d) 5500 := by
  have hcaptureWith : ∀ request, (captureWith legacy request).Spends (cost d) 5500 := by
    intro request
    refine (spends_call rfl).after fun r => ?_
    rcases r with _ | (_ | _)
    · trivial
    · trivial
    · refine (spends_call rfl).after fun _ => (spends_check _).after fun _ => .ite trivial ?_
      refine (spends_call rfl).after fun _ => (spends_call rfl).after fun _ => ?_
      exact (spends_of_free (built_orThrow _)).after fun _ =>
        spends_capture.scope (spends_call rfl)
  refine (spends_call rfl).after fun r => ?_
  cases r with
  | null => trivial
  | threw => trivial
  | request request => exact (hcaptureWith request).scope (spends_call rfl)

/-- A picture takes half a second before the request, and the wait for it. -/
theorem spends_takePicture : (takePicture legacy).Spends (cost d) 5500 := by
  have hconfigure : (configurePhoto legacy).Spends (cost d) 5500 := by
    refine (spends_call rfl).after fun r => ?_
    rcases r with _ | (_ | streams) | _
    · exact (spends_call rfl).after fun impossible => impossible.elim
    · exact (spends_call rfl).after fun impossible => impossible.elim
    · refine (spends_call rfl).after fun _ => (spends_check _).after fun _ => .ite trivial ?_
      refine (spends_call rfl).after fun _ => (spends_of_free (built_orThrow _)).after fun _ => ?_
      refine Spends.scope ?_ (spends_call rfl)
      exact (spends_call rfl).after fun _ => (spends_check _).after fun _ =>
        .ite trivial spends_photoRequest
    · trivial
  have hstop : (stopCameraIfRunning legacy).Built (Free d) noParts :=
    built_stopCameraIfRunning fun c h => free_of_teardownCall c (teardownCall_of_stopCall h)
  refine (spends_call rfl).after fun _ => Spends.scope ?_ (spends_call rfl)
  refine (spends_call rfl).after fun _ => .ite trivial ?_
  refine (spends_of_free (built_cameraReady rfl rfl)).after fun _ => .ite trivial ?_
  refine (spends_of_free built_leave_free).after fun _ => .ite trivial ?_
  exact hconfigure.handled (spends_of_free (.bind hstop fun _ => .ret _))

/-! ## The turns of the workers -/

variable {t : Tid}

/-- What thread `t` has spent since it last saw the flag set. -/
abbrev Clock (d : Durations) (t : Tid) : Local Sys Nat := meter (cost d) sees (budget d t)

/-- The turn leads to a next one within the budget. -/
def Within (B : Nat) (more : Bool) (v : Nat) : Prop := more = true → v ≤ B

/-- A look at the flag in front of the rest. -/
theorem wlp_look {α : Type} {f : Bool → Prog Sys α} {Q : α → Nat → Prop} {E : Nat → Prop}
    {v : Nat} (hv : v ≤ budget d t) (hset : (Clock d t).wlp (f true) Q E 0)
    (hcleared : (Clock d t).wlp (f false) Q E v) :
    (Clock d t).wlp (sys (.load .keepRunning) >>= f) Q E v := by
  refine ⟨meter_ok.mpr hv, fun r v' hs => ?_⟩
  have hv' := meter_step.mp hs
  cases r with
  | false =>
    rw [← hv']
    exact hcleared
  | true =>
    rw [← hv']
    exact hset

/-- Code that spends at most `n` takes the clock that far. -/
theorem wlp_spends {α : Type} (t : Tid) {p : Prog Sys α} {n v : Nat} (h : p.Spends (cost d) n)
    (hv : v + n ≤ budget d t) :
    (Clock d t).wlp p (fun _ v' => v' ≤ v + n) (fun v' => v' ≤ v + n) v :=
  wlp_of_spends h hv

/-- Code in front of the rest, where it does not matter how it ends by an exception. -/
theorem wlp_after {α β : Type} {p : Prog Sys α} {f : α → Prog Sys β} {Q : β → Nat → Prop}
    {n v : Nat} (h : p.Spends (cost d) n) (hv : v + n ≤ budget d t)
    (hf : ∀ a v', v' ≤ v + n → (Clock d t).wlp (f a) Q (fun _ => True) v') :
    (Clock d t).wlp (p >>= f) Q (fun _ => True) v :=
  wlp_spends_bind h hv (fun _ _ => trivial) hf

/-- The end of a thread. -/
theorem wlp_threadEnd {v : Nat} (hv : v ≤ budget d t) (B : Nat) :
    (Clock d t).wlp (sys .threadEnd >>= fun _ => .ret false) (Within B) (fun _ => True) v :=
  wlp_after (n := 0) (spends_call rfl) hv fun _ _ _ => nofun

theorem spends_sleep (milliseconds : Nat) :
    (sys (.sleepFor milliseconds)).Spends (cost d) milliseconds := .call _

theorem spends_logged {c : Prog Sys Outcome} {n : Nat} (hc : c.Spends (cost d) n) :
    (App.logged c).Spends (cost d) n :=
  hc.before fun r => (spends_check r).before fun _ => trivial

theorem wlp_monitorTurn {v : Nat} (hv : v ≤ 30000) :
    (Clock d .monitor).wlp App.monitorTurn (Within 30000) (fun _ => True) v := by
  have hcycle : Monitor.cycle.Spends (cost d) 0 :=
    (spends_call rfl).after fun _ => (spends_call rfl).after fun _ =>
      (Spends.when _ (spends_call rfl)).after fun _ => .when _ (spends_call rfl)
  refine wlp_look hv ?_ (wlp_threadEnd hv _)
  refine wlp_after hcycle (Nat.zero_le _) fun _ v hv => ?_
  refine wlp_after (spends_sleep 30000) (show v + 30000 ≤ 30000 by omega) fun _ v' hv' _ => ?_
  omega

theorem wlp_snapshotTurn {v : Nat} (hv : v ≤ budget d .snapshot) :
    (Clock d .snapshot).wlp (App.snapshotTurn legacy) (Within (budget d .snapshot))
      (fun _ => True) v := by
  have hpicture : Spends (cost d) (do
      Prog.when (← takePicture legacy) (App.logged (sys .uploadSnapshot)))
      (5500 + d.uploadSnapshot) :=
    spends_takePicture.bind fun taken => .when taken (spends_logged (.call _))
  have hbudget : budget d .snapshot = 35500 + d.uploadSnapshot := rfl
  refine wlp_look hv ?_ (wlp_threadEnd hv _)
  refine wlp_after (hpicture.handled trivial) (by omega) fun _ v hv => ?_
  refine wlp_after (spends_sleep 30000) (by omega) fun _ v' hv' _ => ?_
  show v' ≤ budget d .snapshot
  omega

/-! ### streamHlsWorker -/

theorem spends_drain (polls : Nat) :
    (App.drain polls).Spends (cost d) (polls * (d.pollAndUpload + 250)) := by
  induction polls with
  | zero => trivial
  | succ polls ih =>
    have hpoll : (App.logged (sys (.pollAndUpload true))).Spends (cost d) d.pollAndUpload :=
      spends_logged (.call _)
    have hturn := hpoll.bind fun _ => (spends_sleep (d := d) 250).bind fun _ => ih
    refine hturn.mono ?_
    rw [Nat.succ_mul]
    omega

theorem spends_hlsWorkerEnd : App.hlsWorkerEnd.Spends (cost d) 0 :=
  (spends_call rfl).after fun _ => spends_call rfl

theorem spends_hlsWorkerBegin : (App.hlsWorkerBegin legacy).Spends (cost d) 0 := by
  refine (spends_call rfl).after fun _ => (spends_call rfl).after fun r => ?_
  have hend : (App.hlsWorkerEnd >>= fun _ => .ret false : Prog Sys Bool).Spends (cost d) 0 :=
    spends_hlsWorkerEnd.after fun _ => trivial
  cases r with
  | ok =>
    refine (spends_of_free (built_start_free _ _ _)).after fun on => .ite ?_ trivial
    exact (spends_call rfl).after fun _ => hend
  | failed => exact hend
  | threw => exact hend

theorem spends_hlsWorkerFinish :
    (App.hlsWorkerFinish legacy).Spends (cost d) (8 * (d.pollAndUpload + 250)) :=
  (spends_of_free built_stop_free).after fun _ =>
    (Spends.handled (h := .ret ()) (spends_drain 8) trivial).before fun _ => spends_hlsWorkerEnd

/-- Between two looks at the flag there is one poll. -/
theorem wlp_hlsLoopTurn {n v : Nat} (hv : v ≤ 400 + d.pollAndUpload) :
    (Clock d (.hls n)).wlp App.hlsLoopTurn (fun _ v => v ≤ 400 + d.pollAndUpload)
      (fun _ => True) v := by
  have hbudget : budget d (.hls n) = 2400 + 9 * d.pollAndUpload := rfl
  have hcondition : (Clock d (.hls n)).wlp App.hlsLoopCondition
      (fun more v => v ≤ if more then 0 else 400 + d.pollAndUpload) (fun _ => True) v := by
    refine wlp_after (spends_call rfl) (by omega) fun streamShouldRun v hv => ?_
    cases streamShouldRun with
    | false =>
      show v ≤ 400 + d.pollAndUpload
      omega
    | true =>
      refine wlp_look (by omega) ?_ (show v ≤ 400 + d.pollAndUpload by omega)
      refine wlp_after (spends_call rfl) (by omega) fun emergencyStopHls v hv => ?_
      show v ≤ if !emergencyStopHls then 0 else 400 + d.pollAndUpload
      split <;> omega
  refine Local.wlp_bind_of hcondition fun more v hv => ?_
  cases more with
  | false => exact hv
  | true =>
    have hv : v ≤ 0 := hv
    refine wlp_after (spends_call rfl) (by omega) fun failed v hv => ?_
    cases failed with
    | true =>
      show v ≤ 400 + d.pollAndUpload
      omega
    | false =>
      have hpoll : Spends (cost d) (do
          App.logged (sys (.pollAndUpload false))
          sys (.sleepFor Config.HLS_UPLOAD_POLL)
          return true) (d.pollAndUpload + 400) :=
        (spends_logged (.call _)).bind fun _ => (spends_sleep 400).before fun _ => trivial
      have hturn := wlp_spends (.hls n) (v := v)
        (hpoll.handled (h := .ret false) trivial) (by omega)
      exact Local.wlp_mono hturn (fun _ _ h => by omega) fun _ _ => trivial

/-! ### streamCheckWorker -/

theorem spends_stopHlsStreamSession : App.stopHlsStreamSession.Spends (cost d) 0 :=
  (spends_call rfl).after fun _ => (spends_call rfl).after fun _ => .when _ (spends_call rfl)

theorem built_reinit_free : (reinitializeCamera legacy).Built (Free d) noParts :=
  built_reinitializeCamera free_of_acquireCall free_of_teardownCall built_shutdown_free fun _ => rfl

theorem spends_serveRequests (m : StreamCheck.Memory) :
    (App.serveRequests legacy m).Spends (cost d) 60000 := by
  have hreap : App.reapFinishedHlsWorker.Spends (cost d) 0 :=
    (spends_call rfl).after fun _ => .ite trivial <|
      (spends_call rfl).after fun _ => .when _ (spends_call rfl)
  have hrecover : (App.recoverCamera legacy).Spends (cost d) 60000 := by
    refine (spends_call rfl).after fun _ => .ite trivial ?_
    refine (spends_call rfl).after fun _ => .when _ ?_
    refine spends_stopHlsStreamSession.after fun _ => ?_
    exact (spends_of_free built_reinit_free).after fun _ => .when _ (spends_sleep 60000)
  refine hreap.after fun _ => (spends_call rfl).after fun emergency => ?_
  refine (Spends.when emergency spends_stopHlsStreamSession).after fun _ => ?_
  exact hrecover.before fun _ => trivial

theorem spends_checkStream (m : StreamCheck.Memory) :
    (App.checkStream m).Spends (cost d) d.isStreamingRequested := by
  have hfollow : ∀ shouldStream, (App.followDecision shouldStream).Spends (cost d) 0 := by
    intro shouldStream
    refine (spends_call rfl).after fun _ => .ite trivial ?_
    refine (spends_call rfl).after fun joinable => .ite ?_ ?_
    · exact (spends_call rfl).after fun _ => (spends_call rfl).after fun _ => trivial
    · exact (Spends.when _ spends_stopHlsStreamSession).after fun _ => trivial
  refine Spends.before (.call _) fun r => ?_
  cases r with
  | none => trivial
  | some streamState =>
    refine (spends_call rfl).after fun _ => .ite trivial ?_
    exact (spends_call rfl).after fun _ => (hfollow _).after fun _ => .ite trivial trivial

theorem wlp_checkTurn {m : StreamCheck.Memory} {v : Nat} (hv : v ≤ budget d .check) :
    (Clock d .check).wlp (App.checkTurn legacy m)
      (fun next v => next.isSome → v ≤ budget d .check) (fun _ => True) v := by
  have hbudget : budget d .check = max 180000 (65000 + d.isStreamingRequested) := rfl
  refine wlp_look hv ?_ (wlp_after (spends_call rfl) hv fun _ _ _ => nofun)
  refine wlp_after (spends_serveRequests m) (by omega) fun m v hv => ?_
  refine wlp_after (spends_checkStream m) (by omega) fun r v hv => ?_
  obtain ⟨m, goesOn⟩ := r
  have hsleep : (Clock d .check).wlp (Prog.when goesOn (App.checkSleep m.apiFailureStreak))
      (fun _ v => v ≤ budget d .check) (fun _ => True) v := by
    cases goesOn with
    | false =>
      show v ≤ budget d .check
      omega
    | true =>
      refine wlp_after (spends_sleep 5000) (by omega) fun _ v hv => ?_
      by_cases hstreak : m.apiFailureStreak ≤ 5
      · rw [if_pos hstreak]
        show v ≤ budget d .check
        omega
      · rw [if_neg hstreak]
        refine wlp_look (by omega) ?_ (show v ≤ budget d .check by omega)
        have hback := wlp_spends .check (v := 0)
          (spends_sleep (d := d) (1000 * min 180 ((m.apiFailureStreak - 5) * 20))) (by omega)
        exact Local.wlp_mono hback (fun _ _ h => by omega) fun _ _ => trivial
  exact Local.wlp_bind_of hsleep fun _ v hv _ => hv

/-! ### main -/

theorem built_destroy_free : (destroy legacy).Built (Free d) noParts :=
  built_destroy free_of_acquireCall free_of_teardownCall built_shutdown_free

theorem wlp_mainWaitTurn {v : Nat} (hv : v ≤ 60000) :
    (Clock d .main).wlp (App.mainWaitTurn legacy) (Within 60000) (fun _ => True) v := by
  have hbudget : budget d .main = 60000 := rfl
  refine wlp_look hv ?_ ?_
  · refine wlp_after (spends_sleep 1000) (by omega) fun _ v hv _ => ?_
    omega
  · refine wlp_after (spends_call rfl) (by omega) fun _ v hv => ?_
    refine wlp_after (spends_call rfl) (by omega) fun _ v hv => ?_
    refine wlp_after (spends_call rfl) (by omega) fun _ v hv => ?_
    refine wlp_after (spends_call rfl) (by omega) fun _ v hv => ?_
    refine wlp_after spends_stopHlsStreamSession (by omega) fun _ v hv => ?_
    refine wlp_after (spends_of_free built_destroy_free) (by omega) fun _ v hv => ?_
    exact wlp_threadEnd (by omega) _

theorem spends_initializeCamera : initializeCamera.Spends (cost d) 0 :=
  spends_of_free (built_initializeCamera free_of_acquireCall rfl rfl rfl)

/-- The wait before the next attempt has been doubled up to a minute at most. -/
theorem wlp_mainInitTurn {retryDelay v : Nat} (hr : retryDelay ≤ 60) (hv : v ≤ 60000) :
    (Clock d .main).wlp (App.mainInitTurn legacy retryDelay) (fun _ v => v ≤ 60000)
      (fun _ => True) v := by
  have hbudget : budget d .main = 60000 := rfl
  have hrest : ∀ v ≤ 60000, (Clock d .main).wlp (do
      if !(← sys (.load .keepRunning)) then
        CameraManager.destroy legacy
        sys .threadEnd
        return some false
      sys (.spawnWorker .snapshotThread)
      sys (.spawnWorker .checkStreamThread)
      sys (.spawnWorker .monitorThread)
      return some true) (fun _ v => v ≤ 60000) (fun _ => True) v := by
    intro v hv
    refine wlp_look hv ?_ ?_
    · refine wlp_after (spends_call rfl) (by omega) fun _ v hv => ?_
      refine wlp_after (spends_call rfl) (by omega) fun _ v hv => ?_
      refine wlp_after (spends_call rfl) (by omega) fun _ v hv => ?_
      show v ≤ 60000
      omega
    · refine wlp_after (spends_of_free built_destroy_free) (by omega) fun _ v hv => ?_
      refine wlp_after (spends_call rfl) (by omega) fun _ v hv => ?_
      show v ≤ 60000
      omega
  refine wlp_look hv ?_ (hrest v hv)
  refine wlp_after (spends_initializeCamera.before fun _ => trivial) (by omega) fun retry v hv => ?_
  cases retry with
  | false => exact hrest v (by omega)
  | true =>
    refine wlp_after (spends_sleep (1000 * retryDelay)) (by omega) fun _ v hv => ?_
    show v ≤ 60000
    omega

/-! ### All turns -/

/-- What a thread has spent at most at a control point. -/
def holds (d : Durations) : (t : Tid) → t.Pc → Nat → Prop
  | .main, .init retryDelay, v => retryDelay ≤ 60 ∧ v ≤ 60000
  | .main, .wait, v => v ≤ 60000
  | .hls _, .begin, v => v = 0
  | .hls _, .loop, v => v ≤ 400 + d.pollAndUpload
  | .caller _, _, _ => False
  | t, _, v => v ≤ budget d t

/-- A turn in front of the next control point. -/
theorem wlp_loopWhile {α : Type} {next : α} {turn : Prog Sys Bool} {A : Bool → Nat → Prop}
    {H : α → Nat → Prop} {v : Nat} (h : (Clock d t).wlp turn A (fun _ => True) v)
    (hA : ∀ v, A true v → H next v) :
    (Clock d t).wlp (loopWhile next turn) (fun next v => ∀ pc, next = some pc → H pc v)
      (fun _ => True) v := by
  refine Local.wlp_bind_of h fun more v hmore pc hpc => ?_
  cases more with
  | false => cases hpc
  | true =>
    cases hpc
    exact hA v hmore

theorem wlp_workerBody {turn : Prog Sys Bool} {H : LoopPc → Nat → Prop}
    (hbegin : ∀ v, H .begin v → v ≤ budget d t)
    (hnext : ∀ v v', H .begin v → v' ≤ v → H .loop v')
    (hturn : ∀ v, H .loop v →
      (Clock d t).wlp turn (fun more v => more = true → H .loop v) (fun _ => True) v)
    {pc : LoopPc} {v : Nat} (h : H pc v) :
    (Clock d t).wlp (workerBody turn pc) (fun next v => ∀ pc, next = some pc → H pc v)
      (fun _ => True) v := by
  cases pc with
  | begin =>
    refine wlp_after (spends_call rfl) (hbegin v h) fun _ v' hv pc hpc => ?_
    cases hpc
    exact hnext v v' h hv
  | loop => exact wlp_loopWhile (hturn v h) fun v hv => hv rfl

/-- No turn of a thread takes it beyond its budget. -/
theorem wlp_body {pc : t.Pc} {v : Nat} (h : holds d t pc v) :
    (Clock d t).wlp ((code legacy).body t pc)
      (fun next v => ∀ pc, next = some pc → holds d t pc v) (fun _ => True) v := by
  cases t with
  | main =>
    cases pc with
    | init retryDelay =>
      refine Local.wlp_bind_of (wlp_mainInitTurn h.1 h.2) fun r v hv => ?_
      rcases r with _ | (_ | _)
      · intro pc hpc
        cases hpc
        exact ⟨Nat.min_le_right _ _, hv⟩
      · intro pc hpc
        cases hpc
      · intro pc hpc
        cases hpc
        exact hv
    | wait => exact wlp_loopWhile (wlp_mainWaitTurn h) fun v hv => hv rfl
  | snapshot =>
    exact wlp_workerBody (H := holds d .snapshot) (fun _ h => h) (fun _ _ h hv => hv.trans h)
      (fun _ h => wlp_snapshotTurn h) h
  | monitor =>
    exact wlp_workerBody (H := holds d .monitor) (fun _ h => h) (fun _ _ h hv => hv.trans h)
      (fun _ h => wlp_monitorTurn h) h
  | check =>
    cases pc with
    | begin =>
      refine wlp_after (spends_call rfl) h fun _ v' hv pc hpc => ?_
      cases hpc
      exact hv.trans h
    | loop m =>
      refine Local.wlp_bind_of (wlp_checkTurn h) fun next v hv => ?_
      cases next with
      | none =>
        intro pc hpc
        cases hpc
      | some m =>
        intro pc hpc
        cases hpc
        exact hv rfl
  | hls n =>
    have hbudget : budget d (.hls n) = 2400 + 9 * d.pollAndUpload := rfl
    cases pc with
    | begin =>
      have hv : v = 0 := h
      have hbegin := wlp_spends (.hls n) (v := v)
        (@spends_hlsWorkerBegin d legacy) (by omega)
      refine wlp_loopWhile (Local.wlp_mono hbegin (fun _ _ h => h) fun _ _ => trivial)
        fun v' hv' => ?_
      show v' ≤ 400 + d.pollAndUpload
      omega
    | loop =>
      refine Local.wlp_bind_of (wlp_hlsLoopTurn h) fun more v hv => ?_
      cases more with
      | true =>
        intro pc hpc
        cases hpc
        exact hv
      | false =>
        refine wlp_after spends_hlsWorkerFinish (by omega) fun _ v _ pc hpc => ?_
        cases hpc
  | caller n => exact h.elim
  | callback =>
    have hbody := spends_of_free (d := d) (built_callbackBody legacy free_of_completionCall)
    refine Local.wlp_mono (wlp_of_spends hbody h) (fun _ v hv pc _ => ?_) fun _ _ => trivial
    exact hv.trans h
  | gst n =>
    have hbody := spends_of_free (d := d) (built_gstBody pc free_of_gstCall)
    refine Local.wlp_mono (wlp_of_spends hbody h) (fun _ v hv pc _ => ?_) fun _ _ => trivial
    exact hv.trans h

end

/-! ## Among the others -/

/-- The two readings of a thread: what it has spent since it last saw the flag set, and what it has
spent since the flag was cleared. -/
structure Reading where
  since : Nat := 0
  spent : Nat := 0

def readAfter (d : Durations) (w : World) (c : SysCall) (r : c.Reply) (m : Reading) : Reading where
  since := if sees c r then 0 else m.since + cost d c
  spent := if w.flag .keepRunning then m.spent else m.spent + cost d c

def see (d : Durations) (w : World) : Label Sys Tid Signal → (Tid → Reading) → Tid → Reading
  | .act t c r, m => Function.update m t (readAfter d w c r (m t))
  | _, m => m

/-- Nobody has spent anything after the signal that it has not spent since its last look, nor more
than its budget. -/
structure Bounded (d : Durations) (x : World × (Tid → Reading)) : Prop where
  since : ∀ t, (x.2 t).since ≤ budget d t
  spent : ∀ t, (x.2 t).spent ≤ (x.2 t).since
  before : x.1.flag .keepRunning = true → ∀ t, (x.2 t).spent = 0

/-- The steps that do not write the flag. -/
def keeps {O : Type} (_ : World × O) (l : Label Sys Tid Signal) : Prop :=
  ∀ t c r, l = .act t c r → c ∉ Shutdown.writers

section

variable {d : Durations} {t u : Tid} {c : SysCall} {r : c.Reply} {x : World × (Tid → Reading)}

theorem bounded_after (hx : Bounded d x) (hc : c ∉ Shutdown.writers)
    (hpre : (x.2 t).since + cost d c ≤ budget d t) (ha : x.1.answers t c r = true) :
    Bounded d (x.1.after t c r, see d x.1 (.act t c r) x.2) := by
  -- only the readings of `t` change
  have hother : ∀ u, u ≠ t → see d x.1 (.act t c r) x.2 u = x.2 u := fun u hu =>
    Function.update_of_ne hu _ _
  have hself : see d x.1 (.act t c r) x.2 t = readAfter d x.1 c r (x.2 t) :=
    Function.update_self ..
  have hspent := hx.spent t
  refine ⟨fun u => ?_, fun u => ?_, fun hset u => ?_⟩
  · show (see d x.1 (.act t c r) x.2 u).since ≤ budget d u
    by_cases hu : u = t
    · rw [hu, hself]
      show (if sees c r then 0 else (x.2 t).since + cost d c) ≤ budget d t
      split <;> omega
    · rw [hother u hu]
      exact hx.since u
  · show (see d x.1 (.act t c r) x.2 u).spent ≤ (see d x.1 (.act t c r) x.2 u).since
    by_cases hu : u = t
    · rw [hu, hself]
      show (if x.1.flag .keepRunning then (x.2 t).spent else (x.2 t).spent + cost d c) ≤
        if sees c r then 0 else (x.2 t).since + cost d c
      cases hset : x.1.flag .keepRunning with
      | true =>
        rw [if_pos rfl, hx.before hset t]
        exact Nat.zero_le _
      | false =>
        -- a cleared flag is not seen to be set
        have hsees : sees c r = false := by
          unfold sees
          split
          · have hreply := of_decide_eq_true (World.shared_of_answers ha)
            rw [hreply, hset]
          · rfl
        rw [hsees, if_neg Bool.false_ne_true, if_neg Bool.false_ne_true]
        omega
    · rw [hother u hu]
      exact hx.spent u
  · show (see d x.1 (.act t c r) x.2 u).spent = 0
    rw [Shutdown.flag_kept hc] at hset
    by_cases hu : u = t
    · rw [hu, hself]
      show (if x.1.flag .keepRunning then (x.2 t).spent else (x.2 t).spent + cost d c) = 0
      rw [if_pos hset, hx.before hset t]
    · rw [hother u hu]
      exact hx.before hset u

end

def contract (d : Durations) : Contract (system.watched (see d)) keeps where
  inv := Bounded d
  pre t c x := (x.2 t).since + cost d c ≤ budget d t
  rely t x x' := (x'.2 t).since = (x.2 t).since
  rely_refl _ _ := rfl
  rely_trans h h' := h'.trans h
  inv_act hi hpre hok hact := by
    obtain ⟨ha, rfl⟩ := watched_system_act.mp hact
    exact bounded_after hi (hok _ _ _ rfl) hpre ha
  inv_env hi _ henv := by
    obtain ⟨w, hw, rfl⟩ := watched_env.mp henv
    cases hw
    exact ⟨hi.since, hi.spent, nofun⟩
  rely_act hne _ _ _ hact := by
    obtain ⟨-, rfl⟩ := watched_system_act.mp hact
    simp only [see, Function.update_of_ne hne]
  rely_env _ _ henv := by
    obtain ⟨w, hw, rfl⟩ := watched_env.mp henv
    rfl

/-- A thread reads its own clock. -/
def view (d : Durations) (t : Tid) : View (contract d) t (Clock d t) where
  own _ := True
  view x := (x.2 t).since
  rely _ hr _ := ⟨trivial, hr⟩
  pre _ _ h := h
  step _ _ _ _ hact := by
    obtain ⟨-, rfl⟩ := watched_system_act.mp hact
    refine ⟨trivial, meter_step.mpr ?_⟩
    simp only [see, Function.update_self, readAfter]

def proof (d : Durations) (legacy : Bool) : (contract d).Proof (code legacy) where
  holds t pc x := holds d t pc (x.2 t).since
  body t pc x _ h := by
    exact wp_mono ((view d t).wp trivial (wlp_body h)) (fun _ _ _ h => h.2) fun _ _ _ => trivial

theorem valid_start (d : Durations) (legacy : Bool) :
    (proof d legacy).Valid ((appStart legacy).watch fun _ => {}) := by
  -- no clock has run yet
  have hzero : ∀ (t : Tid) (x : World × (Tid → Reading)),
      (contract d).rely t (World.init, fun _ => {}) x → (x.2 t).since = 0 := fun t x hr => hr
  apply valid_appStart
  · exact ⟨fun t => Nat.zero_le _, fun t => Nat.le_refl _, fun _ t => rfl⟩
  · intro x hr _
    refine ⟨by decide, ?_⟩
    rw [hzero .main x hr]
    exact Nat.zero_le _
  · intro x hr _
    exact Nat.le_of_eq (hzero .snapshot x hr) |>.trans (Nat.zero_le _)
  · intro x hr _
    exact Nat.le_of_eq (hzero .check x hr) |>.trans (Nat.zero_le _)
  · intro x hr _
    exact Nat.le_of_eq (hzero .monitor x hr) |>.trans (Nat.zero_le _)
  · intro n x hr _
    exact hzero (.hls n) x hr
  · intro x hr _
    exact Nat.le_of_eq (hzero .callback x hr)
  · intro n x hr _
    exact Nat.le_of_eq (hzero (.gst n) x hr)

end Budget

/-- After `keepRunning` has been cleared, no thread of the application spends more than its budget on
sleeps, on the wait for its picture and on its own requests: `main` 60 s, `monitorSystemResources`
30 s, `snapshotWorker` 35.5 s and an upload, `streamCheckWorker` 180 s or 65 s and a request, an HLS
worker 2.4 s and nine polls. -/
theorem App.shutdown_time {legacy : Bool} (d : Budget.Durations)
    {cfg : Config (code legacy) (World × (Tid → Budget.Reading))}
    (hrun : Run (system.watched (Budget.see d)) anyStep ((appStart legacy).watch fun _ => {}) cfg)
    (t : Tid) : (cfg.world.2 t).spent ≤ Budget.budget d t := by
  have hstart := Shutdown.valid_start (system.watched (Budget.see d)) legacy
    (World.init, fun _ => {})
  have hquiet := (Shutdown.proof _ legacy).run_pre hstart (fun _ _ h => h) hrun
  have hkeeps : Run (system.watched (Budget.see d)) Budget.keeps _ cfg :=
    hquiet.mono fun _ _ h => h.2
  have hvalid := (Budget.proof d legacy).sound (Budget.valid_start d legacy) hkeeps
  exact (hvalid.inv.spent t).trans (hvalid.inv.since t)

/-- The signal comes right before the monitor goes to sleep. -/
def Budget.lateSignal : List (Choice Sys Tid (World × (Tid → Budget.Reading)) Signal) :=
  let pick x c := World.willing .takePicture x.1 c
  runsWith pick .main 18 ++ runsWith pick .monitor 6 ++ [.env .terminate] ++
    runsWith pick .monitor 1

/-- It sleeps as long as its budget allows. -/
theorem App.shutdown_time_monitor :
    ∃ cfg : Config (code false) (World × (Tid → Budget.Reading)),
      (cfg.world.2 .monitor).spent = 30000 ∧
        ∀ t, (cfg.world.2 t).spent ≤ Budget.budget ⟨3000, 20000, 10000⟩ t := by
  obtain ⟨cfg, hrun, htest⟩ := exec_reaches (system.watched (Budget.see ⟨3000, 20000, 10000⟩))
    (fun _ _ => true) ((appStart false).watch fun _ => {}) Budget.lateSignal
    (fun cfg => (cfg.world.2 .monitor).spent = 30000) (by decide +kernel)
  exact ⟨cfg, of_decide_eq_true htest, App.shutdown_time _ (hrun.mono fun _ _ _ => trivial)⟩

end SurfCam
