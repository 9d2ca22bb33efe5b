import SurfCam.App.Footprint
import SurfCam.Camera.World
import SurfCam.Logic.RelyGuarantee

/-!
# The threads and their code

Which thread runs which code, from loop head to loop head, and the two ways in which the system is
set up: the application as `main` starts it, and one caller of a `CameraManager` on its own.
-/

namespace SurfCam

open Interaction

/-- The control points of a thread that begins and then goes round a loop. -/
inductive LoopPc where
  | begin
  | loop
  deriving DecidableEq

inductive MainPc where
  | init (retryDelay : Nat)
  | wait
  deriving DecidableEq

inductive CheckPc where
  | begin
  | loop (m : StreamCheck.Memory)
  deriving DecidableEq

/-- The control points of each thread.  A caller remembers whether `initialize` has succeeded. -/
@[reducible] def Tid.Pc : Tid → Type
  | main => MainPc
  | snapshot | monitor | hls _ | gst _ => LoopPc
  | check => CheckPc
  | caller _ => Bool
  | callback => Unit

/-- The next control point after a turn that says whether there is one. -/
def loopWhile {α : Type} (next : α) (turn : Prog Sys Bool) : Prog Sys (Option α) := do
  return if ← turn then some next else none

section

variable (legacy : Bool)

def mainBody : MainPc → Prog Sys (Option MainPc)
  | .init retryDelay => do
    match ← App.mainInitTurn legacy retryDelay with
    | none => return some (.init (min (retryDelay * 2) 60))
    | some true => return some .wait
    | some false => return none
  | .wait => loopWhile .wait (App.mainWaitTurn legacy)

/-- The body of a worker that begins, and then takes turns while they say so. -/
def workerBody (turn : Prog Sys Bool) : LoopPc → Prog Sys (Option LoopPc)
  | .begin => do
    sys .threadBegin
    return some .loop
  | .loop => loopWhile .loop turn

def hlsBody : LoopPc → Prog Sys (Option LoopPc)
  | .begin => loopWhile .loop (App.hlsWorkerBegin legacy)
  | .loop => do
    if ← App.hlsLoopTurn then return some .loop
    App.hlsWorkerFinish legacy
    return none

def checkBody : CheckPc → Prog Sys (Option CheckPc)
  | .begin => do
    sys .threadBegin
    return some (.loop {})
  | .loop m => do
    match ← App.checkTurn legacy m with
    | none => return none
    | some m => return some (.loop m)

section

variable {P : SysCall → Prop} {X : ∀ α : Type, Prog Sys α → Prop}

theorem built_loopWhile {α : Type} {next : α} {turn : Prog Sys Bool} (h : turn.Built P X) :
    (loopWhile next turn).Built P X :=
  .bind h fun _ => .ret _

theorem built_mainBody (hinit : ∀ retryDelay, (App.mainInitTurn legacy retryDelay).Built P X)
    (hwait : (App.mainWaitTurn legacy).Built P X) (pc : MainPc) : (mainBody legacy pc).Built P X := by
  cases pc with
  | init retryDelay =>
    refine .bind (hinit retryDelay) fun r => ?_
    rcases r with _ | (_ | _) <;> exact .ret _
  | wait => exact built_loopWhile hwait

theorem built_workerBody {turn : Prog Sys Bool} (hbegin : P .threadBegin) (hturn : turn.Built P X)
    (pc : LoopPc) : (workerBody turn pc).Built P X := by
  cases pc with
  | begin => exact .bind (.call hbegin) fun _ => .ret _
  | loop => exact built_loopWhile hturn

theorem built_hlsBody (hbegin : (App.hlsWorkerBegin legacy).Built P X)
    (hloop : App.hlsLoopTurn.Built P X) (hfinish : (App.hlsWorkerFinish legacy).Built P X)
    (pc : LoopPc) : (hlsBody legacy pc).Built P X := by
  cases pc with
  | begin => exact built_loopWhile hbegin
  | loop => exact .bind hloop fun _ => .ite (.ret _) (.bind hfinish fun _ => .ret _)

theorem built_checkBody (hbegin : P .threadBegin) (hturn : ∀ m, (App.checkTurn legacy m).Built P X)
    (pc : CheckPc) : (checkBody legacy pc).Built P X := by
  cases pc with
  | begin => exact .bind (.call hbegin) fun _ => .ret _
  | loop m =>
    refine .bind (hturn m) fun r => ?_
    cases r <;> exact .ret _

end

/-- A caller calls the operations in any order, `initialize` only until it has succeeded. -/
def callerBody (initialized : Bool) : Prog Sys (Option Bool) := do
  let op ← sys .nextOperation
  if initialized && op = .initializeCamera then return some initialized
  let result ← CameraManager.operate legacy op
  return some (initialized || (op = .initializeCamera && result))

/-- Whatever the operations are built of, a caller is, and of its choices. -/
theorem built_callerBody {P : SysCall → Prop} {X : ∀ α : Type, Prog Sys α → Prop}
    (hnext : P .nextOperation) (hop : ∀ op, (CameraManager.operate legacy op).Built P X)
    (initialized : Bool) : (callerBody legacy initialized).Built P X :=
  .bind (.call hnext) fun op => .ite (.ret _) (.bind (hop op) fun _ => .ret _)

def gstBody : LoopPc → Prog Sys (Option LoopPc)
  | .begin => do
    CameraManager.gstThreadBegin
    return some .loop
  | .loop => loopWhile .loop CameraManager.gstThreadTurn

theorem built_gstBody {P : SysCall → Prop} {X : ∀ α : Type, Prog Sys α → Prop} (pc : LoopPc)
    (hP : ∀ c, CameraManager.gstCall c = true → P c) : (gstBody pc).Built P X := by
  cases pc with
  | begin => exact .bind (CameraManager.built_gstThreadBegin hP) fun _ => .ret _
  | loop =>
    have hturn : ∀ c, CameraManager.turnCall c = true → P c :=
      fun c h => hP c (by simp [CameraManager.gstCall, h])
    exact .bind (CameraManager.built_gstThreadTurn hturn) fun _ => .ret _

/-- libcamera completes one request after the other. -/
def callbackBody : Prog Sys (Option Unit) := do
  CameraManager.completionTurn legacy
  return some ()

theorem built_callbackBody {P : SysCall → Prop} {X : ∀ α : Type, Prog Sys α → Prop}
    (hP : ∀ c, CameraManager.completionCall c = true → P c) : (callbackBody legacy).Built P X :=
  .bind (CameraManager.built_completionTurn hP) fun _ => .ret _

/-- The code of all threads. -/
def code : Code Sys Tid where
  Pc := Tid.Pc
  body
    | .main => mainBody legacy
    | .snapshot => workerBody (App.snapshotTurn legacy)
    | .check => checkBody legacy
    | .monitor => workerBody App.monitorTurn
    | .hls _ => hlsBody legacy
    | .caller _ => callerBody legacy
    | .callback => fun _ => callbackBody legacy
    | .gst _ => gstBody

end

/-- The calls with which a thread of the application starts, joins and ends threads, and those with
which it asks for an emergency stop and serves it. -/
def threadCall (t : Tid) : SysCall → Bool
  | .spawnWorker _ | .joinWorker _ => t = .main
  | .spawnStreamThread => t = .check
  | .store f value => f = .emergencyStopHls ∧ value ∧ t = .monitor
  | .exchange f value => f = .emergencyStopHls ∧ !value ∧ t = .check
  | .streamThreadJoin => t = .main ∨ t = .check
  | .threadBegin | .threadEnd => true
  | _ => false

/-- The flag that such a call writes. -/
theorem store_of_threadCall {t : Tid} {f : Flag} {value : Bool}
    (h : threadCall t (.store f value) = true) : f = .emergencyStopHls := (of_decide_eq_true h).1

theorem exchange_of_threadCall {t : Tid} {f : Flag} {value : Bool}
    (h : threadCall t (.exchange f value) = true) : f = .emergencyStopHls := (of_decide_eq_true h).1

/-- Whatever the calls and the operations of a thread of the application are built of, its code
is. -/
theorem built_appBody {legacy : Bool} {P : SysCall → Prop} {X : ∀ α : Type, Prog Sys α → Prop}
    {t : Tid} (hW : ∀ c, App.workerCall c = true → P c) (hT : ∀ c, threadCall t c = true → P c)
    (hmain : t = .main → CameraManager.initializeCamera.Built P X ∧
      (CameraManager.destroy legacy).Built P X)
    (hsnapshot : t = .snapshot → (CameraManager.takePicture legacy).Built P X)
    (hcheck : t = .check → P (.store .streamShouldRun true) ∧
      (App.recoverCamera legacy).Built P X)
    (hhls : ∀ n, t = .hls n → P (.exchange .gstPipelineError_ false) ∧ P (.pollAndUpload false) ∧
      (App.hlsWorkerBegin legacy).Built P X ∧ (CameraManager.stopVideoMode legacy).Built P X)
    (hcallback : t = .callback → ∀ c, CameraManager.completionCall c = true → P c)
    (hgst : ∀ n, t = .gst n → ∀ c, CameraManager.gstCall c = true → P c)
    (hcaller : ∀ n, t ≠ .caller n) (pc : t.Pc) : ((code legacy).body t pc).Built P X := by
  cases t with
  | main =>
    rcases hmain rfl with ⟨hinit, hdestroy⟩
    exact built_mainBody legacy
      (App.built_mainInitTurn hW (hT _ rfl) hdestroy hinit fun _ => hT _ rfl)
      (App.built_mainWaitTurn hW (hT _ rfl) hdestroy (hT _ rfl) fun _ => hT _ rfl) pc
  | snapshot =>
    exact built_workerBody (hT _ rfl) (App.built_snapshotTurn hW (hT _ rfl) (hsnapshot rfl)) pc
  | check =>
    rcases hcheck rfl with ⟨hon, hrecover⟩
    exact built_checkBody legacy (hT _ rfl) (App.built_checkTurn hW (hT _ rfl) (hT _ rfl)
      (hT _ rfl) hrecover (App.built_followDecision hW (hT _ rfl) hon (hT _ rfl))) pc
  | monitor => exact built_workerBody (hT _ rfl) (App.built_monitorTurn hW (hT _ rfl) (hT _ rfl)) pc
  | hls n =>
    rcases hhls n rfl with ⟨hconsume, hpoll, hbegin, hstop⟩
    exact built_hlsBody legacy hbegin (App.built_hlsLoopTurn hW hconsume hpoll)
      (App.built_hlsWorkerFinish hW (hT _ rfl) hstop) pc
  | caller n => exact absurd rfl (hcaller n)
  | callback => exact built_callbackBody legacy (hcallback rfl)
  | gst n => exact built_gstBody pc (hgst n rfl)

/-! ## The start -/

def Device.init : Device where
  running := false
  stopping := false
  connected _ := false
  nextRequest := 0
  attached _ := false
  queued := []
  delivering := none
  pending := []
  session := []
  delivered := 0

def Glib.init : Glib where
  loops := 0
  gstThread_ := none
  entered _ := false
  running _ := false
  left _ := false

def Threads.init : Threads where
  started _ := false
  finished _ := false
  hlsWorkers := 0
  streamThread := none

/-- The members as constructed and the globals as initialized. -/
def World.init : World where
  owner _ := none
  flag f := f = .keepRunning
  ptr _ := false
  device := .init
  glib := .init
  threads := .init

/-- The threads that libcamera and GLib provide are there from the start; those of the main loops
wait to be started. -/
def backgroundStart (legacy : Bool) : (t : Tid) → Prog Sys (Option ((code legacy).Pc t))
  | .callback => .ret (some ())
  | .gst _ => .ret (some .begin)
  | _ => .ret none

/-- One thread that calls a newly constructed `CameraManager`. -/
def callerStart (legacy : Bool) : Config (code legacy) World where
  world := .init
  prog
    | .caller 0 => .ret (some false)
    | t => backgroundStart legacy t

/-- Where the proof of a caller on its own begins, in whatever surroundings. -/
theorem valid_callerStart {legacy : Bool} {W E : Type} {M : Machine Sys Tid W E}
    {ok : W → Label Sys Tid E → Prop} {C : Contract M ok} (P : C.Proof (code legacy)) {w₀ : W}
    (hi : C.inv w₀)
    (hcaller : ∀ w, C.rely (.caller 0) w₀ w → C.inv w → P.holds (.caller 0) false w)
    (hcallback : ∀ w, C.inv w → P.holds .callback () w)
    (hgst : ∀ n w, C.rely (.gst n) w₀ w → C.inv w → P.holds (.gst n) .begin w) :
    P.Valid ⟨w₀, (callerStart legacy).prog⟩ := by
  refine ⟨hi, fun t => ?_⟩
  -- the threads that do not run here have ended
  have hnone : (callerStart legacy).prog t = .ret none →
      P.OnTrack ⟨w₀, (callerStart legacy).prog⟩ t :=
    fun hp => Contract.Proof.onTrack_ret hp fun _ _ _ _ => nofun
  cases t with
  | caller n =>
    cases n with
    | zero =>
      refine Contract.Proof.onTrack_ret rfl fun w hr hw pc hpc => ?_
      cases hpc
      exact hcaller w hr hw
    | succ n => exact hnone rfl
  | callback =>
    refine Contract.Proof.onTrack_ret rfl fun w _ hw pc hpc => ?_
    cases hpc
    exact hcallback w hw
  | gst n =>
    refine Contract.Proof.onTrack_ret rfl fun w hr hw pc hpc => ?_
    cases hpc
    exact hgst n w hr hw
  | _ => exact hnone rfl

/-- The application at the beginning of `main`. -/
def appStart (legacy : Bool) : Config (code legacy) World where
  world := .init
  prog
    | .main => .ret (some (.init 2))
    | .snapshot | .monitor | .hls _ => .ret (some .begin)
    | .check => .ret (some .begin)
    | t => backgroundStart legacy t

/-- Where the proof of the application begins, in whatever surroundings. -/
theorem valid_appStart {legacy : Bool} {W E : Type} {M : Machine Sys Tid W E}
    {ok : W → Label Sys Tid E → Prop} {C : Contract M ok} (P : C.Proof (code legacy)) {w₀ : W}
    (hi : C.inv w₀) (hmain : ∀ w, C.rely .main w₀ w → C.inv w → P.holds .main (.init 2) w)
    (hsnapshot : ∀ w, C.rely .snapshot w₀ w → C.inv w → P.holds .snapshot .begin w)
    (hcheck : ∀ w, C.rely .check w₀ w → C.inv w → P.holds .check .begin w)
    (hmonitor : ∀ w, C.rely .monitor w₀ w → C.inv w → P.holds .monitor .begin w)
    (hhls : ∀ n w, C.rely (.hls n) w₀ w → C.inv w → P.holds (.hls n) .begin w)
    (hcallback : ∀ w, C.rely .callback w₀ w → C.inv w → P.holds .callback () w)
    (hgst : ∀ n w, C.rely (.gst n) w₀ w → C.inv w → P.holds (.gst n) .begin w) :
    P.Valid ⟨w₀, (appStart legacy).prog⟩ := by
  refine ⟨hi, fun t => ?_⟩
  -- every thread is at its first control point
  have hat : ∀ pc, (appStart legacy).prog t = .ret (some pc) →
      (∀ w, C.rely t w₀ w → C.inv w → P.holds t pc w) →
      P.OnTrack ⟨w₀, (appStart legacy).prog⟩ t := by
    intro pc hp h
    refine Contract.Proof.onTrack_ret hp fun w hr hw pc' hpc => ?_
    cases hpc
    exact h w hr hw
  cases t with
  | main => exact hat _ rfl hmain
  | snapshot => exact hat _ rfl hsnapshot
  | check => exact hat _ rfl hcheck
  | monitor => exact hat _ rfl hmonitor
  | hls n => exact hat _ rfl (hhls n)
  | caller n => exact Contract.Proof.onTrack_ret rfl fun _ _ _ _ => nofun
  | callback => exact hat _ rfl hcallback
  | gst n => exact hat _ rfl (hgst n)

/-! ## Schedules -/

/-- The replies when everything goes well: there is one camera with one stream and one buffer, and
the caller chooses `op`. -/
def World.willing (op : Operation) (w : World) : (c : SysCall) → Option c.Reply
  | .load f | .exchange f _ => some (w.flag f)
  | .isSet p => some (w.ptr p)
  | .waitReacquire => some (w.flag .completed)
  | .makeCameraManager | .managerStart | .acquire | .configure _ | .makeAllocator _ | .allocate _
  | .addBuffer _ | .pendingPush _ | .connect _ | .cameraStart | .mapPlane
  | .createDirectories | .setProperties _ _ _ | .spawnGstThread | .openOutput | .spawnStreamThread
  | .cleanHlsDirectory | .pollAndUpload _ | .uploadSnapshot => some .ok
  | .queueRequest r => some (if w.device.running && w.device.attached r then .ok else .failed)
  | .managerCameras => some (some 1)
  | .generateConfiguration _ => some (.streams 1)
  | .allocatorBuffers _ => some (some [true])
  | .createRequest => some (.request w.device.nextRequest)
  | .requestStatusCancelled _ => w.device.delivering.map Completion.cancelled
  | .cameraIsRunning => some w.device.running
  | .requestBuffers _ | .planeCount => some 1
  | .nextCompletion => w.device.queued.head?.map fun r => ⟨r, w.device.stopping, w.device.slots⟩
  | .pipelineNew | .elementFactoryMake _ | .elementLinkMany | .setState _ | .bufferNewAllocate
  | .bufferMap | .appSrcPushBuffer | .writeOutput | .closeOutput => some true
  | .mainLoopIsRunning => some (w.glib.running w.glib.loops)
  | .gstThreadJoinable => some w.glib.gstThread_.isSome
  | .mainLoopTurn => some .returned
  | .nextOperation => some op
  | .streamThreadJoinable => some w.threads.streamThread.isSome
  | .isStreamingRequested => some (some (some true))
  | .systemClockNow => some 0
  | .readFile _ => some none
  | .undefinedBehaviour => none
  | .lock _ | .relock _ | .unlock _ | .waitRelease | .store _ _ | .assign _ _ | .sleepFor _
  | .managerStop | .release | .deleteAllocator | .reuse _ | .dropRequest _
  | .pendingClear | .disconnect _ | .stopBegin | .stopEnd | .unmapPlane | .completionDone
  | .objectUnref _ | .binAddMany | .getBus | .busAddWatch | .mainLoopNew | .mainLoopUnref
  | .mainLoopQuit | .gstThreadJoin | .mainLoopEnter | .bufferUnmap | .bufferUnref | .threadBegin
  | .threadEnd | .spawnWorker _ | .joinWorker _ | .streamThreadJoin => some ()

/-- A thread makes so many calls in a row, with the replies above. -/
def runs (t : Tid) (op : Operation) (n : Nat) : List (Choice Sys Tid World Signal) :=
  List.replicate n (.run t (World.willing op))

/-- A thread makes so many calls in a row, with replies of one's own. -/
def runsWith {W E : Type} (pick : W → (c : SysCall) → Option c.Reply) (t : Tid) (n : Nat) :
    List (Choice Sys Tid W E) :=
  List.replicate n (.run t pick)

end SurfCam
