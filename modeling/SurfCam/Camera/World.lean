import SurfCam.Camera.Calls
import SurfCam.Logic.Watch

/-!
# The world around the threads

The state that the threads share, what each call does to it (component by component), and which
replies each call can get.  Failures, exceptions and the outcomes of GStreamer are free, but for the
teardown calls, which do not throw; a lock, a join, a wait and `camera_->stop()` block while their
reply cannot come.
-/

namespace SurfCam

open Interaction

/-- The threads: those of `main.cpp`, further threads that call `CameraManager`, libcamera's thread
and the threads of the main loops. -/
inductive Tid where
  | main
  | snapshot
  | check
  | monitor
  | hls (n : Nat)
  | caller (n : Nat)
  | callback
  | gst (n : Nat)
  deriving DecidableEq

def WorkerThread.tid : WorkerThread → Tid
  | snapshotThread => .snapshot
  | checkStreamThread => .check
  | monitorThread => .monitor

/-- The camera, as libcamera has it. -/
structure Device where
  running : Bool
  /-- a `stop()` is under way -/
  stopping : Bool
  connected : Slot → Bool
  /-- the next request to be created -/
  nextRequest : Nat
  /-- the request carries a frame buffer -/
  attached : Nat → Bool
  /-- the requests that are queued at the camera -/
  queued : List Nat
  /-- the completion whose slots are being run -/
  delivering : Option Completion
  /-- `pendingRequests_` -/
  pending : List Nat
  /-- the requests that were queued since the last start, other than by a slot -/
  session : List Nat
  /-- the completions without cancellation that were delivered since the last start -/
  delivered : Nat

/-- The slots that libcamera runs for a request. -/
def Device.slots (d : Device) : List Slot := [Slot.photo, Slot.video].filter d.connected

/-- The main loops and their threads.  A loop and the thread that is started for it have the same
number, and `loop_` is the last loop that was made. -/
structure Glib where
  loops : Nat
  /-- `gstThread_`, while it is joinable -/
  gstThread_ : Option Nat
  /-- `g_main_loop_run` has been entered -/
  entered : Nat → Bool
  /-- `g_main_loop_is_running` -/
  running : Nat → Bool
  /-- `g_main_loop_run` has returned -/
  left : Nat → Bool

structure Threads where
  started : Tid → Bool
  finished : Tid → Bool
  /-- the number of HLS workers started so far -/
  hlsWorkers : Nat
  /-- `streamThread`, while it is joinable -/
  streamThread : Option Nat

structure World where
  owner : Mutex → Option Tid
  flag : Flag → Bool
  ptr : Ptr → Bool
  device : Device
  glib : Glib
  threads : Threads

namespace World

/-! ## What a call does -/

def ownerAfter (t : Tid) (w : World) : SysCall → Mutex → Option Tid
  | .lock m | .relock m => Function.update w.owner m (some t)
  | .unlock m => if w.owner m = some t then Function.update w.owner m none else w.owner
  | .waitRelease => Function.update w.owner .completionMutex none
  | .waitReacquire => Function.update w.owner .completionMutex (some t)
  | _ => w.owner

def flagAfter (w : World) : SysCall → Flag → Bool
  | .store f value | .exchange f value => Function.update w.flag f value
  | _ => w.flag

def ptrAfter (w : World) : SysCall → Ptr → Bool
  | .assign p value => Function.update w.ptr p value
  | _ => w.ptr

/-- `reuse()` without the `ReuseBuffers` flag detaches the buffers of the request. -/
def deviceAfter (t : Tid) (d : Device) : (c : SysCall) → c.Reply → Device
  | .connect s, .ok => { d with connected := Function.update d.connected s true }
  | .disconnect s, _ => { d with connected := Function.update d.connected s false }
  | .createRequest, .request r =>
    { d with nextRequest := r + 1, attached := Function.update d.attached r false }
  | .addBuffer r, .ok => { d with attached := Function.update d.attached r true }
  | .reuse r, _ => { d with attached := Function.update d.attached r false }
  -- a start begins a new session; the counters speak of it only
  | .cameraStart, .ok => { d with running := true, session := [], delivered := 0 }
  | .queueRequest r, .ok =>
    { d with
      queued := r :: d.queued
      session := if t = .callback then d.session else r :: d.session }
  | .pendingPush r, _ => { d with pending := r :: d.pending }
  | .pendingClear, _ => { d with pending := [] }
  | .stopBegin, _ => { d with stopping := true }
  -- libcamera's `stop()` cancels and delivers what is queued before it returns
  | .stopEnd, _ => { d with stopping := false, running := false }
  | .nextCompletion, completion =>
    { d with queued := d.queued.erase completion.request, delivering := some completion }
  | .completionDone, _ =>
    { d with
      delivering := none
      delivered :=
        if d.delivering.any fun c => !c.cancelled then d.delivered + 1 else d.delivered }
  | _, _ => d

def glibAfter (t : Tid) (g : Glib) : (c : SysCall) → c.Reply → Glib
  | .mainLoopNew, _ => { g with loops := g.loops + 1 }
  | .mainLoopQuit, _ => { g with running := Function.update g.running g.loops false }
  | .spawnGstThread, .ok => { g with gstThread_ := some g.loops }
  | .gstThreadJoin, _ => { g with gstThread_ := none }
  | .mainLoopEnter, _ =>
    match t with
    | .gst n =>
      { g with
        entered := Function.update g.entered n true
        running := Function.update g.running n true }
    | _ => g
  | .mainLoopTurn, .returned =>
    match t with
    | .gst n => { g with left := Function.update g.left n true }
    | _ => g
  | _, _ => g

def threadsAfter (t : Tid) (w : World) : (c : SysCall) → c.Reply → Threads
  | .spawnGstThread, .ok =>
    { w.threads with started := Function.update w.threads.started (.gst w.glib.loops) true }
  | .spawnWorker worker, _ =>
    { w.threads with started := Function.update w.threads.started worker.tid true }
  | .spawnStreamThread, .ok =>
    { w.threads with
      started := Function.update w.threads.started (.hls w.threads.hlsWorkers) true
      hlsWorkers := w.threads.hlsWorkers + 1
      streamThread := some w.threads.hlsWorkers }
  | .streamThreadJoin, _ => { w.threads with streamThread := none }
  | .threadEnd, _ => { w.threads with finished := Function.update w.threads.finished t true }
  | _, _ => w.threads

def after (t : Tid) (c : SysCall) (r : c.Reply) (w : World) : World where
  owner := w.ownerAfter t c
  flag := w.flagAfter c
  ptr := w.ptrAfter c
  device := deviceAfter t w.device c r
  glib := glibAfter t w.glib c r
  threads := w.threadsAfter t c r

/-! ## Which replies a call can get -/

def deviceAnswers (d : Device) : (c : SysCall) → c.Reply → Bool
  | .cameraIsRunning, r => r = d.running
  | .createRequest, .request r => r = d.nextRequest
  | .cameraStart, .ok => !d.running
  -- `queueRequest` fails for a camera that is not running and for a request without buffers
  | .queueRequest r, .ok => d.running && d.attached r
  | .requestStatusCancelled _, r => d.delivering.any fun c => r = c.cancelled
  | .nextCompletion, c =>
    d.running && d.delivering.isNone && c.request ∈ d.queued && (!c.cancelled || d.stopping) &&
      c.slots = d.slots
  | .stopEnd, _ => d.queued = [] ∧ d.delivering = none
  | _, _ => true

def glibAnswers (t : Tid) (w : World) : (c : SysCall) → c.Reply → Bool
  | .mainLoopIsRunning, r => r = w.glib.running w.glib.loops
  | .gstThreadJoinable, r => r = w.glib.gstThread_.isSome
  -- a join blocks until the thread has ended
  | .gstThreadJoin, _ => w.glib.gstThread_.any fun n => w.threads.finished (.gst n)
  | .mainLoopTurn, r =>
    match t, r with
    | .gst n, .message _ => w.glib.running n
    | .gst n, .returned => !w.glib.running n
    | _, _ => false
  | _, _ => true

def threadsAnswer (t : Tid) (w : World) : (c : SysCall) → c.Reply → Bool
  | .threadBegin, _ => w.threads.started t
  | .joinWorker worker, _ => w.threads.finished worker.tid
  | .streamThreadJoinable, r => r = w.threads.streamThread.isSome
  | .streamThreadJoin, _ => w.threads.streamThread.any fun n => w.threads.finished (.hls n)
  | _, _ => true

def sharedAnswers (w : World) : (c : SysCall) → c.Reply → Bool
  | .lock m, _ | .relock m, _ => (w.owner m).isNone
  -- the wait returns its predicate, with the mutex taken again
  | .waitReacquire, r => (w.owner .completionMutex).isNone && r = w.flag .completed
  | .load f, r | .exchange f _, r => r = w.flag f
  | .isSet p, r => r = w.ptr p
  | _, _ => true

def answers (t : Tid) (c : SysCall) (r : c.Reply) (w : World) : Bool :=
  w.sharedAnswers c r && deviceAnswers w.device c r && w.glibAnswers t c r && w.threadsAnswer t c r

section

variable {t : Tid} {c : SysCall} {r : c.Reply} {w : World}

theorem answers_iff : w.answers t c r = true ↔
    w.sharedAnswers c r = true ∧ deviceAnswers w.device c r = true ∧
      w.glibAnswers t c r = true ∧ w.threadsAnswer t c r = true := by
  simp only [answers, Bool.and_eq_true, and_assoc]

theorem shared_of_answers (h : w.answers t c r = true) : w.sharedAnswers c r = true :=
  (answers_iff.mp h).1

theorem device_of_answers (h : w.answers t c r = true) : deviceAnswers w.device c r = true :=
  (answers_iff.mp h).2.1

theorem glib_of_answers (h : w.answers t c r = true) : w.glibAnswers t c r = true :=
  (answers_iff.mp h).2.2.1

theorem threads_of_answers (h : w.answers t c r = true) : w.threadsAnswer t c r = true :=
  (answers_iff.mp h).2.2.2

end

/-! ## What a call leaves alone -/

section

variable {t : Tid} {c : SysCall} {r : c.Reply} {w : World}

theorem flag_after {f : Flag} (hs : ∀ value, c ≠ .store f value)
    (he : ∀ value, c ≠ .exchange f value) : (w.after t c r).flag f = w.flag f := by
  cases c with
  | store g value =>
    have hne : f ≠ g := by
      rintro rfl
      exact hs value rfl
    show Function.update w.flag g value f = w.flag f
    rw [Function.update_of_ne hne]
  | exchange g value =>
    have hne : f ≠ g := by
      rintro rfl
      exact he value rfl
    show Function.update w.flag g value f = w.flag f
    rw [Function.update_of_ne hne]
  | _ => rfl

theorem flag_kept {f : Flag} {value : Bool} (hs : c ≠ .store f (!value))
    (he : ∀ v, c ≠ .exchange f v) (h : w.flag f = value) : (w.after t c r).flag f = value := by
  by_cases hc : c = .store f value
  · subst hc
    show Function.update w.flag f value f = value
    rw [Function.update_self]
  · rw [flag_after _ he, h]
    intro v hv
    by_cases hvalue : v = value
    · exact hc (hvalue ▸ hv)
    · exact hs (by rw [hv, Bool.eq_not_of_ne hvalue])

theorem ptr_of_after {p : Ptr} (h : (w.after t c r).ptr p = true) :
    w.ptr p = true ∨ c = .assign p true := by
  cases c with
  | assign q value =>
    change Function.update w.ptr q value p = true at h
    by_cases hq : p = q
    · rw [hq, Function.update_self] at h
      exact .inr (by rw [hq, h])
    · rw [Function.update_of_ne hq] at h
      exact .inl h
  | _ => exact .inl h

theorem ptr_after {p : Ptr} (ha : ∀ value, c ≠ .assign p value) :
    (w.after t c r).ptr p = w.ptr p := by
  cases c with
  | assign q value =>
    have hne : p ≠ q := by
      rintro rfl
      exact ha value rfl
    show Function.update w.ptr q value p = w.ptr p
    rw [Function.update_of_ne hne]
  | _ => rfl

theorem ptr_kept {p : Ptr} (hc : c ≠ .assign p false) (h : w.ptr p = true) :
    (w.after t c r).ptr p = true := by
  by_cases ha : c = .assign p true
  · subst ha
    show Function.update w.ptr p true p = true
    rw [Function.update_self]
  · rw [ptr_after, h]
    intro v hv
    cases v with
    | true => exact ha hv
    | false => exact hc hv

/-- Only a start makes the camera run. -/
theorem running_of_after (h : (w.after t c r).device.running = true) :
    w.device.running = true ∨ c = .cameraStart := by
  cases c with
  | cameraStart => exact .inr rfl
  | stopEnd => cases h
  | connect | createRequest | addBuffer | queueRequest => cases r <;> exact .inl h
  | _ => exact .inl h

/-- Only a stop makes it stop. -/
theorem running_kept (hc : c ≠ .stopEnd) (h : w.device.running = true) :
    (w.after t c r).device.running = true := by
  cases c with
  | stopEnd => contradiction
  | connect | createRequest | addBuffer | queueRequest => cases r <;> exact h
  | cameraStart =>
    cases r with
    | ok => rfl
    | failed => exact h
    | threw => exact h
  | _ => exact h

theorem started_mono {u : Tid} (h : w.threads.started u = true) :
    (w.after t c r).threads.started u = true := by
  have hset : ∀ v, Function.update w.threads.started v true u = true := by
    intro v
    rw [Function.update_apply, h, ite_self]
  cases c with
  | spawnGstThread => cases r <;> first | exact hset _ | exact h
  | spawnWorker worker => exact hset _
  | spawnStreamThread => cases r <;> first | exact hset _ | exact h
  | _ => exact h

theorem finished_mono {u : Tid} (h : w.threads.finished u = true) :
    (w.after t c r).threads.finished u = true := by
  cases c with
  | threadEnd =>
    show Function.update w.threads.finished t true u = true
    rw [Function.update_apply, h, ite_self]
  | spawnGstThread => cases r <;> exact h
  | spawnStreamThread => cases r <;> exact h
  | _ => exact h

/-- A thread ends by itself. -/
theorem finished_after {u : Tid} (hc : c = .threadEnd → t ≠ u) :
    (w.after t c r).threads.finished u = w.threads.finished u := by
  cases c with
  | threadEnd => exact Function.update_of_ne (Ne.symm (hc rfl)) ..
  | spawnGstThread => cases r <;> rfl
  | spawnStreamThread => cases r <;> rfl
  | _ => rfl

theorem delivering_kept (hn : c ≠ .nextCompletion) (hd : c ≠ .completionDone) :
    (w.after t c r).device.delivering = w.device.delivering := by
  cases c with
  | nextCompletion => contradiction
  | completionDone => contradiction
  | connect | createRequest | addBuffer | queueRequest | cameraStart => cases r <;> rfl
  | _ => rfl

end

end World

/-- What happens besides the calls. -/
inductive Signal where
  | terminate
  deriving DecidableEq

/-- The threads' world: `signalHandler` may clear `keepRunning` at any moment. -/
def system : Machine Sys Tid World Signal where
  act t c r w := if w.answers t c r then some (w.after t c r) else none
  env _ w := some { w with flag := Function.update w.flag .keepRunning false }

theorem system_act {t : Tid} {c : SysCall} {r : c.Reply} {w w' : World} :
    system.act t c r w = some w' ↔ w.answers t c r = true ∧ w' = w.after t c r :=
  guarded_eq_some

section

variable {O : Type} {see : World → Label Sys Tid Signal → O → O} {x y : World × O}

/-- A step of the threads, watched. -/
theorem watched_system_act {t : Tid} {c : SysCall} {r : c.Reply} :
    (system.watched see).act t c r x = some y ↔
      x.1.answers t c r = true ∧ y = (x.1.after t c r, see x.1 (.act t c r) x.2) := by
  rw [watched_act]
  constructor
  · rintro ⟨w, hw, rfl⟩
    obtain ⟨hanswer, rfl⟩ := system_act.mp hw
    exact ⟨hanswer, rfl⟩
  · rintro ⟨hanswer, rfl⟩
    exact ⟨_, system_act.mpr ⟨hanswer, rfl⟩, rfl⟩

end

end SurfCam
