import SurfCam.Camera.Owned
import SurfCam.Logic.Watch
import SurfCam.System

/-!
# What a snapshot uploads

`takePicture` waits for a flag that the slot of `requestCompleted` sets, whatever the status of the
request, and writes the image without looking at the state of the stream.  The snapshot thread
uploads the file when `takePicture` has returned true.
-/

namespace SurfCam

open Interaction CameraManager Contract

namespace Snapshot

/-- What has become of the picture since `takePicture` was called. -/
structure Shot where
  /-- the request that was queued for it -/
  request : Option Nat
  /-- the completion that the wait has seen -/
  awaited : Option Completion
  /-- the write of the image was without error, and then the flush of the stream -/
  wrote : Bool
  closed : Bool

structure Past where
  /-- the completion whose slot has set `completed`, while it is set -/
  completedBy : Option Completion
  shot : Shot

def Shot.init : Shot := ⟨none, none, false, false⟩

def completedAfter (w : World) : SysCall → Option Completion → Option Completion
  | .store .completed true, _ => w.device.delivering
  | .store .completed false, _ => none
  | _, completedBy => completedBy

def shotAfter (completedBy : Option Completion) : (c : SysCall) → c.Reply → Shot → Shot
  -- `takePicture` begins by reading the flag, which starts a new picture
  | .load .snapshotsPaused_, _, _ => .init
  | .queueRequest request, .ok, shot => { shot with request := some request }
  -- the predicate of the wait, evaluated before it sleeps and again when it wakes up
  | .load .completed, true, shot | .waitReacquire, true, shot =>
    { shot with awaited := completedBy }
  | .writeOutput, wrote, shot => { shot with wrote }
  | .closeOutput, closed, shot => { shot with closed }
  | _, _, shot => shot

def pastAfter (w : World) (t : Tid) (c : SysCall) (r : c.Reply) (past : Past) : Past where
  completedBy := completedAfter w c past.completedBy
  shot := if t = .snapshot then shotAfter past.completedBy c r past.shot else past.shot

def see (w : World) : Label Sys Tid Signal → Past → Past
  | .act t c r, past => pastAfter w t c r past
  | _, past => past

/-- The request of the picture has completed without cancellation, and the image was written
without error. -/
def Taken (shot : Shot) : Prop :=
  (∃ c, shot.awaited = some c ∧ shot.request = some c.request ∧ c.cancelled = false) ∧
    shot.wrote = true ∧ shot.closed = true

/-- libcamera does not configure a camera that is running. -/
def configuresStopped (x : World × Past) : Label Sys Tid Signal → Bool
  | .act _ (.configure _) .ok => !x.1.device.running
  | _ => true

/-- The completion that sets `completed` is not cancelled, and the image is written without
error. -/
def flawless (x : World × Past) : Label Sys Tid Signal → Bool
  | .act .callback (.store .completed true) _ =>
    x.1.device.delivering.all fun c => !c.cancelled
  | .act .snapshot .writeOutput wrote => wrote
  | .act .snapshot .closeOutput closed => closed
  | _ => true

def good (x : World × Past) (l : Label Sys Tid Signal) : Bool :=
  configuresStopped x l && flawless x l

/-! ## The camera -/

/-- A camera that is not running has nothing to do. -/
def Idle (d : Device) : Prop := d.running = false → d.queued = [] ∧ d.delivering = none

/-- The camera has no other request than `q`. -/
def Only (q : Nat) (d : Device) : Prop :=
  (∀ r ∈ d.queued, r = q) ∧ ∀ c ∈ d.delivering, c.request = q

theorem Idle.only {d : Device} {q : Nat} (h : Idle d) (hr : d.running = false) : Only q d := by
  obtain ⟨hqueued, hdelivering⟩ := h hr
  unfold Only
  rw [hqueued, hdelivering]
  exact ⟨nofun, nofun⟩

section

variable {t : Tid} {d : Device} {c : SysCall} {r : c.Reply} {q : Nat}

theorem idle_after (hr : World.deviceAnswers d c r = true) (h : Idle d) :
    Idle (World.deviceAfter t d c r) := by
  cases c with
  | cameraStart =>
    cases r with
    | ok => exact nofun
    | failed => exact h
    | threw => exact h
  -- `stop` returns when every request has been delivered
  | stopEnd => exact fun _ => of_decide_eq_true hr
  | queueRequest request =>
    cases r with
    | ok =>
      intro hrunning
      change (d.running && d.attached request) = true at hr
      rw [show d.running = false from hrunning] at hr
      cases hr
    | failed => exact h
    | threw => exact h
  | nextCompletion =>
    intro hrunning
    simp only [World.deviceAnswers, show d.running = false from hrunning, Bool.false_and,
      Bool.false_eq_true] at hr
  | completionDone => exact fun hrunning => ⟨(h hrunning).1, rfl⟩
  | connect | createRequest | addBuffer => cases r <;> exact h
  | _ => exact h

/-- The camera gets and delivers no other request. -/
theorem only_after (hr : World.deviceAnswers d c r = true)
    (hc : ∀ request, c = .queueRequest request → request = q) (h : Only q d) :
    Only q (World.deviceAfter t d c r) := by
  cases c with
  | queueRequest request =>
    cases r with
    | ok => exact ⟨List.forall_mem_cons.mpr ⟨hc request rfl, h.1⟩, h.2⟩
    | failed => exact h
    | threw => exact h
  | nextCompletion =>
    simp only [World.deviceAnswers, Bool.and_eq_true, decide_eq_true_eq] at hr
    have hqueued : r.request ∈ d.queued := hr.1.1.2
    refine ⟨fun request hmem => h.1 request (List.mem_of_mem_erase hmem), fun completion hc => ?_⟩
    rw [← Option.some.inj hc]
    exact h.1 _ hqueued
  | completionDone => exact ⟨h.1, nofun⟩
  | cameraStart | connect | createRequest | addBuffer => cases r <;> exact h
  | _ => exact h

end

/-! ## Who may do what -/

/-- The thread owns `cameraOpsMutex_`. -/
def Owns (t : Tid) (x : World × Past) : Prop := x.1.owner .cameraOpsMutex_ = some t

/-- A set `completed` is due to a completion of the request `q` that is not cancelled. -/
def Marked (q : Nat) (x : World × Past) : Prop :=
  x.1.flag .completed = true →
    ∃ c, x.2.completedBy = some c ∧ c.request = q ∧ c.cancelled = false

/-- What a thread may do. -/
def Allowed (t : Tid) (x : World × Past) : SysCall → Prop
  | .cameraStart => Owns t x
  | .queueRequest request =>
    Owns t x ∨ t = .callback ∧ ∃ c, x.1.device.delivering = some c ∧ c.request = request
  | .store .completed value =>
    t = .snapshot ∧ value = false ∨
      t = .callback ∧ value = true ∧ ∃ c, x.1.device.delivering = some c
  | .exchange f _ => f ≠ .completed
  | .nextCompletion | .completionDone => t = .callback
  | .uploadSnapshot => t = .snapshot → Taken x.2.shot
  | _ => True

/-- What the others leave to a thread. -/
structure Left (t : Tid) (x x' : World × Past) : Prop where
  owns : Owns t x → Owns t x'
  delivering : t = .callback → ∀ c, x.1.device.delivering = some c →
    x'.1.device.delivering = some c
  shot : t = .snapshot → x'.2.shot = x.2.shot
  stopped : Owns t x → x.1.device.running = false → x'.1.device.running = false
  only : t = .snapshot → Owns t x → ∀ q, Only q x.1.device → Only q x'.1.device
  marked : t = .snapshot → Owns t x → ∀ q, Only q x.1.device → Marked q x → Marked q x'

theorem Left.refl (t : Tid) (x : World × Past) : Left t x x :=
  ⟨id, fun _ _ => id, fun _ => rfl, fun _ => id, fun _ _ _ => id, fun _ _ _ _ => id⟩

theorem Left.trans {t : Tid} {x x' x'' : World × Past} (h : Left t x x') (h' : Left t x' x'') :
    Left t x x'' where
  owns := h'.owns ∘ h.owns
  delivering ht c hc := h'.delivering ht c (h.delivering ht c hc)
  shot ht := (h'.shot ht).trans (h.shot ht)
  stopped ho hr := h'.stopped (h.owns ho) (h.stopped ho hr)
  only ht ho q hq := h'.only ht (h.owns ho) q (h.only ht ho q hq)
  marked ht ho q hq hm :=
    h'.marked ht (h.owns ho) q (h.only ht ho q hq) (h.marked ht ho q hq hm)

section

variable {t u : Tid} {c : SysCall} {r : c.Reply} {x : World × Past} {q : Nat}

/-- The step of thread `u`. -/
abbrev next (u : Tid) (c : SysCall) (r : c.Reply) (x : World × Past) : World × Past :=
  (x.1.after u c r, pastAfter x.1 u c r x.2)

/-- Nobody else than the callback queues requests while the mutex is taken, and the callback queues
the one that it delivers. -/
theorem only_of_others (htu : t ≠ u) (ha : x.1.answers u c r = true) (hpre : Allowed u x c)
    (ho : Owns t x) (h : Only q x.1.device) : Only q (next u c r x).1.device := by
  refine only_after (World.device_of_answers ha) ?_ h
  rintro request rfl
  cases hpre with
  | inl hown => exact absurd (Option.some.inj (ho.symm.trans hown)) htu
  | inr hdelivers =>
    obtain ⟨-, completion, hc, hrequest⟩ := hdelivers
    rw [← hrequest]
    exact h.2 completion hc

/-- The calls that have to do with `completed`. -/
def marks : SysCall → Bool
  | .store f _ | .exchange f _ => f = .completed
  | _ => false

/-- Other calls leave the flag and its origin alone. -/
theorem marked_after (hc : marks c = false) (h : Marked q x) : Marked q (next u c r x) := by
  have hflag : (x.1.after u c r).flag .completed = x.1.flag .completed := by
    apply World.flag_after
    · rintro value rfl
      cases hc
    · rintro value rfl
      cases hc
  have horigin : completedAfter x.1 c x.2.completedBy = x.2.completedBy := by
    cases c with
    | store f value => cases f <;> first | rfl | cases hc
    | _ => rfl
  intro hcompleted
  change (x.1.after u c r).flag .completed = true at hcompleted
  show ∃ completion, completedAfter x.1 c x.2.completedBy = some completion ∧ _
  rw [hflag] at hcompleted
  rw [horigin]
  exact h hcompleted

/-- The callback sets `completed` for the request that it delivers. -/
theorem marked_of_others (hu : u ≠ .snapshot) (hok : flawless x (.act u c r) = true)
    (hpre : Allowed u x c) (h : Only q x.1.device) (hm : Marked q x) :
    Marked q (next u c r x) := by
  by_cases hc : marks c = true
  · cases c with
    | store f value =>
      have hf : f = .completed := of_decide_eq_true hc
      subst hf
      cases hpre with
      | inl hown => exact absurd hown.1 hu
      | inr hdelivers =>
        obtain ⟨rfl, rfl, completion, hdelivering⟩ := hdelivers
        change (x.1.device.delivering.all fun c => !c.cancelled) = true at hok
        rw [hdelivering] at hok
        have hcancelled : completion.cancelled = false := (Bool.not_eq_true' _).mp hok
        exact fun _ => ⟨completion, hdelivering, h.2 completion hdelivering, hcancelled⟩
    | exchange f value =>
      have hf : f = .completed := of_decide_eq_true hc
      exact absurd hf hpre
    | _ => cases hc
  · exact marked_after (Bool.eq_false_iff.mpr hc) hm

theorem left_after (htu : t ≠ u) (ha : x.1.answers u c r = true)
    (hok : flawless x (.act u c r) = true) (hpre : Allowed u x c) : Left t x (next u c r x) where
  owns ho := World.owner_kept (by decide) ho ha fun _ => Ne.symm htu
  delivering ht completion hc := by
    have hn : c ≠ .nextCompletion := by
      rintro rfl
      exact htu (ht.trans hpre.symm)
    have hd : c ≠ .completionDone := by
      rintro rfl
      exact htu (ht.trans hpre.symm)
    rw [World.delivering_kept hn hd]
    exact hc
  shot ht := if_neg fun hu => htu (ht.trans hu.symm)
  stopped ho hrunning := by
    refine Bool.eq_false_iff.mpr fun hstarted => ?_
    -- only `cameraStart` makes the camera run, and whoever calls it owns the mutex
    cases World.running_of_after hstarted with
    | inl hrun => exact Bool.noConfusion (hrunning.symm.trans hrun)
    | inr hc =>
      subst hc
      exact htu (Option.some.inj (ho.symm.trans hpre))
  only _ ho q h := only_of_others htu ha hpre ho h
  marked ht _ q h hm := marked_of_others (fun hu => htu (ht.trans hu.symm)) hok hpre h hm

def contract : Contract (system.watched see) fun x l => good x l = true where
  inv x := Idle x.1.device
  pre t c x := Allowed t x c
  rely := Left
  rely_refl := Left.refl
  rely_trans := Left.trans
  inv_act hi _ _ hact := by
    obtain ⟨ha, rfl⟩ := watched_system_act.mp hact
    exact idle_after (World.device_of_answers ha) hi
  inv_env hi _ henv := by
    obtain ⟨w, hsys, rfl⟩ := watched_env.mp henv
    cases hsys
    exact hi
  rely_act htu _ hpre hok hact := by
    obtain ⟨ha, rfl⟩ := watched_system_act.mp hact
    exact left_after htu ha ((Bool.and_eq_true _ _).mp hok).2 hpre
  rely_env _ _ henv := by
    obtain ⟨w, hsys, rfl⟩ := watched_env.mp henv
    cases hsys
    exact ⟨id, fun _ _ => id, fun _ => rfl, fun _ => id, fun _ _ _ => id, fun _ _ _ _ => id⟩

end

/-! ## Calls -/

/-- The calls that not every thread may make, `uploadSnapshot` apart. -/
def restricted : SysCall → Bool
  | .cameraStart | .queueRequest _ | .nextCompletion | .completionDone => true
  | c => marks c

theorem allowed_of_unrestricted {t : Tid} {c : SysCall} {x : World × Past}
    (hc : restricted c = false) (ht : t = .snapshot → c ≠ .uploadSnapshot) : Allowed t x c := by
  cases c with
  | store f value => cases f <;> trivial
  | exchange f value => exact of_decide_eq_false hc
  | uploadSnapshot => exact fun he => absurd rfl (ht he)
  | cameraStart | queueRequest | nextCompletion | completionDone => cases hc
  | _ => trivial

/-- A kind of calls without the restricted ones. -/
theorem unrestricted_of {calls : SysCall → Bool} (hstart : calls .cameraStart = false)
    (hqueue : ∀ request, calls (.queueRequest request) = false)
    (hnext : calls .nextCompletion = false) (hdone : calls .completionDone = false)
    (hstore : ∀ value, calls (.store .completed value) = false)
    (hexchange : ∀ value, calls (.exchange .completed value) = false) (c : SysCall)
    (hc : calls c = true) : restricted c = false := by
  cases c with
  | store f value =>
    refine decide_eq_false fun hf => ?_
    rw [hf, hstore] at hc
    cases hc
  | exchange f value =>
    refine decide_eq_false fun hf => ?_
    rw [hf, hexchange] at hc
    cases hc
  | cameraStart =>
    rw [hstart] at hc
    cases hc
  | queueRequest request =>
    rw [hqueue] at hc
    cases hc
  | nextCompletion =>
    rw [hnext] at hc
    cases hc
  | completionDone =>
    rw [hdone] at hc
    cases hc
  | _ => rfl

theorem owns_rely {t : Tid} (x x' : World × Past) (hr : contract.rely t x x')
    (_ : contract.inv x') (h : Owns t x) : Owns t x' := hr.owns h

/-- Code without restricted calls, and parts that may be run anywhere. -/
theorem keeps_of_unrestricted {t : Tid} {α : Type} {X : ∀ α : Type, Prog Sys α → Prop}
    {p : Prog Sys α} (ht : t ≠ .snapshot)
    (hX : ∀ α p, X α p → contract.Keeps t (fun _ => True) p)
    (hp : p.Built (fun c => restricted c = false) X) : contract.Keeps t (fun _ => True) p :=
  keeps_of_built true_rely
    (fun _ hc _ _ _ => ⟨allowed_of_unrestricted hc fun he => absurd he ht, fun _ _ _ _ => trivial⟩)
    hX hp

theorem stopping_unrestricted : ∀ c, stoppingCall c = true → restricted c = false :=
  unrestricted_of rfl (fun _ => rfl) rfl rfl (by decide) (by decide)

theorem owned (t : Tid) : Owned contract t (Owns t) where
  rely := owns_rely
  stopping c h _ _ := by
    refine allowed_of_unrestricted (stopping_unrestricted c h) ?_
    rintro - rfl
    cases h
  taken c hc x r x' _ hact := by
    obtain ⟨-, rfl⟩ := watched_system_act.mp hact
    cases hc with
    | inl he =>
      subst he
      exact World.owner_after_lock
    | inr he =>
      subst he
      exact World.owner_after_relock

/-! ## The session -/

/-- `startVideoMode` starts the camera and queues requests while it owns the mutex. -/
theorem keeps_startVideoMode {legacy : Bool} {t : Tid} {width height fps : Nat} :
    contract.Keeps t (fun _ => True) (startVideoMode legacy width height fps) := by
  refine (owned t).keeps_startVideoMode fun c hc x _ h => ⟨?_, fun r x' _ hact => ?_⟩
  · cases c with
    | cameraStart => exact h
    | queueRequest request => exact .inl h
    | nextCompletion | completionDone => cases hc
    | store f value => cases f <;> first | trivial | (cases value <;> cases hc)
    | exchange f value => cases hc
    | uploadSnapshot => cases hc
    | _ => trivial
  · obtain ⟨ha, rfl⟩ := watched_system_act.mp hact
    refine World.owner_kept (by decide) h ha ?_
    rintro rfl
    cases hc

/-! ## The callback -/

/-- The completion `c` is being delivered. -/
def Delivers (c : Completion) (x : World × Past) : Prop := x.1.device.delivering = some c

theorem delivers_rely {c : Completion} (x x' : World × Past) (hr : contract.rely .callback x x')
    (_ : contract.inv x') (h : Delivers c x) : Delivers c x' := hr.delivering rfl c h

/-- The calls of the slots for the request that is delivered. -/
def SlotCall (request : Nat) (c : SysCall) : Prop :=
  slotCall c = true ∨ slotGuardCall c = true ∨
    c ∈ [.reuse request, .isSet .camera_, .cameraIsRunning, .queueRequest request]

theorem slot_call {completion : Completion} {c : SysCall} {x : World × Past}
    (hc : SlotCall completion.request c) (h : Delivers completion x) :
    contract.pre .callback c x ∧ ∀ r x', good x (.act .callback c r) = true →
      (system.watched see).act .callback c r x = some x' → Delivers completion x' := by
  have hdelivery : c ≠ .nextCompletion ∧ c ≠ .completionDone := by
    constructor
    · rintro rfl
      simp [SlotCall, slotCall, slotGuardCall] at hc
    · rintro rfl
      simp [SlotCall, slotCall, slotGuardCall] at hc
  -- of the restricted calls the slots make two: queueing the delivered request, setting `completed`
  refine ⟨?_, fun r x' _ hact => ?_⟩
  · cases c with
    | queueRequest request =>
      have hrequest : request = completion.request := by
        simpa [SlotCall, slotCall, slotGuardCall] using hc
      exact .inr ⟨rfl, completion, h, hrequest.symm⟩
    | store f value =>
      cases f with
      | completed =>
        have hvalue : value = true := by simpa [SlotCall, slotCall, slotGuardCall] using hc
        exact .inr ⟨rfl, hvalue, completion, h⟩
      | _ => trivial
    | cameraStart => simp [SlotCall, slotCall, slotGuardCall] at hc
    | exchange f value => simp [SlotCall, slotCall, slotGuardCall] at hc
    | nextCompletion => exact absurd rfl hdelivery.1
    | completionDone => exact absurd rfl hdelivery.2
    | uploadSnapshot => exact nofun
    | _ => trivial
  · obtain ⟨-, rfl⟩ := watched_system_act.mp hact
    exact (World.delivering_kept hdelivery.1 hdelivery.2).trans h

theorem built_recycle {legacy : Bool} {request : Nat} :
    (recycleVideoRequest legacy request).Built (SlotCall request) Prog.noParts := by
  have hreuse : SlotCall request (.reuse request) := .inr (.inr (.head _))
  have hcamera : SlotCall request (.isSet .camera_) := .inl rfl
  have hrunning : SlotCall request .cameraIsRunning :=
    .inr (.inr (.tail _ (.tail _ (.head _))))
  have hqueue : SlotCall request (.queueRequest request) :=
    .inr (.inr (.tail _ (.tail _ (.tail _ (.head _)))))
  refine .bind (.call hreuse) fun _ => .bind (.call hcamera) fun _ => .ite (.ret _) ?_
  refine .ite (.bind (.ret _) fun _ => ?_) (.bind (.call hrunning) fun _ => ?_) <;>
    exact .ite (.ret _) (.bind (.call hqueue) fun _ => .ret _)

theorem wp_completionTurn {legacy : Bool} {x : World × Past} :
    contract.wp .callback (completionTurn legacy) (fun _ _ => True) (fun _ => True) x := by
  refine wp_call_of true_rely trivial fun x _ _ => ⟨rfl, fun c x' _ hact => ?_⟩
  have hdelivers : Delivers c x' := by
    obtain ⟨-, rfl⟩ := watched_system_act.mp hact
    rfl
  -- the completion is delivered until the last slot has returned
  have hslots : contract.Keeps .callback (Delivers c) (runSlots legacy c.request c.slots) :=
    keeps_of_built delivers_rely (fun _ hc _ _ h => slot_call hc h) (fun _ _ h => h.elim)
      (built_slots (fun _ h => .inl h) (fun _ h => .inr (.inl h)) built_recycle c.slots)
  refine wp_bind_of (wp_mono (hslots x' hdelivers) (R := fun _ _ => True) (Y := fun _ => True)
    (fun _ _ _ _ => trivial) fun _ _ _ => trivial) fun _ x _ _ _ _ _ => ?_
  exact ⟨rfl, fun _ _ _ _ _ _ _ => trivial⟩

/-! ## takePicture -/

/-- The snapshot owns the mutex, and the camera is not running. -/
def Stopped (x : World × Past) : Prop := Owns .snapshot x ∧ x.1.device.running = false

/-- The camera is the snapshot's: it has no other request than `q`. -/
structure Holds (q : Nat) (x : World × Past) : Prop where
  owns : Owns .snapshot x
  only : Only q x.1.device
  marked : Marked q x

/-- The completion that the wait has seen is that of the request, without cancellation. -/
def Seen (shot : Shot) : Prop :=
  ∃ c, shot.awaited = some c ∧ shot.request = some c.request ∧ c.cancelled = false

/-- Where a result of true says that the picture was taken. -/
def Result (b : Bool) (x : World × Past) : Prop := b = true → Taken x.2.shot

section

variable {q : Nat} {B : Shot → Prop} {α β : Type} {c : SysCall} {x : World × Past}

theorem stopped_rely (x x' : World × Past) (hr : contract.rely .snapshot x x')
    (_ : contract.inv x') (h : Stopped x) : Stopped x' :=
  ⟨hr.owns h.1, hr.stopped h.1 h.2⟩

theorem holds_rely (x x' : World × Past) (hr : contract.rely .snapshot x x')
    (_ : contract.inv x') (h : Holds q x) : Holds q x' where
  owns := hr.owns h.owns
  only := hr.only rfl h.owns q h.only
  marked := hr.marked rfl h.owns q h.only h.marked

theorem shot_rely (x x' : World × Past) (hr : contract.rely .snapshot x x')
    (_ : contract.inv x') (h : B x.2.shot) : B x'.2.shot := by
  rw [hr.shot rfl]
  exact h

/-- One call of the snapshot, in front of the rest. -/
theorem wp_step {A : World × Past → Prop} {f : c.Reply → Prog Sys β}
    {Q : β → World × Past → Prop} {X : World × Past → Prop}
    (hA : ∀ x x', contract.rely .snapshot x x' → contract.inv x' → A x → A x') (h : A x)
    (hpre : ∀ x, A x → Allowed .snapshot x c)
    (hf : ∀ x (r : c.Reply), Idle x.1.device → A x → x.1.answers .snapshot c r = true →
      good x (.act .snapshot c r) = true →
        contract.wp .snapshot (f r) Q X (next .snapshot c r x)) :
    contract.wp .snapshot (sys c >>= f) Q X x := by
  refine wp_call_of hA h fun x hi h => ⟨hpre x h, fun r x' hok hact => ?_⟩
  obtain ⟨ha, rfl⟩ := watched_system_act.mp hact
  exact hf x r hi h ha hok

/-- The calls that tell nothing of the picture. -/
def unseen : SysCall → Bool
  | .load f => f ≠ .snapshotsPaused_ ∧ f ≠ .completed
  | .queueRequest _ | .waitReacquire | .writeOutput | .closeOutput | .uploadSnapshot => false
  | _ => true

theorem shotAfter_unseen {completedBy : Option Completion} {r : c.Reply} {shot : Shot}
    (hc : unseen c = true) : shotAfter completedBy c r shot = shot := by
  cases c with
  | load f =>
    have hf := of_decide_eq_true hc
    cases f <;> first | rfl | exact absurd rfl hf.1 | exact absurd rfl hf.2
  | queueRequest | waitReacquire | writeOutput | closeOutput | uploadSnapshot => cases hc
  | _ => rfl

/-- The calls beside the picture. -/
def Aside (c : SysCall) : Prop := restricted c = false ∧ unseen c = true

theorem Aside.allowed (hc : Aside c) : Allowed .snapshot x c :=
  allowed_of_unrestricted hc.1 fun _ he => by
    rw [he] at hc
    cases hc.2

theorem next_shot {r : c.Reply} :
    (next .snapshot c r x).2.shot = shotAfter x.2.completedBy c r x.2.shot := by
  unfold next pastAfter
  rw [if_pos rfl]

theorem Aside.shot {r : c.Reply} (hc : Aside c) : (next .snapshot c r x).2.shot = x.2.shot :=
  next_shot.trans (shotAfter_unseen hc.2)

theorem keeps_shot {p : Prog Sys α} (hp : p.Built Aside Prog.noParts) :
    contract.Keeps .snapshot (fun x => B x.2.shot) p := by
  refine keeps_of_built shot_rely (fun c hc x _ h => ⟨hc.allowed, fun r x' _ hact => ?_⟩)
    (fun _ _ h => h.elim) hp
  obtain ⟨-, rfl⟩ := watched_system_act.mp hact
  show B (next .snapshot c r x).2.shot
  rw [hc.shot]
  exact h

/-- What comes after the picture does not change it. -/
theorem wp_cleanup {p : Prog Sys Bool} {cleanup : Prog Sys Unit}
    (h : contract.wp .snapshot p Result (fun _ => True) x)
    (hc : cleanup.Built Aside Prog.noParts) :
    contract.wp .snapshot (p.ensuring cleanup) Result (fun _ => True) x := by
  apply wp_ensuring_of
  refine wp_mono h (fun b x _ hb => ?_) fun x _ _ => ?_
  · exact wp_mono (keeps_shot (B := fun shot => b = true → Taken shot) hc x hb)
      (fun _ _ _ h => h) fun _ _ _ => trivial
  · exact wp_mono (keeps_shot (B := fun _ => True) hc x trivial) (fun _ _ _ _ => trivial)
      fun _ _ h => h

theorem wp_failed {X : World × Past → Prop} :
    contract.wp .snapshot (.ret false : Prog Sys Bool) Result X x :=
  fun _ _ _ => nofun

/-- Code beside the picture, and then no picture. -/
theorem wp_aside_failed {p : Prog Sys Unit} (hp : p.Built Aside Prog.noParts) :
    contract.wp .snapshot (p >>= fun _ => return false) Result (fun _ => True) x :=
  wp_bind_of (Q := fun _ _ => True)
    (wp_mono (keeps_shot (B := fun _ => True) hp x trivial) (fun _ _ _ _ => trivial)
      fun _ _ h => h)
    fun _ _ _ _ => wp_failed

theorem aside_stop : cameraStop.Built Aside Prog.noParts :=
  .bind (.call ⟨rfl, rfl⟩) fun _ => .call ⟨rfl, rfl⟩

/-- A call beside the picture, in front of the rest. -/
theorem wp_aside {f : c.Reply → Prog Sys β} {Q : β → World × Past → Prop}
    {X : World × Past → Prop} (hc : Aside c) (h : B x.2.shot)
    (hf : ∀ (r : c.Reply) x, B x.2.shot → contract.wp .snapshot (f r) Q X x) :
    contract.wp .snapshot (sys c >>= f) Q X x := by
  refine wp_step (A := fun x => B x.2.shot) shot_rely h (fun _ _ => hc.allowed)
    fun x r _ h _ _ => hf r _ ?_
  rw [hc.shot]
  exact h

/-! ### Saving the image -/

theorem wp_written {legacy : Bool} (h : Seen x.2.shot) :
    contract.wp .snapshot
      (do
        let _ ← sys .writeOutput
        let _ ← sys .closeOutput
        Prog.when (!legacy) (sys .unmapPlane)
        cameraStop
        return true)
      Result (fun _ => True) x := by
  refine wp_step (A := fun x => Seen x.2.shot) shot_rely h (fun _ _ => trivial)
    fun x wrote _ h _ hok => ?_
  have hwrote : wrote = true := ((Bool.and_eq_true _ _).mp hok).2
  refine wp_step (A := fun x => Seen x.2.shot ∧ x.2.shot.wrote = true)
    (shot_rely (B := fun shot => Seen shot ∧ shot.wrote = true)) ?_ (fun _ _ => trivial)
    fun x closed _ h _ hok => ?_
  · rw [next_shot]
    exact ⟨h, hwrote⟩
  have hclosed : closed = true := ((Bool.and_eq_true _ _).mp hok).2
  have htaken : Taken (next .snapshot .closeOutput closed x).2.shot := by
    rw [next_shot]
    exact ⟨h.1, h.2, hclosed⟩
  have hunmap : (Prog.when (!legacy) (sys .unmapPlane)).Built Aside Prog.noParts :=
    .when _ (.call ⟨rfl, rfl⟩)
  refine (keeps_shot (B := Taken) hunmap).wp_bind (fun _ _ => trivial) htaken fun _ x h => ?_
  refine (keeps_shot (B := Taken) aside_stop).wp_bind (fun _ _ => trivial) h fun _ x h => ?_
  intro x' hr hi _
  exact shot_rely (B := Taken) x x' hr hi h

/-- Once the wait has seen a completion of the request, a result of true is right. -/
theorem wp_saveImage {legacy : Bool} (h : Seen x.2.shot) :
    contract.wp .snapshot (saveImage legacy) Result (fun _ => True) x := by
  have hnone : ∀ {f : Empty → Prog Sys Bool} x, Seen x.2.shot →
      contract.wp .snapshot (sys .undefinedBehaviour >>= f) Result (fun _ => True) x :=
    fun _ h => wp_aside (B := Seen) ⟨rfl, rfl⟩ h nofun
  have hmapped : ∀ x, Seen x.2.shot → contract.wp .snapshot
      (do
        if !(← (← sys .mapPlane).check) then
          cameraStop
          return false
        Prog.ensuring
          (do
            if !(← (← sys .openOutput).check) then
              cameraStop
              return false
            let _ ← sys .writeOutput
            let _ ← sys .closeOutput
            Prog.when (!legacy) (sys .unmapPlane)
            cameraStop
            return true)
          (Prog.when legacy (sys .unmapPlane))) Result (fun _ => True) x := by
    intro x h
    refine wp_aside ⟨rfl, rfl⟩ h fun mapped x h => ?_
    cases mapped with
    | failed => exact wp_aside_failed aside_stop
    | threw => exact fun _ _ _ => trivial
    | ok =>
    refine wp_cleanup ?_ (.when _ (.call ⟨rfl, rfl⟩))
    refine wp_aside ⟨rfl, rfl⟩ h fun opened x h => ?_
    cases opened with
    | failed => exact wp_aside_failed aside_stop
    | threw => exact fun _ _ _ => trivial
    | ok => exact wp_written h
  unfold saveImage
  cases legacy with
  | true => exact hmapped x h
  | false =>
    refine wp_aside ⟨rfl, rfl⟩ h fun planes x h => ?_
    by_cases hplanes : planes = 0
    · simp only [if_pos hplanes]
      exact hnone x h
    · simp only [if_neg hplanes]
      exact hmapped x h

/-! ### Waiting for the completion -/

/-- The snapshot's own calls keep what it holds, the flag and the mutex apart. -/
theorem holds_call {r : c.Reply} (ha : x.1.answers .snapshot c r = true) (h : Holds q x)
    (hmarks : marks c = false) (hunlock : c ≠ .unlock .cameraOpsMutex_)
    (hqueue : ∀ request, c = .queueRequest request → request = q) :
    Holds q (next .snapshot c r x) where
  owns := World.owner_kept (by decide) h.owns ha fun he => absurd he hunlock
  only := only_after (World.device_of_answers ha) hqueue h.only
  marked := marked_after hmarks h.marked

/-- The request of the picture is queued. -/
def Queued (q : Nat) (x : World × Past) : Prop := Holds q x ∧ x.2.shot.request = some q

theorem queued_rely (x x' : World × Past) (hr : contract.rely .snapshot x x')
    (hi : contract.inv x') (h : Queued q x) : Queued q x' :=
  ⟨holds_rely x x' hr hi h.1, shot_rely (B := fun shot => shot.request = some q) x x' hr hi h.2⟩

theorem queued_call {r : c.Reply} (ha : x.1.answers .snapshot c r = true) (h : Queued q x)
    (hc : Aside c) (hunlock : c ≠ .unlock .cameraOpsMutex_) : Queued q (next .snapshot c r x) := by
  refine ⟨holds_call ha h.1 ?_ hunlock ?_, ?_⟩
  · have hunrestricted := hc.1
    cases c <;> first | rfl | exact hunrestricted
  · rintro request rfl
    cases hc.1
  · rw [hc.shot]
    exact h.2

/-- Seeing `completed`, the wait sees a completion of the request. -/
theorem seen_of_marked (h : Queued q x) (hcompleted : x.1.flag .completed = true) :
    Seen { x.2.shot with awaited := x.2.completedBy } := by
  obtain ⟨completion, hby, hrequest, hcancelled⟩ := h.1.marked hcompleted
  exact ⟨completion, hby, by rw [hrequest]; exact h.2, hcancelled⟩

theorem wp_waitForCompletion {X : World × Past → Prop} (h : Queued q x) :
    contract.wp .snapshot waitForCompletion (fun b x => b = true → Seen x.2.shot) X x := by
  have hseen : ∀ {b : Bool} x, Seen x.2.shot → contract.wp .snapshot (.ret b : Prog Sys Bool)
      (fun b x => b = true → Seen x.2.shot) X x := fun x h x' hr hi _ => shot_rely x x' hr hi h
  -- `wait_for` tests `completed` before it sleeps
  refine wp_step queued_rely h (fun _ _ => trivial) fun x completed _ h ha _ => ?_
  have hcompleted : completed = x.1.flag .completed :=
    of_decide_eq_true (World.shared_of_answers ha)
  cases completed with
  | true =>
    apply hseen
    rw [next_shot]
    exact seen_of_marked h hcompleted.symm
  | false =>
  have h : Queued q (next .snapshot (.load .completed) false x) := by
    refine ⟨holds_call ha h.1 rfl nofun nofun, ?_⟩
    rw [next_shot]
    exact h.2
  refine wp_step queued_rely h (fun _ _ => trivial) fun x _ _ h ha _ => ?_
  have h := queued_call ha h ⟨rfl, rfl⟩ nofun
  refine wp_step queued_rely h (fun _ _ => trivial) fun x completed _ h ha _ => ?_
  -- and once more when it owns `completionMutex` again, in time or not
  have hanswer := World.shared_of_answers ha
  have hcompleted : completed = x.1.flag .completed :=
    of_decide_eq_true ((Bool.and_eq_true _ _).mp hanswer).2
  cases completed with
  | true =>
    apply hseen
    rw [next_shot]
    exact seen_of_marked h hcompleted.symm
  | false => exact fun _ _ _ => nofun

theorem wp_awaitCompletion (h : Queued q x) :
    contract.wp .snapshot awaitCompletion (fun b x => b = true → Seen x.2.shot) (fun _ => True)
      x := by
  refine wp_step queued_rely h (fun _ _ => trivial) fun x _ _ h ha _ => ?_
  have h := queued_call ha h ⟨rfl, rfl⟩ nofun
  have hunlock : (sys (.unlock .completionMutex)).Built Aside Prog.noParts := .call ⟨rfl, rfl⟩
  apply wp_ensuring_of
  refine wp_mono (Q := fun b x => b = true → Seen x.2.shot) (X := fun _ => True) ?_
    (fun b x _ hb => ?_) fun x _ _ => ?_
  · refine wp_bind_of (wp_waitForCompletion h) fun completed x _ h => ?_
    cases completed with
    | true => exact fun x' hr hi _ => shot_rely x x' hr hi (h rfl)
    | false =>
      refine wp_bind_of (Q := fun _ _ => True) ?_ fun _ _ _ _ _ _ _ => nofun
      exact wp_mono (keeps_shot (B := fun _ => True) aside_stop x trivial) (fun _ _ _ _ => trivial)
        fun _ _ h => h
  · exact wp_mono (keeps_shot (B := fun shot => b = true → Seen shot) hunlock x hb)
      (fun _ _ _ h => h) fun _ _ _ => trivial
  · exact wp_mono (keeps_shot (B := fun _ => True) hunlock x trivial) (fun _ _ _ _ => trivial)
      fun _ _ h => h

/-! ### The photo -/

/-- From the start of the camera on. -/
theorem wp_capture {legacy : Bool} (h : Holds q x) :
    contract.wp .snapshot (capture legacy q) Result (fun _ => True) x := by
  refine wp_step holds_rely h (fun _ h => h.owns) fun x started _ h ha _ => ?_
  cases started with
  | failed => exact wp_failed
  | threw => exact fun _ _ _ => trivial
  | ok =>
  have h := holds_call ha h rfl nofun nofun
  refine wp_step holds_rely h (fun _ _ => trivial) fun x _ _ h ha _ => ?_
  have h := holds_call ha h rfl nofun nofun
  refine wp_step holds_rely h (fun _ h => .inl h.owns) fun x queued _ h ha _ => ?_
  cases queued with
  | failed => exact wp_aside_failed aside_stop
  | threw => exact fun _ _ _ => trivial
  | ok =>
  have h : Queued q (next .snapshot (.queueRequest q) .ok x) := by
    refine ⟨holds_call ha h rfl nofun ?_, ?_⟩
    · rintro request he
      cases he
      rfl
    · rw [next_shot]
      rfl
  change contract.wp .snapshot
    (awaitCompletion >>= fun completed => if !completed then return false else saveImage legacy)
    Result _ _
  refine wp_bind_of (wp_awaitCompletion h) fun completed x _ h => ?_
  cases completed with
  | true => exact wp_saveImage (h rfl)
  | false => exact wp_failed

/-- A call beside the picture, while the camera is not running. -/
theorem wp_stopped {f : c.Reply → Prog Sys β} {Q : β → World × Past → Prop}
    {X : World × Past → Prop} (hc : Aside c) (hunlock : c ≠ .unlock .cameraOpsMutex_)
    (h : Stopped x) (hf : ∀ (r : c.Reply) x, Stopped x → contract.wp .snapshot (f r) Q X x) :
    contract.wp .snapshot (sys c >>= f) Q X x := by
  refine wp_step stopped_rely h (fun _ _ => hc.allowed) fun x r _ h ha _ => hf r _ ⟨?_, ?_⟩
  · exact World.owner_kept (by decide) h.1 ha fun he => absurd he hunlock
  · refine Bool.eq_false_iff.mpr fun hstarted => ?_
    cases World.running_of_after hstarted with
    | inl hrunning => exact Bool.noConfusion (h.2.symm.trans hrunning)
    | inr he =>
      rw [he] at hc
      cases hc.1

/-- When `completed` is reset, the camera has no request and delivers none. -/
theorem wp_captureWith {legacy : Bool} (h : Stopped x) :
    contract.wp .snapshot (captureWith legacy q) Result (fun _ => True) x := by
  refine wp_stopped ⟨rfl, rfl⟩ (by decide) h fun buffers x h => ?_
  rcases buffers with _ | (_ | _)
  · exact fun _ _ _ => trivial
  · exact wp_failed
  refine wp_stopped ⟨rfl, rfl⟩ (fun he => by cases he) h fun added x h => ?_
  cases added with
  | failed => exact wp_failed
  | threw => exact fun _ _ _ => trivial
  | ok =>
  -- the reset: from here on only the completion of `q` can set the flag
  refine wp_step stopped_rely h (fun _ _ => .inl ⟨rfl, rfl⟩) fun x _ hi h ha _ => ?_
  have h : Holds q (next .snapshot (.store .completed false) () x) := by
    refine ⟨World.owner_kept (by decide) h.1 ha fun he => (by cases he), hi.only h.2, fun hcompleted => ?_⟩
    change Function.update x.1.flag .completed false .completed = true at hcompleted
    rw [Function.update_self] at hcompleted
    cases hcompleted
  refine wp_step holds_rely h (fun _ _ => trivial) fun x connected _ h ha _ => ?_
  cases connected with
  | failed => exact fun _ _ _ => trivial
  | threw => exact fun _ _ _ => trivial
  | ok =>
  have h := holds_call ha h rfl (by decide) fun request he => by cases he
  exact wp_cleanup (wp_capture h) (.call ⟨rfl, rfl⟩)

theorem wp_photoRequest {legacy : Bool} (h : Stopped x) :
    contract.wp .snapshot (photoRequest legacy) Result (fun _ => True) x := by
  refine wp_stopped ⟨rfl, rfl⟩ nofun h fun reply x h => ?_
  cases reply with
  | null => exact wp_failed
  | threw => exact fun _ _ _ => trivial
  | request q => exact wp_cleanup (wp_captureWith h) (.call ⟨rfl, rfl⟩)

theorem owns_call {t : Tid} {r : c.Reply} (ha : x.1.answers t c r = true) (h : Owns t x)
    (hunlock : c ≠ .unlock .cameraOpsMutex_) : Owns t (next t c r x) :=
  World.owner_kept (by decide) h ha fun he => absurd he hunlock

/-- The camera was not running when it was configured, and the snapshot owns the mutex. -/
theorem wp_configurePhoto {legacy : Bool} (h : Owns .snapshot x) :
    contract.wp .snapshot (configurePhoto legacy) Result (fun _ => True) x := by
  refine wp_step owns_rely h (fun _ _ => trivial) fun x config _ h ha _ => ?_
  have h := owns_call (c := .generateConfiguration .photo) ha h nofun
  rcases config with _ | (_ | streams) | _
  · exact wp_aside (B := fun _ => True) ⟨rfl, rfl⟩ trivial nofun
  · exact wp_aside (B := fun _ => True) ⟨rfl, rfl⟩ trivial nofun
  · refine wp_step owns_rely h (fun _ _ => trivial) fun x configured _ h ha hok => ?_
    have hown := owns_call (c := .configure _) ha h nofun
    cases configured with
    | failed => exact wp_failed
    | threw => exact fun _ _ _ => trivial
    | ok =>
    -- a successful `configure` shows that the camera is stopped
    have hrunning : x.1.device.running = false :=
      (Bool.not_eq_true' _).mp ((Bool.and_eq_true _ _).mp hok).1
    refine wp_stopped ⟨rfl, rfl⟩ nofun ⟨hown, hrunning⟩ fun allocator x h => ?_
    cases allocator with
    | failed => exact fun _ _ _ => trivial
    | threw => exact fun _ _ _ => trivial
    | ok =>
    refine wp_cleanup ?_ (.call ⟨rfl, rfl⟩)
    refine wp_stopped ⟨rfl, rfl⟩ nofun h fun allocated x h => ?_
    cases allocated with
    | failed => exact wp_failed
    | threw => exact fun _ _ _ => trivial
    | ok => exact wp_photoRequest h
  · exact fun _ _ _ => trivial

theorem wp_capturePhoto {legacy : Bool} (h : Owns .snapshot x) :
    contract.wp .snapshot (capturePhoto legacy) Result (fun _ => True) x := by
  -- the handler of `takePicture` returns false
  refine wp_tryCatch.mpr (wp_mono (wp_configurePhoto h) (fun _ _ _ h => h) fun x _ _ => ?_)
  apply wp_aside_failed
  exact built_stopCameraIfRunning fun c hc => ⟨stopping_unrestricted c (by
    simp [stoppingCall, teardownCall, hc]), by
      cases c with
      | load f => cases f <;> first | rfl | cases hc
      | _ => first | rfl | cases hc⟩

theorem keeps_owns {p : Prog Sys α}
    (hp : p.Built (fun c : SysCall => Aside c ∧ c ≠ .unlock .cameraOpsMutex_) Prog.noParts) :
    contract.Keeps .snapshot (Owns .snapshot) p := by
  refine keeps_of_built owns_rely (fun c hc x _ h => ⟨hc.1.allowed, fun r x' _ hact => ?_⟩)
    (fun _ _ h => h.elim) hp
  obtain ⟨ha, rfl⟩ := watched_system_act.mp hact
  exact owns_call ha h hc.2

theorem keeps_cameraReady : contract.Keeps .snapshot (Owns .snapshot) cameraReady :=
  keeps_owns (built_cameraReady ⟨⟨rfl, rfl⟩, nofun⟩ ⟨⟨rfl, rfl⟩, nofun⟩)

theorem wp_leaveVideoMode {legacy : Bool} (h : Owns .snapshot x) :
    contract.wp .snapshot (leaveVideoMode legacy) (fun _ => Owns .snapshot) (fun _ => True) x := by
  refine wp_step owns_rely h (fun _ _ => trivial) fun x on _ h ha _ => ?_
  cases on with
  | false => exact fun x' hr hi => owns_rely _ x' hr hi (owns_call ha h nofun)
  | true =>
    refine wp_bind_of (owned .snapshot).wp_stopVideoModeUnlocked fun _ x _ h => ?_
    exact wp_mono (keeps_cameraReady x h) (fun _ _ _ h => h) fun _ _ _ => trivial

/-- A result of true says that the picture was taken. -/
theorem wp_takePicture {legacy : Bool} :
    contract.wp .snapshot (takePicture legacy) Result (fun _ => True) x := by
  refine wp_call_of true_rely trivial fun x _ _ => ⟨trivial, fun _ x' hok hact => ?_⟩
  have h : Owns .snapshot x' := (owned .snapshot).taken _ (.inl rfl) x _ x' hok hact
  refine wp_cleanup ?_ (.call ⟨rfl, rfl⟩)
  refine wp_step owns_rely h (fun _ _ => trivial) fun x paused _ h ha _ => ?_
  have h := owns_call (c := .load .snapshotsPaused_) ha h nofun
  cases paused with
  | true => exact wp_failed
  | false =>
  have hready := keeps_cameraReady _ h
  refine wp_bind_of (wp_mono hready (R := fun _ => Owns .snapshot) (Y := fun _ => True)
    (fun _ _ _ h => h) fun _ _ _ => trivial) fun ready x _ h => ?_
  cases ready with
  | false => exact wp_failed
  | true =>
  refine wp_bind_of (wp_leaveVideoMode h) fun left x _ h => ?_
  cases left with
  | false => exact wp_failed
  | true => exact wp_capturePhoto h

/-- The snapshot thread uploads only what was taken. -/
theorem wp_snapshotTurn {legacy : Bool} :
    contract.wp .snapshot (App.snapshotTurn legacy) (fun _ _ => True) (fun _ => True) x := by
  have hplain : ∀ {α : Type} {p : Prog Sys α}, p.Built Aside Prog.noParts → ∀ x,
      contract.wp .snapshot p (fun _ _ => True) (fun _ => True) x := fun hp x =>
    keeps_shot (B := fun _ => True) hp x trivial
  refine wp_aside (B := fun _ => True) ⟨rfl, rfl⟩ trivial fun keepRunning x _ => ?_
  cases keepRunning with
  | false => exact hplain (.bind (.call ⟨rfl, rfl⟩) fun _ => .ret _) x
  | true =>
  refine wp_bind_of (Q := fun _ _ => True) ?_ fun _ x _ _ =>
    hplain (.bind (.call ⟨rfl, rfl⟩) fun _ => .ret _) x
  refine wp_tryCatch.mpr (wp_mono (Q := fun _ _ => True) (X := fun _ => True) ?_
    (fun _ _ _ _ => trivial) fun x _ _ => hplain (.ret _) x)
  refine wp_bind_of wp_takePicture fun taken x _ h => ?_
  cases taken with
  | false => exact hplain (.ret _) x
  | true =>
  refine wp_step (A := fun x => Taken x.2.shot) shot_rely (h rfl) (fun _ h _ => h)
    fun x uploaded _ _ _ _ => ?_
  exact hplain (.bind (built_check _) fun _ => .ret _) _

end

/-! ## The threads -/

/-- `startVideoMode` with the parameters of the application. -/
def parts (legacy : Bool) (α : Type) (p : Prog Sys α) : Prop :=
  Prog.onlyPart (startVideoMode legacy Config.CAMERA_WIDTH Config.CAMERA_HEIGHT
    Config.STREAM_FPS) α p

theorem keeps_body {legacy : Bool} {t : Tid} (hcaller : ∀ n, t ≠ .caller n)
    (hsnapshot : t ≠ .snapshot) (hcallback : t ≠ .callback) (pc : t.Pc) :
    contract.Keeps t (fun _ => True) ((code legacy).body t pc) := by
  have hW : ∀ c, App.workerCall c = true → restricted c = false :=
    unrestricted_of rfl (fun _ => rfl) rfl rfl (by decide) (by decide)
  have hA : ∀ c, acquireCall c = true → restricted c = false :=
    unrestricted_of rfl (fun _ => rfl) rfl rfl (by decide) (by decide)
  have hG : ∀ c, gstCall c = true → restricted c = false :=
    unrestricted_of rfl (fun _ => rfl) rfl rfl (by decide) (by decide)
  have hT : ∀ c, teardownCall c = true → restricted c = false := fun c h =>
    stopping_unrestricted c (Owned.stopping_of_teardownCall h)
  have hthread : ∀ c, threadCall t c = true → restricted c = false := by
    intro c h
    cases c with
    | store f value => rw [store_of_threadCall h]; rfl
    | exchange f value => rw [exchange_of_threadCall h]; rfl
    | _ => first | rfl | cases h
  have hs : shutdownGstreamerPipeline.Built (fun c => restricted c = false) (parts legacy) :=
    Owned.built_shutdown.mono stopping_unrestricted
  refine keeps_of_unrestricted (X := parts legacy) hsnapshot ?_
    (built_appBody hW hthread ?_ ?_ ?_ ?_ ?_ (fun _ _ => hG) hcaller pc)
  · rintro α p ⟨rfl, rfl⟩
    exact keeps_startVideoMode
  · exact fun _ => ⟨built_initializeCamera hA rfl rfl rfl, built_destroy hA hT hs⟩
  · exact fun he => absurd he hsnapshot
  · exact fun _ => ⟨rfl, App.built_recoverCamera hW rfl rfl
      (built_reinitializeCamera hA hT hs fun _ => rfl)⟩
  · exact fun n _ => ⟨rfl, rfl, App.built_hlsWorkerBegin hW rfl rfl rfl (.part ⟨rfl, rfl⟩),
      built_stopVideoMode hT hs⟩
  · exact fun he => absurd he hcallback

def proof (legacy : Bool) : contract.Proof (code legacy) where
  holds t _ _ := ∀ n, t ≠ .caller n
  body t pc x _ ht := by
    have hbody : ∀ {p : Prog Sys (Option t.Pc)},
        contract.wp t p (fun _ _ => True) (fun _ => True) x →
          contract.wp t p (fun next x => ∀ pc', next = some pc' → ∀ n, t ≠ .caller n)
            (fun _ => True) x := fun h =>
      wp_mono h (fun _ _ _ _ _ _ => ht) fun _ _ h => h
    cases t with
    | snapshot =>
      cases pc with
      | begin => exact hbody (wp_aside (B := fun _ => True) ⟨rfl, rfl⟩ trivial
          fun _ _ _ _ _ _ => trivial)
      | loop => exact hbody (wp_bind_of wp_snapshotTurn fun _ _ _ _ _ _ _ => trivial)
    | callback => exact hbody (wp_bind_of wp_completionTurn fun _ _ _ _ _ _ _ => trivial)
    | caller n => exact absurd rfl (ht n)
    | _ => exact hbody (keeps_body ht nofun nofun pc x trivial)

def start : World × Past := (.init, ⟨none, .init⟩)

theorem valid_start (legacy : Bool) : (proof legacy).Valid ⟨start, (appStart legacy).prog⟩ := by
  apply valid_appStart _ (fun _ => ⟨rfl, rfl⟩) <;> exact fun _ _ _ => nofun

end Snapshot

/-- In every run in which no completion that sets `completed` is cancelled, and no write or flush
of a snapshot fails: what the snapshot thread uploads was captured by its own request, which has
completed, and was written whole. -/
theorem App.uploaded_picture_taken {legacy : Bool}
    {cfg : Config (code legacy) (World × Snapshot.Past)}
    (hrun : Run (system.watched Snapshot.see) (fun x l => Snapshot.good x l = true)
      ⟨Snapshot.start, (appStart legacy).prog⟩ cfg)
    (hc : cfg.pending .snapshot = some .uploadSnapshot) : Snapshot.Taken cfg.world.2.shot :=
  ((Snapshot.proof legacy).sound (Snapshot.valid_start legacy) hrun).pre hc rfl

/-- Everything goes well, apart from a start of the camera that fails, or a write. -/
def Snapshot.turns (starts writes : Bool) (t : Tid) (n : Nat) :
    List (Choice Sys Tid (World × Past) Signal) :=
  runsWith (fun x c =>
    match c with
    | .cameraStart => some (if starts then .ok else .failed)
    | .writeOutput => some writes
    | c => x.1.willing .takePicture c) t n

/-- The snapshot thread takes a picture, and libcamera completes its request in between. -/
def Snapshot.picture (writes : Bool) : List (Choice Sys Tid (World × Past) Signal) :=
  turns true writes .main 18 ++ turns true writes .snapshot 24 ++ turns true writes .callback 6 ++
    turns true writes .snapshot 14

theorem App.uploaded_picture_taken_undisturbed :
    ∃ cfg : Config (code false) (World × Snapshot.Past),
      cfg.pending .snapshot = some .uploadSnapshot ∧ Snapshot.Taken cfg.world.2.shot := by
  obtain ⟨cfg, hrun, htest⟩ := exec_reaches (system.watched Snapshot.see) Snapshot.good
    ⟨Snapshot.start, (appStart false).prog⟩ (Snapshot.picture true)
    (fun cfg => cfg.pending .snapshot = some .uploadSnapshot) (by decide +kernel)
  have hc := of_decide_eq_true htest
  exact ⟨cfg, hc, App.uploaded_picture_taken hrun hc⟩

/-- A start of video mode has failed, and its rollback stops the camera while the snapshot waits:
the cancelled request counts as the picture. -/
def Snapshot.cancelledPicture : List (Choice Sys Tid (World × Past) Signal) :=
  turns true true .main 18 ++ turns true true .check 14 ++ turns false true (.hls 0) 49 ++
    turns true true .snapshot 24 ++ turns true true (.hls 0) 2 ++ turns true true .callback 6 ++
      turns true true (.hls 0) 1 ++ turns true true .snapshot 14

/-- A picture whose request was cancelled is uploaded, and so is one whose write has failed. -/
theorem App.bad_picture_uploaded :
    (∃ (cfg : Config (code false) (World × Snapshot.Past)) (c : Completion),
      Run (system.watched Snapshot.see) (fun x l => Snapshot.configuresStopped x l = true)
        ⟨Snapshot.start, (appStart false).prog⟩ cfg ∧
        cfg.pending .snapshot = some .uploadSnapshot ∧
          cfg.world.2.shot.awaited = some c ∧ c.cancelled = true) ∧
      ∃ cfg : Config (code false) (World × Snapshot.Past),
        Run (system.watched Snapshot.see) (fun x l => Snapshot.configuresStopped x l = true)
          ⟨Snapshot.start, (appStart false).prog⟩ cfg ∧
          cfg.pending .snapshot = some .uploadSnapshot ∧ cfg.world.2.shot.wrote = false := by
  constructor
  · obtain ⟨cfg, hrun, htest⟩ := exec_reaches (system.watched Snapshot.see)
      Snapshot.configuresStopped ⟨Snapshot.start, (appStart false).prog⟩ Snapshot.cancelledPicture
      (fun cfg => cfg.pending .snapshot = some .uploadSnapshot ∧
        cfg.world.2.shot.awaited = some ⟨0, true, [.photo]⟩) (by decide +kernel)
    obtain ⟨hc, hawaited⟩ := of_decide_eq_true htest
    exact ⟨cfg, _, hrun, hc, hawaited, rfl⟩
  · obtain ⟨cfg, hrun, htest⟩ := exec_reaches (system.watched Snapshot.see)
      Snapshot.configuresStopped ⟨Snapshot.start, (appStart false).prog⟩ (Snapshot.picture false)
      (fun cfg => cfg.pending .snapshot = some .uploadSnapshot ∧ cfg.world.2.shot.wrote = false)
      (by decide +kernel)
    exact ⟨cfg, hrun, of_decide_eq_true htest⟩

end SurfCam
