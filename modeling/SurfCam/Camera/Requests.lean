import SurfCam.Camera.Footprint
import SurfCam.System

/-!
# The requests of a session

What becomes of the requests that were queued since the camera was started.  `requestComplete` is
to queue its request again, but `reuse()` has detached the buffer by then, and libcamera takes no
request without one: a request leaves the session when its completion has been delivered.
-/

namespace SurfCam

open Interaction CameraManager Contract

namespace Device

/-- The completion of request `r` is being delivered. -/
def Delivers (d : Device) (r : Nat) : Prop := ∃ c, d.delivering = some c ∧ c.request = r

/-- Request `r` is queued at the camera with its frame buffer attached, or its completion is being
delivered. -/
def Held (d : Device) (r : Nat) : Prop := r ∈ d.queued ∧ d.attached r = true ∨ d.Delivers r

/-- Request `r` exists and was not queued since the last start. -/
def Fresh (d : Device) (r : Nat) : Prop := r < d.nextRequest ∧ r ∉ d.session

/-- What is known of the requests at any moment. -/
structure Ledger (d : Device) : Prop where
  created : ∀ r ∈ d.session, r < d.nextRequest
  queued : ∀ r ∈ d.queued, r ∈ d.session ∧ d.attached r = true
  nodup : d.queued.Nodup
  delivering : ∀ c, d.delivering = some c → c.request ∈ d.session ∧ c.request ∉ d.queued
  /-- requests are cancelled by `stop()` only -/
  cancelled : ∀ c, d.delivering = some c → c.cancelled = true → d.stopping = true
  stopped : d.running = false → d.queued = [] ∧ d.delivering = none
  /-- nothing is lost before a completion was delivered -/
  kept : d.running = true → d.stopping = false → d.delivered = 0 →
    ∀ r ∈ d.session, r ∈ d.queued ∨ d.Delivers r
  /-- and something is, afterwards -/
  lost : d.delivered ≠ 0 → ∃ r ∈ d.session, r ∉ d.queued ∧ ¬ d.Delivers r

namespace Ledger

variable {d : Device}

/-- Buffers come and go at requests that are not queued. -/
theorem setAttached (h : d.Ledger) {attached : Nat → Bool}
    (hq : ∀ r ∈ d.queued, attached r = true) : { d with attached := attached }.Ledger where
  created := h.created
  queued r hr := ⟨(h.queued r hr).1, hq r hr⟩
  nodup := h.nodup
  delivering := h.delivering
  cancelled := h.cancelled
  stopped := h.stopped
  kept := h.kept
  lost := h.lost

/-- A request that is not queued may lose its buffer. -/
theorem detach (h : d.Ledger) {r : Nat} (hr : r ∉ d.queued) :
    { d with attached := Function.update d.attached r false }.Ledger := by
  refine h.setAttached fun q hq => ?_
  have hne : q ≠ r := fun he => hr (he ▸ hq)
  rw [Function.update_of_ne hne]
  exact (h.queued q hq).2

theorem attach (h : d.Ledger) (r : Nat) :
    { d with attached := Function.update d.attached r true }.Ledger := by
  refine h.setAttached fun q hq => ?_
  rw [Function.update_apply]
  split
  · rfl
  · exact (h.queued q hq).2

theorem create (h : d.Ledger) :
    { d with
      nextRequest := d.nextRequest + 1
      attached := Function.update d.attached d.nextRequest false }.Ledger := by
  have hnew : d.nextRequest ∉ d.queued :=
    fun hq => absurd (h.created _ (h.queued _ hq).1) (Nat.lt_irrefl _)
  exact { h.detach hnew with created := fun r hr => Nat.lt_succ_of_lt (h.created r hr) }

/-- A start begins a new session. -/
theorem start (h : d.Ledger) (hd : d.running = false) :
    { d with running := true, session := [], delivered := 0 }.Ledger := by
  rcases h.stopped hd with ⟨hqueued, hdelivering⟩
  constructor
  · exact fun _ => nofun
  · intro r hr
    rw [show d.queued = [] from hqueued] at hr
    cases hr
  · exact h.nodup
  · intro c hc
    cases hdelivering.symm.trans hc
  · exact h.cancelled
  · exact nofun
  · exact fun _ _ _ _ => nofun
  · exact fun hne => absurd rfl hne

/-- A request is queued for the first time. -/
theorem queue (h : d.Ledger) {r : Nat} (hr : d.Fresh r) (hd : d.running = true)
    (ha : d.attached r = true) :
    { d with queued := r :: d.queued, session := r :: d.session }.Ledger where
  created := List.forall_mem_cons.mpr ⟨hr.1, h.created⟩
  queued := List.forall_mem_cons.mpr
    ⟨⟨List.mem_cons_self, ha⟩, fun q hq => ⟨List.mem_cons_of_mem r (h.queued q hq).1, (h.queued q hq).2⟩⟩
  nodup := List.nodup_cons.mpr ⟨fun hq => hr.2 (h.queued r hq).1, h.nodup⟩
  delivering c hc := by
    rcases h.delivering c hc with ⟨hsession, hnot⟩
    refine ⟨List.mem_cons_of_mem r hsession, fun hq => ?_⟩
    rcases List.mem_cons.mp hq with rfl | hq
    · exact hr.2 hsession
    · exact hnot hq
  cancelled := h.cancelled
  stopped hstopped := absurd (hd.symm.trans hstopped) nofun
  kept _ hstopping hnone := List.forall_mem_cons.mpr
    ⟨.inl List.mem_cons_self,
      fun q hq => (h.kept hd hstopping hnone q hq).imp (List.mem_cons_of_mem r) id⟩
  lost hsome := by
    rcases h.lost hsome with ⟨q, hsession, hnot, hdelivers⟩
    refine ⟨q, List.mem_cons_of_mem r hsession, fun hq => ?_, hdelivers⟩
    rcases List.mem_cons.mp hq with rfl | hq
    · exact hr.2 hsession
    · exact hnot hq

theorem stopBegin (h : d.Ledger) : { d with stopping := true }.Ledger :=
  { h with cancelled := fun _ _ _ => rfl, kept := nofun }

theorem stopEnd (h : d.Ledger) (hqueued : d.queued = []) (hdelivering : d.delivering = none) :
    { d with stopping := false, running := false }.Ledger where
  created := h.created
  queued := h.queued
  nodup := h.nodup
  delivering := h.delivering
  cancelled c hc := by
    cases hdelivering.symm.trans hc
  stopped _ := ⟨hqueued, hdelivering⟩
  kept := nofun
  lost := h.lost

/-- A queued request is completed, and its delivery begins. -/
theorem complete (h : d.Ledger) {c : Completion} (hd : d.running = true)
    (hnone : d.delivering = none) (hc : c.request ∈ d.queued)
    (hcancelled : c.cancelled = true → d.stopping = true) :
    { d with queued := d.queued.erase c.request, delivering := some c }.Ledger where
  created := h.created
  queued r hr := h.queued r (List.mem_of_mem_erase hr)
  nodup := h.nodup.erase c.request
  delivering := by
    rintro _ ⟨⟩
    exact ⟨(h.queued _ hc).1, fun hq => (h.nodup.mem_erase_iff.mp hq).1 rfl⟩
  cancelled := by
    rintro _ ⟨⟩
    exact hcancelled
  stopped hstopped := absurd (hd.symm.trans hstopped) nofun
  kept _ hstopping hdelivered r hr := by
    -- the request moves from the queue to the delivery, and the others stay
    rcases h.kept hd hstopping hdelivered r hr with hq | ⟨_, hdelivering, _⟩
    · by_cases he : c.request = r
      · exact .inr ⟨c, rfl, he⟩
      · exact .inl (h.nodup.mem_erase_iff.mpr ⟨Ne.symm he, hq⟩)
    · cases hnone.symm.trans hdelivering
  lost hsome := by
    rcases h.lost hsome with ⟨r, hsession, hnot, -⟩
    refine ⟨r, hsession, fun hq => hnot (List.mem_of_mem_erase hq), ?_⟩
    rintro ⟨_, ⟨⟩, rfl⟩
    exact hnot hc

/-- The delivery of a request ends: it is lost, unless the camera is being stopped. -/
theorem deliver (h : d.Ledger) :
    { d with
      delivering := none
      delivered :=
        if d.delivering.any fun c : Completion => !c.cancelled then d.delivered + 1
        else d.delivered }.Ledger where
  created := h.created
  queued := h.queued
  nodup := h.nodup
  delivering := nofun
  cancelled := nofun
  stopped hstopped := ⟨(h.stopped hstopped).1, rfl⟩
  kept hd hstopping hdelivered r hr := by
    rcases hc : d.delivering with _ | c
    · rw [hc] at hdelivered
      rcases h.kept hd hstopping hdelivered r hr with hq | ⟨_, hdelivering, _⟩
      · exact .inl hq
      · cases hc.symm.trans hdelivering
    · -- a completion without cancellation counts, and there is no other before a stop
      have hnot : c.cancelled = false := by
        refine Bool.eq_false_iff.mpr fun hcancelled => ?_
        cases hstopping.symm.trans (h.cancelled c hc hcancelled)
      rw [hc, Option.any_some, hnot] at hdelivered
      cases hdelivered
  lost hsome := by
    rcases hc : d.delivering with _ | c
    · rw [hc] at hsome
      rcases h.lost hsome with ⟨r, hsession, hnot, -⟩
      exact ⟨r, hsession, hnot, nofun⟩
    · exact ⟨c.request, (h.delivering c hc).1, (h.delivering c hc).2, nofun⟩

/-- Before the camera is stopped, the session has all its requests as long as no completion was
delivered. -/
theorem held_iff (h : d.Ledger) (hd : d.running = true) (hstopping : d.stopping = false) :
    (∀ r ∈ d.session, d.Held r) ↔ d.delivered = 0 := by
  constructor
  · intro hall
    by_contra hsome
    rcases h.lost hsome with ⟨r, hsession, hnot, hdelivers⟩
    exact (hall r hsession).elim (fun hq => hnot hq.1) hdelivers
  · intro hnone r hr
    exact (h.kept hd hstopping hnone r hr).imp (fun hq => ⟨hq, (h.queued r hq).2⟩) id

end Ledger

end Device

namespace Requests

/-- Who makes which call on a request or on the camera: the caller queues requests that it has just
created, and the callback recycles the one that was completed, which has no buffer then. -/
def Allowed (t : Tid) (d : Device) : SysCall → Prop
  | .createRequest | .cameraStart => t = .caller 0
  | .addBuffer r => t = .caller 0 ∧ d.Fresh r
  | .queueRequest r => t = .caller 0 ∧ d.Fresh r ∨ t = .callback ∧ d.attached r = false
  | .reuse r => t = .callback ∧ d.Delivers r
  | .nextCompletion | .completionDone => t = .callback
  | _ => True

section

variable {t : Tid} {d : Device} {c : SysCall} {r : c.Reply}

/-- Every allowed call keeps the ledger. -/
theorem ledger_after (h : d.Ledger) (hc : Allowed t d c)
    (hr : World.deviceAnswers d c r = true) : (World.deviceAfter t d c r).Ledger := by
  cases c with
  | connect s => cases r <;> exact { h with }
  | disconnect s => exact { h with }
  | pendingPush q => exact { h with }
  | pendingClear => exact { h with }
  | createRequest =>
    cases r with
    | request q =>
      have hq : q = d.nextRequest := of_decide_eq_true hr
      subst hq
      exact h.create
    | null => exact h
    | threw => exact h
  | addBuffer q =>
    cases r with
    | ok => exact h.attach q
    | failed => exact h
    | threw => exact h
  | reuse q =>
    rcases hc.2 with ⟨completion, hdelivering, rfl⟩
    exact h.detach (h.delivering completion hdelivering).2
  | cameraStart =>
    cases r with
    | ok => exact h.start ((Bool.not_eq_true' _).mp hr)
    | failed => exact h
    | threw => exact h
  | queueRequest q =>
    cases r with
    | ok =>
      rcases Bool.and_eq_true_iff.mp hr with ⟨hd, ha⟩
      -- the callback has no success here: libcamera refuses a request without a buffer
      rcases hc with ⟨rfl, hfresh⟩ | ⟨-, hdetached⟩
      · exact h.queue hfresh hd ha
      · cases hdetached.symm.trans ha
    | failed => exact h
    | threw => exact h
  | stopBegin => exact h.stopBegin
  | stopEnd =>
    rcases of_decide_eq_true hr with ⟨hqueued, hdelivering⟩
    exact h.stopEnd hqueued hdelivering
  | nextCompletion =>
    change (d.running && d.delivering.isNone && decide (r.request ∈ d.queued) &&
      (!r.cancelled || d.stopping) && decide (r.slots = d.slots)) = true at hr
    simp only [Bool.and_eq_true, Bool.or_eq_true, Bool.not_eq_true', decide_eq_true_eq,
      Option.isNone_iff_eq_none] at hr
    rcases hr with ⟨⟨⟨⟨hd, hnone⟩, hq⟩, hcancelled⟩, -⟩
    refine h.complete hd hnone hq fun hc => ?_
    exact hcancelled.resolve_left (by rw [hc]; exact nofun)
  | completionDone => exact h.deliver
  | _ => exact h

/-- Only the caller creates, queues and starts anew; the callback aside, nobody delivers. -/
theorem fresh_after {q : Nat} (h : d.Fresh q) (hc : ∀ q', c ≠ .queueRequest q')
    (hr : World.deviceAnswers d c r = true) : (World.deviceAfter t d c r).Fresh q := by
  cases c with
  | connect s => cases r <;> exact h
  | addBuffer q' => cases r <;> exact h
  | createRequest =>
    cases r with
    | request q' =>
      have hq : q' = d.nextRequest := of_decide_eq_true hr
      exact ⟨Nat.lt_succ_of_lt (hq ▸ h.1), h.2⟩
    | null => exact h
    | threw => exact h
  | cameraStart =>
    cases r with
    | ok => exact ⟨h.1, List.not_mem_nil⟩
    | failed => exact h
    | threw => exact h
  | queueRequest q' => exact absurd rfl (hc q')
  | _ => exact h

/-- What the other threads do to the session, and to the requests there are. -/
theorem session_after (hc : Allowed t d c) (ht : t ≠ .caller 0) :
    (World.deviceAfter t d c r).nextRequest = d.nextRequest ∧
      (World.deviceAfter t d c r).session = d.session := by
  cases c with
  | connect s => cases r <;> exact ⟨rfl, rfl⟩
  | addBuffer q => exact absurd hc.1 ht
  | createRequest => exact absurd hc ht
  | cameraStart => exact absurd hc ht
  | queueRequest q =>
    rcases hc with ⟨hcaller, -⟩ | ⟨rfl, -⟩
    · exact absurd hcaller ht
    · cases r <;> exact ⟨rfl, rfl⟩
  | _ => exact ⟨rfl, rfl⟩

/-- What the other threads do to a request whose completion is being delivered. -/
theorem delivering_after {completion : Completion} (h : d.Ledger)
    (hdelivering : d.delivering = some completion) (hc : Allowed t d c) (ht : t ≠ .callback) :
    (World.deviceAfter t d c r).delivering = some completion ∧
      (d.attached completion.request = false →
        (World.deviceAfter t d c r).attached completion.request = false) := by
  have hsession := (h.delivering completion hdelivering).1
  cases c with
  | connect s => cases r <;> exact ⟨hdelivering, id⟩
  | createRequest =>
    cases r with
    | request q =>
      refine ⟨hdelivering, fun ha => ?_⟩
      show Function.update d.attached q false completion.request = false
      rw [Function.update_apply, ha, ite_self]
    | null => exact ⟨hdelivering, id⟩
    | threw => exact ⟨hdelivering, id⟩
  | addBuffer q =>
    cases r with
    | ok =>
      refine ⟨hdelivering, fun ha => ?_⟩
      -- a fresh request is not the delivered one, which is in the session
      have hne : completion.request ≠ q := fun he => hc.2.2 (he ▸ hsession)
      show Function.update d.attached q true completion.request = false
      rw [Function.update_of_ne hne, ha]
    | failed => exact ⟨hdelivering, id⟩
    | threw => exact ⟨hdelivering, id⟩
  | reuse q => exact absurd hc.1 ht
  | nextCompletion => exact absurd hc ht
  | completionDone => exact absurd hc ht
  | cameraStart => cases r <;> exact ⟨hdelivering, id⟩
  | queueRequest q => cases r <;> exact ⟨hdelivering, id⟩
  | _ => exact ⟨hdelivering, id⟩

end

def contract : Contract system (anyStep (S := Sys) (T := Tid)) where
  inv w := w.device.Ledger
  pre t c w := Allowed t w.device c
  rely t w w' :=
    (t = .caller 0 → w'.device.nextRequest = w.device.nextRequest ∧
      w'.device.session = w.device.session) ∧
    (t = .callback → ∀ c, w.device.delivering = some c → w'.device.delivering = some c ∧
      (w.device.attached c.request = false → w'.device.attached c.request = false))
  rely_refl _ _ := ⟨fun _ => ⟨rfl, rfl⟩, fun _ _ hc => ⟨hc, id⟩⟩
  rely_trans h h' :=
    ⟨fun ht => ⟨(h'.1 ht).1.trans (h.1 ht).1, (h'.1 ht).2.trans (h.1 ht).2⟩, fun ht c hc =>
      have hfirst := h.2 ht c hc
      have hsecond := h'.2 ht c hfirst.1
      ⟨hsecond.1, hsecond.2 ∘ hfirst.2⟩⟩
  inv_act hi hpre _ hact := by
    rcases system_act.mp hact with ⟨hanswer, rfl⟩
    exact ledger_after hi hpre (World.device_of_answers hanswer)
  inv_env hi _ henv := by
    cases henv
    exact hi
  rely_act hne hi hpre _ hact := by
    rcases system_act.mp hact with ⟨-, rfl⟩
    refine ⟨?_, ?_⟩
    · rintro rfl
      exact session_after hpre (Ne.symm hne)
    · rintro rfl c hc
      exact delivering_after hi hc hpre (Ne.symm hne)
  rely_env _ _ henv := by
    cases henv
    exact ⟨fun _ => ⟨rfl, rfl⟩, fun _ _ hc => ⟨hc, id⟩⟩

theorem fresh_rely {q : Nat} (w w' : World) (hr : contract.rely (.caller 0) w w')
    (_ : contract.inv w') (h : w.device.Fresh q) : w'.device.Fresh q := by
  rcases hr.1 rfl with ⟨hnext, hsession⟩
  rw [Device.Fresh, hnext, hsession]
  exact h

/-- The calls that the caller may make anywhere. -/
def Plain (c : SysCall) : Prop := ∀ d, Allowed (.caller 0) d c

theorem plain_of_operationCall {c : SysCall} (h : operationCall c = true) : Plain c := by
  intro d
  cases c <;> trivial

theorem plain_of_waitCall {c : SysCall} (h : waitCall c = true) : Plain c := by
  intro d
  cases c <;> trivial

/-- Code that queues no request. -/
theorem keeps_of_plain {α : Type} {X : ∀ α : Type, Prog Sys α → Prop} {p : Prog Sys α}
    (hX : ∀ α p, X α p → contract.Keeps (.caller 0) (fun _ => True) p) (hp : p.Built Plain X) :
    contract.Keeps (.caller 0) (fun _ => True) p :=
  keeps_of_built true_rely (fun _ hc w _ _ => ⟨hc w.device, fun _ _ _ _ => trivial⟩) hX hp

/-- A call that leaves a new request new. -/
theorem fresh_call {c : SysCall} {q : Nat} {w : World} (hc : ∀ q', c ≠ .queueRequest q')
    (hallowed : Allowed (.caller 0) w.device c) (h : w.device.Fresh q) :
    contract.pre (.caller 0) c w ∧ ∀ r w', anyStep w (.act (.caller 0) c r : Label Sys Tid Signal) →
      system.act (.caller 0) c r w = some w' → w'.device.Fresh q := by
  refine ⟨hallowed, fun r w' _ hact => ?_⟩
  rcases system_act.mp hact with ⟨hanswer, rfl⟩
  exact fresh_after h hc (World.device_of_answers hanswer)

/-- `createRequest` makes a new request. -/
theorem fresh_of_create {q : Nat} {w w' : World} (h : w.device.Ledger)
    (hact : system.act (.caller 0) .createRequest (.request q) w = some w') :
    w'.device.Fresh q := by
  rcases system_act.mp hact with ⟨hanswer, rfl⟩
  have hq : q = w.device.nextRequest := of_decide_eq_true (World.device_of_answers hanswer)
  refine ⟨Nat.lt_succ_self q, fun hsession => ?_⟩
  exact absurd (hq ▸ h.created q hsession) (Nat.lt_irrefl _)

theorem built_shutdown {X : ∀ α : Type, Prog Sys α → Prop} :
    shutdownGstreamerPipeline.Built Plain X := by
  refine built_shutdownGstreamerPipeline (fun c h d => ?_) (fun _ => trivial) fun _ => trivial
  cases c <;> trivial

theorem plain_of_teardownCall {c : SysCall} (h : teardownCall c = true) : Plain c :=
  plain_of_operationCall (by simp [operationCall, h])

theorem plain_of_photoCall {c : SysCall} (h : photoCall c = true) : Plain c :=
  plain_of_operationCall (by simp [operationCall, h])

/-- Code of plain calls may run anywhere. -/
theorem wp_of_plain {α : Type} {p : Prog Sys α} {w : World} (hp : p.Built Plain Prog.noParts) :
    contract.wp (.caller 0) p (fun _ _ => True) (fun _ => True) w :=
  wp_of_built hp fun _ hc w _ => hc w.device

/-- The request of `queueBuffer` is new until it is queued. -/
theorem keeps_queueBuffer {legacy : Bool} :
    contract.Keeps (.caller 0) (fun _ => True) (queueBuffer legacy) := by
  have hrollback : (rollbackUnlocked legacy).Built Plain Prog.noParts :=
    built_rollbackUnlocked (fun _ => plain_of_teardownCall) built_shutdown
  intro w _
  refine wp_call_of true_rely trivial fun w hi _ => ⟨rfl, fun reply w' _ hact => ?_⟩
  cases reply with
  | null => exact wp_of_plain hrollback
  | threw => exact fun _ _ _ => trivial
  | request q =>
  have hfresh := fresh_of_create hi hact
  have hdrop : ∀ w, contract.wp (.caller 0) (sys (.dropRequest q)) (fun _ _ => True)
      (fun _ => True) w := fun w => wp_of_plain (.call fun _ => trivial)
  refine wp_ensuring_of (wp_mono (Q := fun _ _ => True) (X := fun _ => True) ?_
    (fun _ w _ _ => hdrop w) fun w _ _ => hdrop w)
  refine wp_call_of fresh_rely hfresh fun w _ hfresh => ?_
  have hadd := fresh_call (c := .addBuffer q) nofun ⟨rfl, hfresh⟩ hfresh
  refine ⟨hadd.1, fun added w' hok hact => ?_⟩
  cases added with
  | failed => exact wp_of_plain hrollback
  | threw => exact fun _ _ _ => trivial
  | ok =>
  refine wp_call_of fresh_rely (hadd.2 _ w' hok hact) fun w _ hfresh =>
    ⟨.inl ⟨rfl, hfresh⟩, fun queued w' _ _ => ?_⟩
  refine wp_of_plain ?_
  exact .bind (built_check _) fun _ => .ite hrollback <|
    .bind (built_lockGuard (fun _ => trivial) (fun _ => trivial) <|
      .bind (.call fun _ => trivial) fun _ => built_orThrow _) fun _ => .ret _

/-- A start of the camera leaves the request of `takePicture` new. -/
theorem wp_capture {legacy : Bool} {q : Nat} {w : World} (h : w.device.Fresh q) :
    contract.wp (.caller 0) (capture legacy q) (fun _ _ => True) (fun _ => True) w := by
  have hstop : cameraStop.Built Plain Prog.noParts :=
    built_cameraStop fun _ h => plain_of_teardownCall (teardownCall_of_stopCall h)
  have hwait : awaitCompletion.Built Plain Prog.noParts :=
    built_awaitCompletion fun _ => plain_of_waitCall
  refine wp_call_of fresh_rely h fun w _ h => ?_
  have hstart := fresh_call (c := .cameraStart) nofun rfl h
  refine ⟨hstart.1, fun started w' hok hact => ?_⟩
  cases started with
  | failed => exact fun _ _ _ => trivial
  | threw => exact fun _ _ _ => trivial
  | ok =>
  refine wp_call_of fresh_rely (hstart.2 _ w' hok hact) fun w _ h => ?_
  have hsleep := fresh_call (c := .sleepFor 500) nofun trivial h
  refine ⟨hsleep.1, fun _ w' hok hact => ?_⟩
  refine wp_call_of fresh_rely (hsleep.2 _ w' hok hact) fun w _ h =>
    ⟨.inl ⟨rfl, h⟩, fun queued w' _ _ => ?_⟩
  refine wp_of_plain ?_
  exact .bind (built_check _) fun _ => .ite (.bind hstop fun _ => .ret _) <|
    .bind hwait fun _ => .ite (.ret _) <|
      built_saveImage fun _ h => plain_of_photoCall (photoCall_of_imageCall h)

/-- The request of `takePicture` is new until it is queued. -/
theorem wp_captureWith {legacy : Bool} {q : Nat} {w : World} (h : w.device.Fresh q) :
    contract.wp (.caller 0) (captureWith legacy q) (fun _ _ => True) (fun _ => True) w := by
  have hdisconnect : ∀ w, contract.wp (.caller 0) (sys (.disconnect .photo)) (fun _ _ => True)
      (fun _ => True) w := fun w => wp_of_plain (.call fun _ => trivial)
  refine wp_call_of fresh_rely h fun w _ h => ?_
  have hbuffers := fresh_call (c := .allocatorBuffers .photo) nofun trivial h
  refine ⟨hbuffers.1, fun buffers w' hok hact => ?_⟩
  rcases buffers with _ | (_ | _)
  · exact fun _ _ _ => trivial
  · exact fun _ _ _ => trivial
  refine wp_call_of fresh_rely (hbuffers.2 _ w' hok hact) fun w _ h => ?_
  have hadd := fresh_call (c := .addBuffer q) nofun ⟨rfl, h⟩ h
  refine ⟨hadd.1, fun added w' hok hact => ?_⟩
  cases added with
  | failed => exact fun _ _ _ => trivial
  | threw => exact fun _ _ _ => trivial
  | ok =>
  refine wp_call_of fresh_rely (hadd.2 _ w' hok hact) fun w _ h => ?_
  have hstore := fresh_call (c := .store .completed false) nofun trivial h
  refine ⟨hstore.1, fun _ w' hok hact => ?_⟩
  refine wp_call_of fresh_rely (hstore.2 _ w' hok hact) fun w _ h => ?_
  have hconnect := fresh_call (c := .connect .photo) nofun trivial h
  refine ⟨hconnect.1, fun connected w' hok hact => ?_⟩
  have hfresh := hconnect.2 _ w' hok hact
  cases connected with
  | failed => exact fun _ _ _ => trivial
  | threw => exact fun _ _ _ => trivial
  | ok =>
  exact wp_ensuring_of (wp_mono (wp_capture hfresh) (fun _ w _ _ => hdisconnect w)
    fun w _ _ => hdisconnect w)

theorem keeps_photoRequest {legacy : Bool} :
    contract.Keeps (.caller 0) (fun _ => True) (photoRequest legacy) := by
  intro w _
  refine wp_call_of true_rely trivial fun w hi _ => ⟨rfl, fun reply w' _ hact => ?_⟩
  cases reply with
  | null => exact fun _ _ _ => trivial
  | threw => exact fun _ _ _ => trivial
  | request q =>
  have hdrop : ∀ w, contract.wp (.caller 0) (sys (.dropRequest q)) (fun _ _ => True)
      (fun _ => True) w := fun w => wp_of_plain (.call fun _ => trivial)
  exact wp_ensuring_of (wp_mono (wp_captureWith (fresh_of_create hi hact))
    (fun _ w _ _ => hdrop w) fun w _ _ => hdrop w)

/-- The parts of the operations with a proof of their own. -/
def parts (legacy : Bool) (α : Type) (p : Prog Sys α) : Prop :=
  Prog.onlyPart (queueBuffer legacy) α p ∨ Prog.onlyPart (photoRequest legacy) α p

theorem keeps_callerBody {legacy initialized : Bool} :
    contract.Keeps (.caller 0) (fun _ => True) (callerBody legacy initialized) := by
  have hq : (queueBuffer legacy).Built Plain (parts legacy) := .part (.inl ⟨rfl, rfl⟩)
  have hr : (photoRequest legacy).Built Plain (parts legacy) := .part (.inr ⟨rfl, rfl⟩)
  refine keeps_of_plain ?_ (built_callerBody legacy (fun _ => trivial)
    (built_operate (fun _ => plain_of_operationCall) built_shutdown hq hr) initialized)
  rintro α p (⟨rfl, rfl⟩ | ⟨rfl, rfl⟩)
  · exact keeps_queueBuffer
  · exact keeps_photoRequest

/-! ## The callback -/

/-- The completion `c` is being delivered. -/
theorem delivering_rely {c : Completion} (w w' : World) (hr : contract.rely .callback w w')
    (_ : contract.inv w') (h : w.device.delivering = some c) : w'.device.delivering = some c :=
  (hr.2 rfl c h).1

/-- A slot makes no call that is about a request, `recycleVideoRequest` apart. -/
theorem slot_call {t : Tid} {c : SysCall} {completion : Completion} {w : World}
    (hc : slotCall c = true ∨ slotGuardCall c = true) (h : w.device.delivering = some completion) :
    contract.pre t c w ∧ ∀ r w', anyStep w (.act t c r : Label Sys Tid Signal) →
      system.act t c r w = some w' → w'.device.delivering = some completion := by
  refine ⟨?_, fun r w' _ hact => ?_⟩
  · cases c <;> first | trivial | (rcases hc with hc | hc <;> cases hc)
  · rcases system_act.mp hact with ⟨-, rfl⟩
    cases c <;> first | exact h | (rcases hc with hc | hc <;> cases hc)

/-- The completion `c` is being delivered, and its request has no buffer. -/
def Detached (c : Completion) (w : World) : Prop :=
  w.device.delivering = some c ∧ w.device.attached c.request = false

theorem detached_rely {c : Completion} (w w' : World) (hr : contract.rely .callback w w')
    (_ : contract.inv w') (h : Detached c w) : Detached c w' :=
  ⟨(hr.2 rfl c h.1).1, (hr.2 rfl c h.1).2 h.2⟩

/-- The calls of `recycleVideoRequest` after `reuse()`. -/
def afterReuse (request : Nat) : List SysCall :=
  [.isSet .camera_, .cameraIsRunning, .queueRequest request]

theorem detached_call {call : SysCall} {c : Completion} {w : World}
    (hcall : call ∈ afterReuse c.request) (h : Detached c w) :
    contract.pre .callback call w ∧
      ∀ r w', anyStep w (.act .callback call r : Label Sys Tid Signal) →
        system.act .callback call r w = some w' → Detached c w' := by
  simp only [afterReuse, List.mem_cons, List.not_mem_nil, or_false] at hcall
  rcases hcall with rfl | rfl | rfl
  · refine ⟨trivial, fun r w' _ hact => ?_⟩
    rcases system_act.mp hact with ⟨-, rfl⟩
    exact h
  · refine ⟨trivial, fun r w' _ hact => ?_⟩
    rcases system_act.mp hact with ⟨-, rfl⟩
    exact h
  · refine ⟨.inr ⟨rfl, h.2⟩, fun r w' _ hact => ?_⟩
    rcases system_act.mp hact with ⟨-, rfl⟩
    cases r <;> exact h

/-- The request is detached, and queued without a buffer. -/
theorem keeps_recycleVideoRequest {legacy : Bool} {c : Completion} :
    contract.Keeps .callback (fun w => w.device.delivering = some c)
      (recycleVideoRequest legacy c.request) := by
  intro w h
  refine wp_call_of delivering_rely h fun w _ h => ⟨⟨rfl, c, h, rfl⟩, fun _ w' _ hact => ?_⟩
  -- `reuse()` drops the buffers of the request
  have hdetached : Detached c w' := by
    rcases system_act.mp hact with ⟨-, rfl⟩
    exact ⟨h, Function.update_self ..⟩
  refine wp_mono (keeps_of_built (P := fun call : SysCall => call ∈ afterReuse c.request)
    (X := Prog.noParts) detached_rely (fun _ hcall _ _ h => detached_call hcall h)
    (fun _ _ h => h.elim) ?_ w' hdetached)
    (fun _ _ _ h => h.1) fun _ _ h => h.1
  have hcamera : .isSet .camera_ ∈ afterReuse c.request := .head _
  have hrunning : .cameraIsRunning ∈ afterReuse c.request := .tail _ (.head _)
  have hqueue : .queueRequest c.request ∈ afterReuse c.request := .tail _ (.tail _ (.head _))
  refine .bind (.call hcamera) fun _ => .ite (.ret _) ?_
  refine .ite (.bind (.ret _) fun _ => ?_) (.bind (.call hrunning) fun _ => ?_) <;>
    exact .ite (.ret _) (.bind (.call hqueue) fun _ => .ret _)

theorem wp_completionTurn {legacy : Bool} {w : World} :
    contract.wp .callback (completionTurn legacy) (fun _ _ => True) (fun _ => True) w := by
  refine wp_call_of true_rely trivial fun w _ _ => ⟨rfl, fun c w' _ hact => ?_⟩
  have hdelivering : w'.device.delivering = some c := by
    rcases system_act.mp hact with ⟨-, rfl⟩
    rfl
  have hslots : contract.Keeps .callback (fun w => w.device.delivering = some c)
      (runSlots legacy c.request c.slots) := by
    refine keeps_of_built (P := fun call => slotCall call = true ∨ slotGuardCall call = true)
      delivering_rely (fun _ hcall _ _ h => slot_call hcall h) ?_
      (built_slots (fun _ => .inl) (fun _ => .inr) .self c.slots)
    rintro α p ⟨rfl, rfl⟩
    exact keeps_recycleVideoRequest
  refine wp_bind_of (wp_mono (hslots w' hdelivering) (R := fun _ _ => True)
    (Y := fun _ => True) ?_ ?_) ?_
  · exact fun _ _ _ _ => trivial
  · exact fun _ _ _ => trivial
  · exact fun _ w _ _ _ _ _ => ⟨rfl, fun _ _ _ _ _ _ _ => trivial⟩

def proof (legacy : Bool) : contract.Proof (code legacy) where
  holds
    | .caller 0, _, _ => True
    | .callback, _, _ => True
    | .gst _, _, _ => True
    | _, _, _ => False
  body t pc w _ h := by
    cases t with
    | caller n =>
      cases n with
      | zero =>
        exact wp_mono (keeps_callerBody w trivial) (fun _ _ _ _ _ _ => trivial) fun _ _ h => h
      | succ n => exact h.elim
    | callback => exact wp_bind_of wp_completionTurn fun _ _ _ _ _ _ _ _ _ => trivial
    | gst n =>
      refine wp_mono (wp_of_built (built_gstBody pc fun _ h => h) ?_) (fun _ _ _ _ _ _ => trivial)
        fun _ _ h => h
      intro c hc w _
      show Allowed (.gst n) w.device c
      cases c <;> trivial
    | _ => exact h.elim

theorem ledger_init : Device.init.Ledger where
  created _ := nofun
  queued _ := nofun
  nodup := List.nodup_nil
  delivering _ := nofun
  cancelled _ := nofun
  stopped _ := ⟨rfl, rfl⟩
  kept := nofun
  lost h := absurd rfl h

theorem valid_start (legacy : Bool) : (proof legacy).Valid (callerStart legacy) := by
  apply valid_callerStart _ ledger_init
  · exact fun _ _ _ => trivial
  · exact fun _ _ => trivial
  · exact fun _ _ _ _ => trivial

end Requests

/-- In every run, while the camera is running and not being stopped: every request of the session
is queued with its frame buffer attached, or its completion is being delivered, if and only if no
completion has been delivered since the camera was started. -/
theorem CameraManager.held_iff_none_delivered {legacy : Bool} {cfg : Config (code legacy) World}
    (hrun : Run system anyStep (callerStart legacy) cfg)
    (hrunning : cfg.world.device.running = true) (hstopping : cfg.world.device.stopping = false) :
    (∀ r ∈ cfg.world.device.session, cfg.world.device.Held r) ↔
      cfg.world.device.delivered = 0 :=
  ((Requests.proof legacy).sound (Requests.valid_start legacy) hrun).inv.held_iff hrunning
    hstopping

/-- After a start of video mode, all its requests are held. -/
theorem CameraManager.held_after_start :
    ∃ cfg : Config (code false) World, cfg.world.flag .isVideoMode_ = true ∧
      cfg.world.device.session ≠ [] ∧
        ((∀ r ∈ cfg.world.device.session, cfg.world.device.Held r) ↔
          cfg.world.device.delivered = 0) ∧
          ∀ r ∈ cfg.world.device.session, cfg.world.device.Held r := by
  obtain ⟨cfg, hrun, htest⟩ := exec_reaches system (fun _ _ => true) (callerStart false)
    (runs (.caller 0) .initializeCamera 12 ++ runs (.caller 0) (.startVideoMode 1280 720 30) 54)
    (fun cfg => cfg.world.flag .isVideoMode_ = true ∧ cfg.world.device.session ≠ [] ∧
      cfg.world.device.running = true ∧ cfg.world.device.stopping = false ∧
        cfg.world.device.delivered = 0) (by decide +kernel)
  rcases of_decide_eq_true htest with ⟨hvideo, hsession, hrunning, hstopping, hnone⟩
  have hiff := CameraManager.held_iff_none_delivered (hrun.mono fun _ _ _ => trivial) hrunning
    hstopping
  exact ⟨cfg, hvideo, hsession, hiff, hiff.mpr hnone⟩

/-- Libcamera accepts every request that carries a buffer, while the camera is running. -/
def Requests.accepts (w : World) : Label Sys Tid Signal → Bool
  | .act _ (.queueRequest r) reply =>
    w.device.running && w.device.attached r → reply = .ok
  | _ => true

/-- The frame of the first completion is pushed, and its request is lost. -/
theorem CameraManager.request_lost :
    ∃ (cfg : Config (code false) World) (r : Nat),
      Run system (fun w l => Requests.accepts w l = true) (callerStart false) cfg ∧
        cfg.world.flag .isVideoMode_ = true ∧ cfg.world.device.running = true ∧
          cfg.world.device.stopping = false ∧ r ∈ cfg.world.device.session ∧
            ¬ cfg.world.device.Held r := by
  obtain ⟨cfg, hrun, htest⟩ := exec_reaches system Requests.accepts (callerStart false)
    (runs (.caller 0) .initializeCamera 12 ++ runs (.caller 0) (.startVideoMode 1280 720 30) 54 ++
      runs .callback .takePicture 24)
    (fun cfg => cfg.world.flag .isVideoMode_ = true ∧ cfg.world.device.running = true ∧
      cfg.world.device.stopping = false ∧ 0 ∈ cfg.world.device.session ∧
        0 ∉ cfg.world.device.queued ∧ cfg.world.device.delivering = none) (by decide +kernel)
  rcases of_decide_eq_true htest with ⟨hvideo, hrunning, hstopping, hsession, hnot, hnone⟩
  refine ⟨cfg, 0, hrun, hvideo, hrunning, hstopping, hsession, ?_⟩
  rintro (hheld | ⟨_, hdelivering, _⟩)
  · exact hnot hheld.1
  · cases hnone.symm.trans hdelivering

end SurfCam
