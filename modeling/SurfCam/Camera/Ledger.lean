import SurfCam.Camera.Footprint
import SurfCam.Logic.Trace

/-!
# The buffers of a completed request

What `requestComplete` owes for every `GstBuffer` that it allocates and every plane that it maps.
`gst_app_src_push_buffer` takes the buffer whatever it returns.
-/

namespace SurfCam

open Interaction CameraManager

/-- The calls of one completion as its buffers and planes see them.  The variable `gstBuffer` holds
the buffer that was allocated last. -/
structure Ledger where
  /-- how often each buffer was given up, the last one first -/
  givenUp : List Nat := []
  /-- a buffer was touched after it had been given up -/
  touchedLate : Bool := false
  mapped : Nat := 0
  unmapped : Nat := 0
  /-- a push has failed -/
  refused : Bool := false

namespace Ledger

def touch (l : Ledger) : Ledger :=
  { l with touchedLate := l.touchedLate || l.givenUp.head?.any fun n => n ≠ 0 }

/-- The buffer is handed over or unreferenced. -/
def giveUp (l : Ledger) : Ledger := { l.touch with givenUp := l.givenUp.modifyHead (· + 1) }

def see : (c : SysCall) → c.Reply → Ledger → Ledger
  | .bufferNewAllocate, true, l => { l with givenUp := 0 :: l.givenUp }
  | .bufferMap, _, l | .bufferUnmap, _, l => l.touch
  | .appSrcPushBuffer, pushed, l => { l.giveUp with refused := l.refused || !pushed }
  | .bufferUnref, _, l => l.giveUp
  | .mapPlane, .ok, l => { l with mapped := l.mapped + 1 }
  | .unmapPlane, _, l => { l with unmapped := l.unmapped + 1 }
  | _, _, l => l

/-- The ledger after the calls of a completion. -/
def of (events : List (Event Sys)) : Ledger := observed see {} events

/-- Every buffer was given up exactly once and not touched afterwards, and every plane released. -/
structure Balanced (l : Ledger) : Prop where
  once : ∀ n ∈ l.givenUp, n = 1
  untouched : l.touchedLate = false
  released : l.unmapped = l.mapped

/-- Between two buffers, with so many planes mapped: the ledger is balanced but for these, or a
push has failed and its buffer was given up twice. -/
structure Settled (planes : Nat) (l : Ledger) : Prop where
  released : l.mapped = l.unmapped + planes
  once : l.refused = false → (∀ n ∈ l.givenUp, n = 1) ∧ l.touchedLate = false
  twice : l.refused = true → 2 ∈ l.givenUp

theorem Settled.balanced_iff {l : Ledger} (h : Settled 0 l) : l.Balanced ↔ l.refused = false := by
  constructor
  · intro hb
    by_contra hrefused
    have htwo : 2 = 1 := hb.once 2 (h.twice (Bool.not_eq_false _ ▸ hrefused))
    omega
  · intro hrefused
    obtain ⟨honce, huntouched⟩ := h.once hrefused
    exact ⟨honce, huntouched, h.released.symm⟩

/-! ## One buffer -/

/-- The calls that the ledger is about. -/
def loud : List SysCall :=
  [.bufferNewAllocate, .bufferMap, .bufferUnmap, .appSrcPushBuffer, .bufferUnref, .mapPlane,
    .unmapPlane]

abbrev Quiet (c : SysCall) : Prop := c ∉ loud

theorem see_of_quiet {c : SysCall} (hc : Quiet c) (r : c.Reply) (l : Ledger) : see c r l = l := by
  cases c with
  | bufferNewAllocate | bufferMap | bufferUnmap | appSrcPushBuffer | bufferUnref | mapPlane
  | unmapPlane => exact absurd (by decide) hc
  | _ => rfl

section

variable {legacy : Bool} {l : Ledger} {planes : Nat}

-- A new buffer is given up once, or twice where its push fails.
theorem wlp_pushGstBuffer {X : Ledger → Prop} (h : Settled planes l) :
    (Local.observer see).wlp pushGstBuffer (fun _ => Settled planes) X
      { l with givenUp := 0 :: l.givenUp } := by
  refine Local.wlp_observer_call.mpr fun mapped => ?_
  cases mapped with
  | false =>
    refine Local.wlp_observer_call.mpr fun _ => ⟨h.released, fun hrefused => ?_, fun hrefused => ?_⟩
    · obtain ⟨honce, huntouched⟩ := h.once hrefused
      refine ⟨List.forall_mem_cons.mpr ⟨rfl, honce⟩, ?_⟩
      show ((l.touchedLate || false) || false) = false
      rw [huntouched]
      rfl
    · exact .tail _ (h.twice hrefused)
  | true =>
  refine Local.wlp_observer_call.mpr fun _ => Local.wlp_observer_call.mpr fun pushed => ?_
  cases pushed with
  | true =>
    refine ⟨h.released, fun hrefused => ?_, fun hrefused => ?_⟩
    · change (l.refused || false) = false at hrefused
      rw [Bool.or_false] at hrefused
      obtain ⟨honce, huntouched⟩ := h.once hrefused
      refine ⟨List.forall_mem_cons.mpr ⟨rfl, honce⟩, ?_⟩
      show (((l.touchedLate || false) || false) || false) = false
      rw [huntouched]
      rfl
    · change (l.refused || false) = true at hrefused
      rw [Bool.or_false] at hrefused
      exact .tail _ (h.twice hrefused)
  | false =>
    -- the failed push has taken the buffer, and the unref gives it up once more
    refine Local.wlp_observer_call.mpr fun _ => Local.wlp_observer_call.mpr fun _ =>
      ⟨h.released, fun hrefused => ?_, fun _ => .head _⟩
    change (l.refused || true) = false at hrefused
    rw [Bool.or_true] at hrefused
    cases hrefused

-- The plane is released on every way through the body of the loop.
theorem wlp_pushFrame (h : Settled 0 l) :
    (Local.observer see).wlp (pushFrame legacy) (fun _ => Settled 0) (Settled 0) l := by
  have hrest : ∀ planes : Nat, (Local.observer see).wlp (do
      if planes = 0 then return
      if (← sys .mapPlane) ≠ .ok then return
      Prog.when (← sys .bufferNewAllocate) pushGstBuffer
      sys .unmapPlane) (fun _ => Settled 0) (Settled 0) l := by
    intro planes
    by_cases hplanes : planes = 0
    · rw [if_pos hplanes]
      exact h
    rw [if_neg hplanes]
    refine Local.wlp_observer_call.mpr fun mapped => ?_
    cases mapped with
    | failed => exact h
    | threw => exact h
    | ok =>
    have hmapped : Settled 1 (see .mapPlane .ok l) :=
      ⟨congrArg (· + 1) h.released, h.once, h.twice⟩
    have hunmap : ∀ l, Settled 1 l → (Local.observer see).wlp (sys .unmapPlane)
        (fun _ => Settled 0) (Settled 0) l :=
      fun l h => Local.wlp_observer_call.mpr fun _ => ⟨h.released, h.once, h.twice⟩
    refine Local.wlp_observer_call.mpr fun allocated => ?_
    cases allocated with
    | false => exact hunmap _ hmapped
    | true =>
      show (Local.observer see).wlp (pushGstBuffer >>= fun _ => sys .unmapPlane) _ _ _
      exact Local.wlp_bind_of (wlp_pushGstBuffer hmapped) fun _ l h => hunmap l h
  refine Local.wlp_observer_call.mpr fun appsrc => ?_
  cases appsrc with
  | false => exact h
  | true =>
  cases legacy with
  | true => exact hrest 1
  | false => exact Local.wlp_observer_call.mpr fun planes => hrest planes

end

/-! ## The whole request -/

theorem built_requestComplete {legacy : Bool} (request : Nat) :
    (requestComplete legacy request).Built Quiet (Prog.onlyPart (pushFrame legacy)) := by
  have hallow : allowPipeline.Built Quiet (Prog.onlyPart (pushFrame legacy)) :=
    .bind (.call (by decide)) fun _ => .ite (.ret _) (.bind (.call (by decide)) fun _ => .ret _)
  have hrecycle : (recycleVideoRequest legacy request).Built Quiet
      (Prog.onlyPart (pushFrame legacy)) :=
    built_recycleVideoRequest fun c hc hl => by
      have hloud : ∀ c ∈ loud, recycleCall c = false := by decide
      exact Bool.false_ne_true ((hloud c hl).symm.trans hc)
  have hframes : ∀ buffers, (pushFrames legacy buffers).Built Quiet
      (Prog.onlyPart (pushFrame legacy)) := by
    intro buffers
    induction buffers with
    | zero => exact .ret _
    | succ buffers ih => exact .bind .self fun _ => ih
  refine .bind (.call (by simp [Quiet, loud])) fun _ => .ite (.ret _) <| .bind hallow fun _ =>
    .ite hrecycle <| built_lockGuard (by decide) (by decide) ?_
  exact .bind hallow fun _ => .bind (.call (by decide)) fun _ => .ite hrecycle <|
    .bind (.call (by simp [Quiet, loud])) fun _ => .bind (hframes _) fun _ => hrecycle

theorem settled_requestComplete {legacy : Bool} {request : Nat} {events : List (Event Sys)}
    {o : Option Unit} (h : Exec (requestComplete legacy request) events o) :
    Settled 0 (of events) := by
  refine h.ended (Local.wlp_observer_of_built ?_ ?_ (built_requestComplete request) ?_)
  · intro c hc r l hl
    rw [see_of_quiet hc]
    exact hl
  · rintro α p ⟨rfl, rfl⟩ l hl
    exact wlp_pushFrame hl
  · exact ⟨rfl, fun _ => ⟨nofun, rfl⟩, nofun⟩

/-- The event of a failed push. -/
def refuses : (c : SysCall) → c.Reply → Bool
  | .appSrcPushBuffer, pushed => !pushed
  | _, _ => false

theorem refused_see (c : SysCall) (r : c.Reply) (l : Ledger) :
    (see c r l).refused = (l.refused || refuses c r) := by
  cases c with
  | appSrcPushBuffer => rfl
  | bufferNewAllocate => cases r <;> exact (Bool.or_false _).symm
  | mapPlane => cases r <;> exact (Bool.or_false _).symm
  | _ => exact (Bool.or_false _).symm

end Ledger

/-- However many buffers a completed request has and however the calls for them go: every
`GstBuffer` is given up once and left alone afterwards, and every plane released, exactly when no
push fails. -/
theorem CameraManager.requestComplete_balanced_iff {legacy : Bool} {request : Nat}
    {events : List (Event Sys)} {o : Option Unit}
    (h : Exec (requestComplete legacy request) events o) :
    (Ledger.of events).Balanced ↔ ∀ e ∈ events, Ledger.refuses e.1 e.2 = false := by
  have hrefused : (Ledger.of events).refused = events.any fun e => Ledger.refuses e.1 e.2 :=
    (observed_flag Ledger.refused_see _ events).trans (Bool.false_or _)
  rw [(Ledger.settled_requestComplete h).balanced_iff, hrefused, List.any_eq_false]
  simp only [Bool.not_eq_true]

/-- The replies for a request with so many buffers, each of one plane, whose pushes go like this. -/
def Ledger.answer (buffers : Nat) (pushed : Bool) : Unit → (c : SysCall) → Option (c.Reply × Unit)
  | _, .load f => some (f = .captureActive_, ())
  | _, .isSet _ | _, .cameraIsRunning | _, .bufferNewAllocate | _, .bufferMap => some (true, ())
  | _, .requestStatusCancelled _ => some (false, ())
  | _, .requestBuffers _ => some (buffers, ())
  | _, .planeCount => some (1, ())
  | _, .mapPlane | _, .queueRequest _ => some (.ok, ())
  | _, .appSrcPushBuffer => some (pushed, ())
  | _, .lock _ | _, .unlock _ | _, .bufferUnmap | _, .bufferUnref | _, .unmapPlane | _, .reuse _
  | _, .store _ _ => some ((), ())
  | _, _ => none

theorem CameraManager.requestComplete_balanced_two :
    ∃ (events : List (Event Sys)) (o : Option Unit), Exec (requestComplete false 0) events o ∧
      (Ledger.of events).givenUp = [1, 1] ∧ (Ledger.of events).Balanced := by
  obtain ⟨events, o, h, htest⟩ := replay_reaches (Ledger.answer 2 true) (requestComplete false 0) ()
    (fun x => (Ledger.of x.1).givenUp = [1, 1] ∧ ∀ e ∈ x.1, Ledger.refuses e.1 e.2 = false)
    (by decide +kernel)
  obtain ⟨hgiven, hpushed⟩ := of_decide_eq_true htest
  exact ⟨events, o, h, hgiven, (CameraManager.requestComplete_balanced_iff h).mpr hpushed⟩

-- A buffer whose push fails is given up twice and touched after the push has taken it.
theorem CameraManager.refused_push_given_up_twice :
    ∃ (events : List (Event Sys)) (o : Option Unit), Exec (requestComplete false 0) events o ∧
      (Ledger.of events).givenUp = [2] ∧ (Ledger.of events).touchedLate = true ∧
        ¬ (Ledger.of events).Balanced := by
  obtain ⟨events, o, h, htest⟩ := replay_reaches (Ledger.answer 1 false) (requestComplete false 0)
    () (fun x => (Ledger.of x.1).givenUp = [2] ∧ (Ledger.of x.1).touchedLate = true)
    (by decide +kernel)
  obtain ⟨hgiven, htouched⟩ := of_decide_eq_true htest
  refine ⟨events, o, h, hgiven, htouched, fun hb => ?_⟩
  exact Bool.false_ne_true (hb.untouched.symm.trans htouched)

end SurfCam
