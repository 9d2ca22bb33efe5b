import Mathlib.Data.List.Forall2
import SurfCam.App.Decision

/-!
# Two runs and two clocks

The grace is measured by `system_clock`, which may be set at any moment.  Two runs of
`streamCheckWorker` get the same answers at the same elapsed times, and their wall clocks show what
they like.
-/

namespace SurfCam

namespace StreamCheck

/-- A finished check: when it read the clock by the time that has elapsed, what the wall clock
showed then, and the API's answer. -/
structure Reading where
  elapsed : Int
  now : Int
  streamState : Option Bool

def Reading.check (r : Reading) : Check := ⟨r.now, r.streamState⟩

/-- The checks of a run, the latest first. -/
def checks (run : List Reading) : List Check := run.map Reading.check

/-- The same answers at the same elapsed times. -/
def SameAnswers (run run' : List Reading) : Prop :=
  List.Forall₂ (fun a b => a.elapsed = b.elapsed ∧ a.streamState = b.streamState) run run'

/-- The decisions of a run, the latest first. -/
def decisions (long : LongWidth) : List Reading → List Bool
  | [] => []
  | r :: earlier => decision long (checks earlier) r.check :: decisions long earlier

/-! ## Decisions by the elapsed time -/

/-- The check at which the API last answered true. -/
def lastRequest : List Reading → Option Reading
  | [] => none
  | r :: earlier => if r.streamState = some true then some r else lastRequest earlier

/-- What is to be decided when the grace lasts for `STREAM_TIMEOUT` of elapsed time. -/
def elapsedDecision (earlier : List Reading) (r : Reading) : Bool :=
  match r.streamState with
  | some true => true
  | some false => (lastRequest earlier).any fun q => r.elapsed - q.elapsed < timeout
  | none => lastDefinitive (checks earlier) = some true

def elapsedDecisions : List Reading → List Bool
  | [] => []
  | r :: earlier => elapsedDecision earlier r :: elapsedDecisions earlier

/-! ## When the clock keeps the grace -/

/-- By how much the clock was set between two checks: forward if positive. -/
def adjustment (q r : Reading) : Int := r.now - q.now - (r.elapsed - q.elapsed)

section

variable (long : LongWidth)

/-- The second that is kept of a true answer. -/
def Reading.kept (q : Reading) : Int := long.toLong (wholeSeconds q.now)

/-- What is lost of its time with that. -/
def Reading.lost (q : Reading) : Int := q.now - q.kept long * 1000000000

/-- What whole seconds leave out of the time of a check. -/
def Reading.part (r : Reading) : Int := r.now - wholeSeconds r.now * 1000000000

/-- After a true answer at `q`, the clock is not set forward past the rest of the grace before the
check `r`, nor back into it when it is over. -/
def GraceMeasured (q r : Reading) : Prop :=
  let rest := timeout - (r.elapsed - q.elapsed)
  if 0 < rest then q.kept long ≠ 0 ∧ adjustment q r + q.lost long - r.part < rest
  else q.kept long = 0 ∨ rest ≤ adjustment q r + q.lost long - r.part

/-- The clock of a run keeps the grace at every definitive false. -/
def Measured : List Reading → Prop
  | [] => True
  | r :: earlier =>
    Measured earlier ∧
      (r.streamState = some false → ∀ q, lastRequest earlier = some q → GraceMeasured long q r)

end

section

variable {long : LongWidth} {run run' earlier : List Reading}

theorem lastTrue_checks (run : List Reading) :
    lastTrue (checks run) = (lastRequest run).map Reading.now := by
  induction run with
  | nil => rfl
  | cons r earlier ih =>
    rcases r with ⟨elapsed, now, _ | _ | _⟩
    · exact ih
    · exact ih
    · rfl

-- What the API said does not depend on the clock.
theorem SameAnswers.lastDefinitive_eq (h : SameAnswers run run') :
    lastDefinitive (checks run) = lastDefinitive (checks run') := by
  induction h with
  | nil => rfl
  | @cons a b run run' hab _ ih =>
    obtain ⟨-, hstate⟩ := hab
    have ha : checks (a :: run) = ⟨a.now, a.streamState⟩ :: checks run := rfl
    have hb : checks (b :: run') = ⟨b.now, b.streamState⟩ :: checks run' := rfl
    rw [ha, hb, hstate]
    cases b.streamState with
    | none => exact ih
    | some streamState => rfl

theorem SameAnswers.lastRequest_eq (h : SameAnswers run run') :
    (lastRequest run).map Reading.elapsed = (lastRequest run').map Reading.elapsed := by
  induction h with
  | nil => rfl
  | @cons a b run run' hab _ ih =>
    obtain ⟨helapsed, hstate⟩ := hab
    unfold lastRequest
    rw [hstate]
    by_cases htrue : b.streamState = some true
    · rw [if_pos htrue, if_pos htrue, Option.map_some, Option.map_some, helapsed]
    · rw [if_neg htrue, if_neg htrue]
      exact ih

theorem elapsedDecision_false (r : Reading) (hr : r.streamState = some false) :
    elapsedDecision earlier r =
      ((lastRequest earlier).map Reading.elapsed).any fun e => r.elapsed - e < timeout := by
  unfold elapsedDecision
  rw [hr, Option.any_map]

/-- Decisions by the elapsed time do not depend on the clock. -/
theorem SameAnswers.elapsedDecisions_eq (h : SameAnswers run run') :
    elapsedDecisions run = elapsedDecisions run' := by
  induction h with
  | nil => rfl
  | @cons a b run run' hab h ih =>
    obtain ⟨helapsed, hstate⟩ := hab
    have hfirst : elapsedDecision run a = elapsedDecision run' b := by
      cases hb : b.streamState with
      | none =>
        unfold elapsedDecision
        rw [hstate, hb, SameAnswers.lastDefinitive_eq h]
      | some streamState =>
        cases streamState with
        | false =>
          rw [elapsedDecision_false a (hstate.trans hb), elapsedDecision_false b hb,
            SameAnswers.lastRequest_eq h, helapsed]
        | true =>
          unfold elapsedDecision
          rw [hstate, hb]
    show elapsedDecision run a :: elapsedDecisions run =
      elapsedDecision run' b :: elapsedDecisions run'
    rw [hfirst, ih]

/-- What the worker's seconds show of the time since a true answer: the elapsed time, the
adjustment of the clock, and the parts of a second that it does not keep. -/
theorem shown_lt_iff (q r : Reading) :
    wholeSeconds r.now - q.kept long < Config.STREAM_TIMEOUT ↔
      r.elapsed - q.elapsed + (adjustment q r + q.lost long - r.part) < timeout := by
  unfold adjustment Reading.lost Reading.part timeout Config.STREAM_TIMEOUT
  omega

/-- The clock shows the grace as long as it lasts, exactly when it is kept. -/
theorem grace_iff_elapsed (q r : Reading) :
    ((q.kept long ≠ 0 ∧ wholeSeconds r.now - q.kept long < Config.STREAM_TIMEOUT) ↔
      r.elapsed - q.elapsed < timeout) ↔ GraceMeasured long q r := by
  rw [shown_lt_iff]
  unfold GraceMeasured
  by_cases hrest : 0 < timeout - (r.elapsed - q.elapsed)
  · rw [if_pos hrest]
    omega
  · rw [if_neg hrest]
    omega

/-- One check: only an answer of false looks at the clock. -/
theorem decision_eq_elapsed_iff (r : Reading) :
    decision long (checks earlier) r.check = elapsedDecision earlier r ↔
      (r.streamState = some false →
        ∀ q, lastRequest earlier = some q → GraceMeasured long q r) := by
  rcases r with ⟨elapsed, now, _ | _ | _⟩
  · have hsame : decision long (checks earlier) ⟨now, none⟩ =
        elapsedDecision earlier ⟨elapsed, now, none⟩ := by
      rw [decision_none, Bool.eq_iff_iff, memory_lastDefinitive]
      exact decide_eq_true_iff.symm
    exact iff_of_true hsame nofun
  · have hfalse : decision long (checks earlier) ⟨now, some false⟩ =
        elapsedDecision earlier ⟨elapsed, now, some false⟩ ↔
          ∀ q, lastRequest earlier = some q → GraceMeasured long q ⟨elapsed, now, some false⟩ := by
      rw [decision_some_false, Bool.eq_iff_iff, withinGrace_iff, lastTrue_checks]
      unfold elapsedDecision
      cases lastRequest earlier with
      | none => simp
      | some q =>
        simp only [Option.map_some, Option.some.injEq, exists_eq_left', Option.any_some,
          decide_eq_true_eq, forall_eq']
        exact grace_iff_elapsed q ⟨elapsed, now, some false⟩
    exact hfalse.trans ⟨fun h _ => h, fun h => h rfl⟩
  · exact iff_of_true rfl nofun

/-- A run decides by the elapsed time exactly when its clock keeps the grace. -/
theorem decisions_eq_elapsed_iff (run : List Reading) :
    decisions long run = elapsedDecisions run ↔ Measured long run := by
  induction run with
  | nil => exact iff_of_true rfl trivial
  | cons r earlier ih =>
    show decision long (checks earlier) r.check :: decisions long earlier =
      elapsedDecision earlier r :: elapsedDecisions earlier ↔ _ ∧ _
    rw [List.cons_eq_cons, decision_eq_elapsed_iff, ih]
    exact and_comm

/-- Two runs with the same answers at the same elapsed times decide the same, with a grace that is
measured in elapsed time, exactly when neither clock is set forward past the rest of a grace or back
into one that is over. -/
theorem same_decisions_iff (h : SameAnswers run run') :
    (decisions long run = decisions long run' ∧ decisions long run = elapsedDecisions run) ↔
      (Measured long run ∧ Measured long run') := by
  rw [← decisions_eq_elapsed_iff, ← decisions_eq_elapsed_iff, ← h.elapsedDecisions_eq]
  constructor
  · intro hsame
    exact ⟨hsame.2, hsame.1.symm.trans hsame.2⟩
  · intro hboth
    exact ⟨hboth.1.trans hboth.2.symm, hboth.1⟩

end

/-- A request at 100 s and a false answer at 110 s, by a clock that shows the elapsed time. -/
def steadyRun : List Reading :=
  [⟨110000000000, 110000000000, some false⟩, ⟨100000000000, 100000000000, some true⟩]

/-- The same by a clock that is set by so many seconds between the two. -/
def steppedRun (seconds : Int) : List Reading :=
  [⟨110000000000, 110000000000 + seconds * 1000000000, some false⟩,
    ⟨100000000000, 100000000000, some true⟩]

theorem same_decisions_small_step :
    (decisions armhf steadyRun = decisions armhf (steppedRun 10) ∧
        decisions armhf steadyRun = elapsedDecisions steadyRun) ↔
      (Measured armhf steadyRun ∧ Measured armhf (steppedRun 10)) :=
  same_decisions_iff (.cons ⟨rfl, rfl⟩ (.cons ⟨rfl, rfl⟩ .nil))

-- A clock that is set forward by a minute cuts the grace short.
theorem clock_step_ends_grace :
    SameAnswers steadyRun (steppedRun 60) ∧ decisions armhf steadyRun = [true, true] ∧
      decisions armhf (steppedRun 60) = [false, true] :=
  ⟨.cons ⟨rfl, rfl⟩ (.cons ⟨rfl, rfl⟩ .nil), by decide, by decide⟩

end StreamCheck

end SurfCam
