import SurfCam.Config

/-!
# The stream decision

What one turn of `streamCheckWorker` makes of the API's answer.  Times are the readings of
`system_clock` in nanoseconds; the worker keeps the whole seconds of the last true answer, as a
`long`, and the last definitive answer.
-/

namespace SurfCam

namespace StreamCheck

/-- `duration_cast<std::chrono::seconds>`, which truncates towards zero. -/
def wholeSeconds (nanoseconds : Int) : Int := nanoseconds.tdiv 1000000000

/-- How wide a `long` is. -/
inductive LongWidth where
  | bits32
  | bits64

/-- The build of `toolchain-pi-zero.cmake`. -/
def armhf : LongWidth := .bits32

/-- The first number that is too large for a `long`. -/
def LongWidth.limit : LongWidth → Int
  | bits32 => 2147483648
  | bits64 => 9223372036854775808

/-- What a `long` keeps of an integer. -/
def LongWidth.toLong : LongWidth → Int → Int
  | bits32, n => (n + 2147483648) % 4294967296 - 2147483648
  | bits64, n => (n + 9223372036854775808) % 18446744073709551616 - 9223372036854775808

/-- The variables that `streamCheckWorker` keeps between checks. -/
structure Memory where
  apiFailureStreak : Nat := 0
  lastDefinitiveStreamOn : Bool := false
  /-- a `std::atomic<long>` -/
  lastStreamRequestTime : Int := 0
  deriving DecidableEq

/-- The updates after the API call, where `now` is the time read after it. -/
def Memory.update (long : LongWidth) (m : Memory) (now : Int) : Option Bool → Memory
  | some streamState =>
    { apiFailureStreak := 0
      lastDefinitiveStreamOn := streamState
      lastStreamRequestTime :=
        if streamState then long.toLong (wholeSeconds now) else m.lastStreamRequestTime }
  | none => { m with apiFailureStreak := m.apiFailureStreak + 1 }

/-- `withinGrace`, from the updated variables. -/
def Memory.withinGrace (m : Memory) (now : Int) : Bool :=
  m.lastStreamRequestTime ≠ 0 ∧ wholeSeconds now - m.lastStreamRequestTime < Config.STREAM_TIMEOUT

/-- `shouldStream`, from the updated variables. -/
def Memory.shouldStream (m : Memory) (now : Int) (streamState : Option Bool) : Bool :=
  streamState = some true ||
    (streamState = some false && m.withinGrace now) ||
    (streamState = none && m.lastDefinitiveStreamOn)

/-- A finished check: the time and the API's answer. -/
structure Check where
  now : Int
  streamState : Option Bool

section

variable (long : LongWidth)

/-- The variables after the checks of a history, the latest first. -/
def memory : List Check → Memory
  | [] => {}
  | c :: earlier => (memory earlier).update long c.now c.streamState

/-- The decision of the check `c` after the history `earlier`. -/
def decision (earlier : List Check) (c : Check) : Bool :=
  (memory long (c :: earlier)).shouldStream c.now c.streamState

end

/-! ## What the decision is for -/

/-- When the API last answered true. -/
def lastTrue : List Check → Option Int
  | [] => none
  | ⟨now, some true⟩ :: _ => some now
  | _ :: earlier => lastTrue earlier

/-- The last answer of the API that was not a failure. -/
def lastDefinitive : List Check → Option Bool
  | [] => none
  | ⟨_, some streamState⟩ :: _ => some streamState
  | ⟨_, none⟩ :: earlier => lastDefinitive earlier

/-- `STREAM_TIMEOUT` in nanoseconds. -/
def timeout : Int := Config.STREAM_TIMEOUT * 1000000000

/-- `STREAM_TIMEOUT` has not passed at `now` since the API last answered true. -/
def RequestedWithinTimeout (earlier : List Check) (now : Int) : Prop :=
  ∃ t, lastTrue earlier = some t ∧ now - t < timeout

/-- The stream is wanted: it is requested now, or was within the timeout, or the API is silent and
its last word was yes. -/
def Wanted (earlier : List Check) (c : Check) : Prop :=
  c.streamState = some true ∨ RequestedWithinTimeout earlier c.now ∨
    (c.streamState = none ∧ lastDefinitive earlier = some true)

/-- The readings of a clock that counts from the epoch and is not set back, the latest first. -/
structure Timed (checks : List Check) : Prop where
  nonneg : ∀ c ∈ checks, 0 ≤ c.now
  mono : checks.Pairwise fun later earlier => earlier.now ≤ later.now

/-- The whole seconds do not cut the grace of an answer at `t` short: the timeout has passed, or the
second of `t` can be kept (it is not 0, and fits), and the clock has not begun the thirtieth second
behind it. -/
def GraceKept (long : LongWidth) (t now : Int) : Prop :=
  t + timeout ≤ now ∨
    1000000000 ≤ t ∧ t < long.limit * 1000000000 ∧ now < t - t % 1000000000 + timeout

/-- When the code decides as wanted: an outage must find the last word at yes, or no true answer
within the timeout. -/
def DecidesAsWanted (long : LongWidth) (earlier : List Check) (c : Check) : Prop :=
  match c.streamState with
  | some true => True
  | some false => ∀ t, lastTrue earlier = some t → GraceKept long t c.now
  | none => lastDefinitive earlier = some true ∨ ¬ RequestedWithinTimeout earlier c.now

section

variable {long : LongWidth}

/-! ## Seconds and nanoseconds -/

theorem wholeSeconds_of_nonneg {t : Int} (ht : 0 ≤ t) : wholeSeconds t = t / 1000000000 :=
  Int.tdiv_eq_ediv_of_nonneg ht

/-- From the epoch on, whole seconds are below a bound just when the time is. -/
theorem wholeSeconds_lt_iff {now : Int} (h : 0 ≤ now) (n : Int) :
    wholeSeconds now < n ↔ now < n * 1000000000 := by
  rw [wholeSeconds_of_nonneg h]
  omega

theorem toLong_of_lt {n : Int} (h0 : 0 ≤ n) (h : n < long.limit) : long.toLong n = n := by
  cases long with
  | bits32 =>
    simp only [LongWidth.limit] at h
    simp only [LongWidth.toLong]
    omega
  | bits64 =>
    simp only [LongWidth.limit] at h
    simp only [LongWidth.toLong]
    omega

/-- What does not fit is kept as a number that is smaller by far. -/
theorem toLong_of_le {n : Int} (h : long.limit ≤ n) : long.toLong n + 30 ≤ n := by
  cases long with
  | bits32 =>
    simp only [LongWidth.limit] at h
    simp only [LongWidth.toLong]
    omega
  | bits64 =>
    simp only [LongWidth.limit] at h
    simp only [LongWidth.toLong]
    omega

/-- The grace of the code and the timeout, for a true answer at `t`. -/
theorem grace_iff_requested {t now : Int} (ht : 0 ≤ t) (hle : t ≤ now) :
    ((long.toLong (wholeSeconds t) ≠ 0 ∧
        wholeSeconds now - long.toLong (wholeSeconds t) < Config.STREAM_TIMEOUT) ↔
      now - t < timeout) ↔ GraceKept long t now := by
  have hnow : 0 ≤ now := by omega
  have hseconds : wholeSeconds t = t / 1000000000 := wholeSeconds_of_nonneg ht
  have hshown : wholeSeconds now - long.toLong (wholeSeconds t) < Config.STREAM_TIMEOUT ↔
      now < (long.toLong (wholeSeconds t) + 30) * 1000000000 := by
    rw [← wholeSeconds_lt_iff hnow, Config.STREAM_TIMEOUT]
    omega
  have htimeout : timeout = 30000000000 := rfl
  rw [hshown, GraceKept, htimeout]
  by_cases hfits : t < long.limit * 1000000000
  · have hlong : long.toLong (wholeSeconds t) = t / 1000000000 := by
      rw [hseconds]
      apply toLong_of_lt <;> omega
    rw [hlong]
    omega
  · -- the clock is far beyond what is kept
    have hlimit : long.limit ≤ wholeSeconds t := by omega
    have hlong := toLong_of_le hlimit
    omega

/-! ## The variables as functions of the history -/

theorem memory_lastDefinitive (h : List Check) :
    (memory long h).lastDefinitiveStreamOn = true ↔ lastDefinitive h = some true := by
  induction h with
  | nil => exact ⟨nofun, nofun⟩
  | cons c earlier ih =>
    rcases c with ⟨now, _ | b⟩
    · exact ih
    · exact ⟨fun hb => congrArg some hb, fun hb => Option.some.inj hb⟩

theorem memory_lastStreamRequestTime (h : List Check) : (memory long h).lastStreamRequestTime =
    ((lastTrue h).map fun t => long.toLong (wholeSeconds t)).getD 0 := by
  induction h with
  | nil => rfl
  | cons c earlier ih =>
    rcases c with ⟨now, _ | _ | _⟩
    · exact ih
    · exact ih
    · rfl

theorem withinGrace_iff (h : List Check) (now : Int) :
    (memory long h).withinGrace now = true ↔ ∃ t, lastTrue h = some t ∧
      long.toLong (wholeSeconds t) ≠ 0 ∧
        wholeSeconds now - long.toLong (wholeSeconds t) < Config.STREAM_TIMEOUT := by
  rw [Memory.withinGrace, memory_lastStreamRequestTime, decide_eq_true_eq]
  cases lastTrue h with
  | none => simp
  | some t => simp

/-! ## The three answers -/

theorem decision_some_true (earlier : List Check) (now : Int) :
    decision long earlier ⟨now, some true⟩ = true := rfl

/-- A definitive false leaves the time of the last true answer, and so the grace, alone. -/
theorem decision_some_false (earlier : List Check) (now : Int) :
    decision long earlier ⟨now, some false⟩ = (memory long earlier).withinGrace now :=
  Bool.or_false _

/-- An outage looks at the last definitive answer only. -/
theorem decision_none (earlier : List Check) (now : Int) :
    decision long earlier ⟨now, none⟩ = (memory long earlier).lastDefinitiveStreamOn := rfl

theorem wanted_some_false (earlier : List Check) (now : Int) :
    Wanted earlier ⟨now, some false⟩ ↔ RequestedWithinTimeout earlier now := by
  simp [Wanted]

theorem wanted_none (earlier : List Check) (now : Int) :
    Wanted earlier ⟨now, none⟩ ↔
      RequestedWithinTimeout earlier now ∨ lastDefinitive earlier = some true := by
  simp [Wanted]

/-- The answers of the API and the times of the checks have the stream to run: the answer is true,
or it is false and the second of the last true one is known and less than `STREAM_TIMEOUT` behind,
or there is none and the last definitive one was true. -/
def asksForStream (long : LongWidth) (earlier : List Check) (c : Check) : Bool :=
  match c.streamState with
  | some true => true
  | some false => (lastTrue earlier).any fun t => long.toLong (wholeSeconds t) ≠ 0 ∧
      wholeSeconds c.now - long.toLong (wholeSeconds t) < Config.STREAM_TIMEOUT
  | none => lastDefinitive earlier = some true

theorem decision_eq_asksForStream (earlier : List Check) (c : Check) :
    decision long earlier c = asksForStream long earlier c := by
  rcases c with ⟨now, _ | _ | _⟩
  · rw [decision_none, Bool.eq_iff_iff, memory_lastDefinitive]
    exact decide_eq_true_iff.symm
  · rw [decision_some_false, Bool.eq_iff_iff, withinGrace_iff]
    unfold asksForStream
    cases lastTrue earlier with
    | none => simp
    | some t => simp
  · rfl

/-- The time of the last true answer is that of a check. -/
theorem mem_of_lastTrue {earlier : List Check} {t : Int} (h : lastTrue earlier = some t) :
    ∃ c ∈ earlier, c.now = t := by
  induction earlier with
  | nil => cases h
  | cons c earlier ih =>
    rcases c with ⟨now, _ | _ | _⟩
    · obtain ⟨c, hc, ht⟩ := ih h
      exact ⟨c, List.mem_cons_of_mem _ hc, ht⟩
    · obtain ⟨c, hc, ht⟩ := ih h
      exact ⟨c, List.mem_cons_of_mem _ hc, ht⟩
    · exact ⟨⟨now, some true⟩, List.mem_cons_self, Option.some.inj h⟩

theorem Timed.lastTrue_le {earlier : List Check} {c : Check} (h : Timed (c :: earlier)) {t : Int}
    (ht : lastTrue earlier = some t) : 0 ≤ t ∧ t ≤ c.now := by
  obtain ⟨c', hc', rfl⟩ := mem_of_lastTrue ht
  exact ⟨h.nonneg c' (List.mem_cons_of_mem _ hc'), List.rel_of_pairwise_cons h.mono hc'⟩

/-- Within the grace and within the timeout mean the same exactly when the grace is kept. -/
theorem withinGrace_iff_requested {earlier : List Check} {c : Check} (h : Timed (c :: earlier)) :
    ((memory long earlier).withinGrace c.now = true ↔ RequestedWithinTimeout earlier c.now) ↔
      ∀ t, lastTrue earlier = some t → GraceKept long t c.now := by
  rw [withinGrace_iff, RequestedWithinTimeout]
  cases ht : lastTrue earlier with
  | none => simp
  | some t =>
    obtain ⟨h0, hle⟩ := h.lastTrue_le ht
    simp only [Option.some.injEq, exists_eq_left', forall_eq']
    exact grace_iff_requested h0 hle

/-- The code's decision is the wanted one exactly under the condition. -/
theorem decision_iff_wanted {earlier : List Check} {c : Check} (h : Timed (c :: earlier)) :
    (decision long earlier c = true ↔ Wanted earlier c) ↔ DecidesAsWanted long earlier c := by
  -- one case for each answer; only an answer of true needs no memory
  rcases c with ⟨now, _ | _ | _⟩
  · rw [decision_none, memory_lastDefinitive, wanted_none]
    show _ ↔ (lastDefinitive earlier = some true ∨ ¬ RequestedWithinTimeout earlier now)
    by_cases hdef : lastDefinitive earlier = some true
    · simp [hdef]
    · simp [hdef]
  · rw [decision_some_false, wanted_some_false]
    exact withinGrace_iff_requested h
  · exact iff_of_true (iff_of_true (decision_some_true earlier now) (Or.inl rfl)) trivial

/-- A true answer half a second after a full second, and a false one 29.9 s later: the clock has
begun the thirtieth second. -/
theorem decision_iff_wanted_late :
    (decision armhf [⟨100500000000, some true⟩] ⟨130400000000, some false⟩ = true ↔
        Wanted [⟨100500000000, some true⟩] ⟨130400000000, some false⟩) ↔
      DecidesAsWanted armhf [⟨100500000000, some true⟩] ⟨130400000000, some false⟩ :=
  decision_iff_wanted ⟨by decide, by decide⟩

end

/-- True at 100 s, a definitive false at 105 s and an outage at 110 s: the definitive false keeps
the stream on and the outage switches it off, 10 s after the last request. -/
theorem outage_in_grace_switches_off :
    let second : Int := 1000000000
    let earlier : List Check := [⟨105 * second, some false⟩, ⟨100 * second, some true⟩]
    Timed (⟨110 * second, none⟩ :: earlier) ∧ Wanted earlier ⟨110 * second, none⟩ ∧
      decision armhf earlier ⟨110 * second, none⟩ = false ∧
        decision armhf earlier ⟨110 * second, some false⟩ = true := by
  refine ⟨⟨by decide, by decide⟩, Or.inr (Or.inl ⟨_, rfl, by decide⟩), by decide, by decide⟩

end StreamCheck

end SurfCam
