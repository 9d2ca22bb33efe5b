import SurfCam.App.Readings

/-!
# The warnings of the monitor

The interval checks of whole runs of `monitorSystemResources`, by a clock that shows a signed 64-bit
number of nanoseconds and starts above zero.
-/

namespace SurfCam

namespace Monitor

/-- A turn of the loop: `now`, and what the cycle has read. -/
structure Turn where
  now : Int
  readings : Readings

/-- The readings of `steady_clock` over a run. -/
structure Steady (run : List Turn) : Prop where
  nonneg : ∀ t ∈ run, 0 ≤ t.now
  int64 : ∀ t ∈ run, IsInt64 t.now
  mono : run.Pairwise fun earlier later => earlier.now ≤ later.now

/-- The `last...Warn` before the first turn. -/
def unset (_ : Warning) : Int := timePointMin

section

variable (round : ℚ → ℚ)

/-- The interval checks of a run, the first one first. -/
def checksFrom (last : Warning → Int) : List Turn → List Check
  | [] => []
  | t :: rest =>
    let e := tryBody round t.now last t.readings
    e.checks ++ checksFrom e.last rest

def checks (run : List Turn) : List Check := checksFrom round unset run

/-- When the warning was printed last. -/
def lastPrinted (w : Warning) (earlier : List Check) : Option Int :=
  (earlier.filter fun c => c.warning = w && c.prints).getLast?.map Check.now

/-- The subtraction does not overflow, and the warning is printed exactly when it was not printed
before or more than the interval ago. -/
structure Limited (earlier : List Check) (c : Check) : Prop where
  exact : IsInt64 (c.now - c.last)
  prints : c.prints = true ↔ ∀ t ∈ lastPrinted c.warning earlier, c.now - t > kWarnInterval

/-- Every check of the list, after those before it. -/
def RateLimited (checks : List Check) : Prop :=
  ∀ earlier c later, checks = earlier ++ c :: later → Limited earlier c

/-- Both sources were read, and neither is beyond its limit. -/
def Normal (r : Readings) : Prop :=
  (r.memOk && r.tempOk) = true ∧ ¬ r.availableMemMb < 40 ∧ ¬ cpuTemp round r.tempMilliC > 75

/-! ## One cycle -/

section

variable {now : Int}

/-- `now - time_point::min()` does not fit. -/
theorem not_int64_since_min (h0 : 0 ≤ now) : ¬ IsInt64 (now - timePointMin) := by
  rw [IsInt64, timePointMin]
  omega

/-- As a 64-bit word it is negative. -/
theorem elapsed_since_min (h0 : 0 ≤ now) (h : IsInt64 now) :
    elapsed now timePointMin = now - 9223372036854775808 := by
  rw [IsInt64] at h
  rw [elapsed, timePointMin]
  omega

theorem prints_since_min (h0 : 0 ≤ now) (h : IsInt64 now) (w : Warning) :
    (Check.mk w now timePointMin).prints = false := by
  show decide (elapsed now timePointMin > kWarnInterval) = false
  rw [elapsed_since_min h0 h, decide_eq_false_iff_not, kWarnInterval]
  rw [IsInt64] at h
  omega

/-- Nothing has been printed in a cycle: each check was made against the first value. -/
structure Silent (now : Int) (e : Effects) : Prop where
  last : e.last = unset
  checks : ∀ c ∈ e.checks, c.now = now ∧ c.last = timePointMin

theorem Silent.stop {e : Effects} (h : Silent now e) : Silent now e.stop := ⟨h.last, h.checks⟩

/-- A check prints nothing and leaves its `last...Warn`. -/
theorem Silent.warn {e : Effects} (h : Silent now e) (h0 : 0 ≤ now) (hint : IsInt64 now)
    (w : Warning) : Silent now (e.warn now w) := by
  have hmin : e.last w = timePointMin := by
    rw [h.last]
    rfl
  constructor
  · show (if (Check.mk w now (e.last w)).prints then _ else e.last) = unset
    rw [hmin, prints_since_min h0 hint, if_neg Bool.false_ne_true, h.last]
  · show ∀ c ∈ e.checks ++ [⟨w, now, e.last w⟩], c.now = now ∧ c.last = timePointMin
    rw [List.forall_mem_append, List.forall_mem_singleton]
    exact ⟨h.checks, rfl, hmin⟩

theorem silent_tryBody (h0 : 0 ≤ now) (hint : IsInt64 now) (r : Readings) :
    Silent now (tryBody round now unset r) := by
  have hstart : Silent now ⟨false, unset, []⟩ := ⟨rfl, fun c hc => absurd hc List.not_mem_nil⟩
  rw [tryBody]
  by_cases hok : (r.memOk && r.tempOk) = true
  · rw [if_pos hok]
    have hlow : Silent now (if r.availableMemMb < 40 then
        (Effects.mk false unset []).stop.warn now .lowMem else ⟨false, unset, []⟩) := by
      by_cases hmem : r.availableMemMb < 40
      · rw [if_pos hmem]
        exact hstart.stop.warn h0 hint .lowMem
      · rw [if_neg hmem]
        exact hstart
    by_cases htemp : cpuTemp round r.tempMilliC > 75
    · simp only [if_pos htemp]
      exact hlow.stop.warn h0 hint .highTemp
    · simp only [if_neg htemp]
      exact hlow
  · rw [if_neg hok]
    exact hstart.warn h0 hint .proc

/-- A cycle comes to no interval check just when everything is normal. -/
theorem checks_eq_nil_iff (now : Int) (last : Warning → Int) (r : Readings) :
    (tryBody round now last r).checks = [] ↔ Normal round r := by
  have hwarn : ∀ (e : Effects) (w : Warning), (e.warn now w).checks ≠ [] := fun e w h =>
    List.cons_ne_nil _ _ (List.append_eq_nil_iff.mp h).2
  rw [tryBody, Normal]
  by_cases hok : (r.memOk && r.tempOk) = true
  · rw [if_pos hok]
    by_cases htemp : cpuTemp round r.tempMilliC > 75
    · simp only [if_pos htemp]
      exact iff_of_false (hwarn _ _) fun h => h.2.2 htemp
    · simp only [if_neg htemp]
      by_cases hmem : r.availableMemMb < 40
      · rw [if_pos hmem]
        exact iff_of_false (hwarn _ _) fun h => h.2.1 hmem
      · rw [if_neg hmem]
        exact iff_of_true rfl ⟨hok, hmem, htemp⟩
  · rw [if_neg hok]
    exact iff_of_false (hwarn _ _) fun h => hok h.1

end

/-! ## Whole runs -/

theorem Steady.tail {t : Turn} {run : List Turn} (h : Steady (t :: run)) : Steady run where
  nonneg u hu := h.nonneg u (.tail _ hu)
  int64 u hu := h.int64 u (.tail _ hu)
  mono := (List.pairwise_cons.mp h.mono).2

/-- Every check of a run is made against the first value of its `last...Warn`. -/
theorem checks_since_min {run : List Turn} (h : Steady run) :
    ∀ c ∈ checks round run, 0 ≤ c.now ∧ IsInt64 c.now ∧ c.last = timePointMin := by
  induction run with
  | nil => exact fun c hc => absurd hc List.not_mem_nil
  | cons t rest ih =>
    have hsilent := silent_tryBody round (h.nonneg t (.head _)) (h.int64 t (.head _)) t.readings
    rw [checks, checksFrom]
    show ∀ c ∈ (tryBody round t.now unset t.readings).checks ++
      checksFrom round (tryBody round t.now unset t.readings).last rest, _
    rw [hsilent.last, List.forall_mem_append]
    refine ⟨fun c hc => ?_, ih h.tail⟩
    obtain ⟨hnow, hlast⟩ := hsilent.checks c hc
    exact ⟨hnow ▸ h.nonneg t (.head _), hnow ▸ h.int64 t (.head _), hlast⟩

/-- No run prints any warning. -/
theorem no_warning_printed {run : List Turn} (h : Steady run) :
    ∀ c ∈ checks round run, c.prints = false := by
  rintro ⟨w, now, last⟩ hc
  obtain ⟨h0, hint, rfl⟩ := checks_since_min round h _ hc
  exact prints_since_min h0 hint w

theorem checks_eq_nil {run : List Turn} :
    checks round run = [] ↔ ∀ t ∈ run, Normal round t.readings := by
  suffices h : ∀ last, checksFrom round last run = [] ↔ ∀ t ∈ run, Normal round t.readings from
    h unset
  induction run with
  | nil => exact fun last => iff_of_true rfl fun t ht => absurd ht List.not_mem_nil
  | cons t rest ih =>
    intro last
    rw [checksFrom, List.append_eq_nil_iff, checks_eq_nil_iff, ih, List.forall_mem_cons]

/-- Over a run of the steady clock the warnings are limited as they should be only where the run
comes to no interval check at all: the first check of a run already overflows. -/
theorem rateLimited_iff {run : List Turn} (h : Steady run) :
    RateLimited (checks round run) ↔ ∀ t ∈ run, Normal round t.readings := by
  rw [← checks_eq_nil]
  constructor
  · intro hlimited
    cases hchecks : checks round run with
    | nil => rfl
    | cons c later =>
      obtain ⟨h0, -, hlast⟩ := checks_since_min round h c (hchecks ▸ .head _)
      have hexact := (hlimited [] c later hchecks).exact
      rw [hlast] at hexact
      exact absurd hexact (not_int64_since_min h0)
  · intro hnil earlier c later hsplit
    rw [hnil] at hsplit
    cases earlier <;> cases hsplit

end

theorem rateLimited_normal :
    RateLimited (checks id [⟨1000000000, ⟨true, 200, 488, true, 50000⟩⟩,
      ⟨31000000000, ⟨true, 190, 488, true, 52000⟩⟩]) := by
  refine (rateLimited_iff id ⟨?_, ?_, ?_⟩).mpr ?_
  · decide
  · decide
  · decide
  · simp only [List.forall_mem_cons, Normal, cpuTemp]
    norm_num

-- The first warning of low memory is not printed.
theorem low_memory_not_reported :
    (checks id [⟨1000000000, ⟨true, 10, 488, true, 50000⟩⟩]).map Check.prints = [false] ∧
      ¬ RateLimited (checks id [⟨1000000000, ⟨true, 10, 488, true, 50000⟩⟩]) := by
  constructor
  · decide +kernel
  · intro hlimited
    have hexact := (hlimited [] ⟨.lowMem, 1000000000, timePointMin⟩ [] (by decide +kernel)).exact
    exact absurd hexact (by decide)

end Monitor

end SurfCam
