import Mathlib.Tactic.Linarith
import SurfCam.App.Readings

/-!
# When a cycle calls for a stop

The rule that the monitor is to follow, low memory or a high temperature, each from its own source,
and the texts for which it does.
-/

namespace SurfCam

namespace Monitor

open Rounding

/-! ## Numbers -/

/-- A sum in kB over 1024 is below the limit, whichever way the division rounds. -/
theorem tdiv_lt_iff (n : Int) : n.tdiv 1024 < 40 ↔ n / 1024 < 40 := by
  by_cases h : 0 ≤ n
  · rw [Int.tdiv_eq_ediv_of_nonneg h]
  · have hneg : 0 ≤ (-n).tdiv 1024 := Int.tdiv_nonneg (by omega) (by decide)
    rw [Int.neg_tdiv] at hneg
    omega

theorem single_has_int {n : Int} (h : |n| < 2 ^ 24) : single.Has n :=
  ⟨n, 0, h, by decide, by decide, by rw [zpow_zero, mul_one]⟩

/-- The next `float` above 75. -/
def nextTo75 : ℚ := 9830401 / 131072

theorem single_has_nextTo75 : single.Has nextTo75 :=
  ⟨9830401, -17, by decide, by decide, by decide, by norm_num [nextTo75]⟩

/-- The `float` arithmetic does not change the comparison. -/
theorem cpuTemp_gt_iff {round : ℚ → ℚ} (h : RoundsTo single round) (tempMilliC : Int) :
    cpuTemp round tempMilliC > 75 ↔ tempMilliC > 75000 := by
  have hlow : single.Has 75000 := single_has_int (n := 75000) (by decide)
  have hhigh : single.Has 75001 := single_has_int (n := 75001) (by decide)
  have h75 : single.Has 75 := single_has_int (n := 75) (by decide)
  have hcast : (tempMilliC : ℚ) ≤ 75000 ∨ (75001 : ℚ) ≤ tempMilliC := by
    by_cases ht : tempMilliC ≤ 75000
    · left
      exact_mod_cast ht
    · right
      exact_mod_cast (show 75001 ≤ tempMilliC by omega)
  have hquotient : round tempMilliC / 1000 ≤ 75 ∨ nextTo75 ≤ round tempMilliC / 1000 := by
    rcases h.apart hlow hhigh hcast with hle | hge
    · left
      linarith
    · right
      rw [nextTo75]
      linarith
  have hstep : (75 : ℚ) < nextTo75 := by norm_num [nextTo75]
  have hconvert : (75000 : ℚ) < round tempMilliC ↔ (75000 : ℚ) < tempMilliC :=
    h.lt_round_iff hlow hhigh (by norm_num) hcast
  show 75 < round (round tempMilliC / 1000) ↔ 75000 < tempMilliC
  rw [h.lt_round_iff h75 single_has_nextTo75 hstep hquotient, lt_div_iff₀ (by norm_num)]
  norm_num
  rw [hconvert]
  exact_mod_cast Iff.rfl

/-! ## Where the readings are defined -/

/-- The numbers of `/proc/meminfo` that are converted fit an `int`, and so do the sums. -/
structure Defined (text : Str) : Prop where
  converted : ∀ line ∈ HlsUploadPolicy.getLines text, ∀ n ∈ converted line, IsInt n
  sums : (readMemInfo text).totalMem > 0 →
    IsInt ((readMemInfo text).freeMem + (readMemInfo text).buffers) ∧
      IsInt ((readMemInfo text).freeMem + (readMemInfo text).buffers + (readMemInfo text).cached)

theorem readLines?_eq (m : MemInfo) (lines : List Str) : m.readLines? lines =
    if ∀ line ∈ lines, ∀ n ∈ converted line, IsInt n then some (lines.foldl MemInfo.readLine m)
    else none := by
  induction lines generalizing m with
  | nil => rw [MemInfo.readLines?, if_pos fun line h => absurd h List.not_mem_nil, List.foldl_nil]
  | cons line rest ih =>
    rw [MemInfo.readLines?, MemInfo.readLine?]
    by_cases h : ∀ n ∈ converted line, IsInt n
    · have hcons : (∀ l ∈ line :: rest, ∀ n ∈ converted l, IsInt n) ↔
          ∀ l ∈ rest, ∀ n ∈ converted l, IsInt n := by
        rw [List.forall_mem_cons]
        exact and_iff_right h
      rw [if_pos h, Option.bind_some, ih, List.foldl_cons]
      simp only [hcons]
    · rw [if_neg h, Option.bind_none, if_neg fun hall => h (hall line (.head _))]

/-- What the readings are where they are defined. -/
theorem readings_eq {meminfo : Option Str} (h : ∀ text ∈ meminfo, Defined text)
    (thermal : Option Str) : ∃ totalMemMb, readings meminfo thermal =
      some ⟨meminfo.isSome, availableMemMb meminfo, totalMemMb, (readThermal thermal).1,
        (readThermal thermal).2⟩ := by
  cases meminfo with
  | none => exact ⟨0, rfl⟩
  | some text =>
    have hdefined : Defined text := h text rfl
    have hread : MemInfo.readLines? {} (HlsUploadPolicy.getLines text) = some (readMemInfo text) := by
      rw [readLines?_eq, if_pos hdefined.converted, readMemInfo]
    by_cases htotal : (readMemInfo text).totalMem > 0
    · obtain ⟨hsum, hsums⟩ := hdefined.sums htotal
      refine ⟨(readMemInfo text).totalMem.tdiv 1024, ?_⟩
      have hmegabytes : (readMemInfo text).megabytes? true = some (availableMemMb (some text),
          (readMemInfo text).totalMem.tdiv 1024) := by
        rw [MemInfo.megabytes?, if_pos ⟨rfl, htotal⟩, add?, if_pos hsum, availableMemMb,
          Option.map_some]
        show Option.bind (add? _ _) _ = _
        rw [add?, if_pos hsums]
        show _ = some (if _ then _ else _, _)
        rw [if_pos htotal]
        rfl
      rw [readings, hread]
      show Option.bind ((readMemInfo text).megabytes? true) _ = _
      rw [hmegabytes]
      rfl
    · refine ⟨0, ?_⟩
      have hmegabytes : (readMemInfo text).megabytes? true =
          some (availableMemMb (some text), 0) := by
        rw [MemInfo.megabytes?, if_neg fun h => htotal h.2, availableMemMb, Option.map_some]
        show _ = some (if _ then _ else _, _)
        rw [if_neg htotal]
      rw [readings, hread]
      show Option.bind ((readMemInfo text).megabytes? true) _ = _
      rw [hmegabytes]
      rfl

/-- And where they are not. -/
theorem readings_eq_none {text : Str} (h : ¬ Defined text) (thermal : Option Str) :
    readings (some text) thermal = none := by
  by_cases hconverted : ∀ line ∈ HlsUploadPolicy.getLines text, ∀ n ∈ converted line, IsInt n
  · have hread : MemInfo.readLines? {} (HlsUploadPolicy.getLines text) = some (readMemInfo text) := by
      rw [readLines?_eq, if_pos hconverted, readMemInfo]
    have hmegabytes : (readMemInfo text).megabytes? true = none := by
      by_cases htotal : (readMemInfo text).totalMem > 0
      · rw [MemInfo.megabytes?, if_pos ⟨rfl, htotal⟩, add?]
        by_cases hsum : IsInt ((readMemInfo text).freeMem + (readMemInfo text).buffers)
        · rw [if_pos hsum]
          show Option.bind (add? _ _) _ = none
          rw [add?, if_neg fun hsums => h ⟨hconverted, fun _ => ⟨hsum, hsums⟩⟩]
          rfl
        · rw [if_neg hsum]
          rfl
      · exact absurd ⟨hconverted, fun hpos => absurd hpos htotal⟩ h
    rw [readings, hread]
    show Option.bind ((readMemInfo text).megabytes? true) _ = none
    rw [hmegabytes]
    rfl
  · rw [readings, readLines?_eq, if_neg hconverted]
    rfl

/-! ## The rule -/

/-- `/proc/meminfo` was readable, gave a positive MemTotal, and too little memory is left. -/
def ShortOfMemory (meminfo : Option Str) : Prop :=
  ∃ text ∈ meminfo, (readMemInfo text).totalMem > 0 ∧
    ((readMemInfo text).freeMem + (readMemInfo text).buffers + (readMemInfo text).cached) / 1024 < 40

/-- The thermal file was readable and gave more than 75000 millidegrees. -/
def TooHot (thermal : Option Str) : Prop :=
  (readThermal thermal).1 = true ∧ (readThermal thermal).2 > 75000

/-- Two criteria, each from its own source. -/
def CallsForStop (meminfo thermal : Option Str) : Prop := ShortOfMemory meminfo ∨ TooHot thermal

/-- Whether a cycle requests an emergency stop, where it is defined. -/
def requestsStop (round : ℚ → ℚ) (now : Int) (last : Warning → Int) (meminfo thermal : Option Str) :
    Option Bool :=
  (readings meminfo thermal).map fun r => (tryBody round now last r).stopped

theorem stopped_iff {round : ℚ → ℚ} (h : RoundsTo single round) (now : Int) (last : Warning → Int)
    (r : Readings) : (tryBody round now last r).stopped = true ↔
      (r.memOk && r.tempOk) = true ∧ (r.availableMemMb < 40 ∨ r.tempMilliC > 75000) := by
  rw [← cpuTemp_gt_iff h, tryBody]
  by_cases hok : (r.memOk && r.tempOk) = true
  · rw [if_pos hok]
    by_cases hlow : r.availableMemMb < 40
    · rw [if_pos hlow]
      by_cases hhigh : cpuTemp round r.tempMilliC > 75
      · rw [if_pos hhigh]
        exact iff_of_true rfl ⟨hok, .inl hlow⟩
      · rw [if_neg hhigh]
        exact iff_of_true rfl ⟨hok, .inl hlow⟩
    · rw [if_neg hlow]
      by_cases hhigh : cpuTemp round r.tempMilliC > 75
      · rw [if_pos hhigh]
        exact iff_of_true rfl ⟨hok, .inr hhigh⟩
      · rw [if_neg hhigh]
        exact iff_of_false Bool.false_ne_true fun h => h.2.elim hlow hhigh
  · rw [if_neg hok]
    exact iff_of_false Bool.false_ne_true fun h => hok h.1

theorem shortOfMemory_iff {meminfo : Option Str} : ShortOfMemory meminfo ↔
    (∃ text ∈ meminfo, (readMemInfo text).totalMem > 0) ∧ availableMemMb meminfo < 40 := by
  cases meminfo with
  | none =>
    constructor
    · rintro ⟨text, htext, -⟩
      cases htext
    · rintro ⟨⟨text, htext, -⟩, -⟩
      cases htext
  | some text =>
    rw [ShortOfMemory, availableMemMb, Option.map_some]
    simp only [Option.mem_some_iff, exists_eq_left']
    refine and_congr_right fun htotal => ?_
    rw [if_pos htotal, tdiv_lt_iff]

/-- Where it is defined, a cycle looks at both criteria, or at none. -/
theorem requestsStop_of_defined {round : ℚ → ℚ} (h : RoundsTo single round) (now : Int)
    (last : Warning → Int) {meminfo : Option Str} (hd : ∀ text ∈ meminfo, Defined text)
    (thermal : Option Str) : ∃ stopped, requestsStop round now last meminfo thermal = some stopped ∧
      (stopped = true ↔ (meminfo.isSome && (readThermal thermal).1) = true ∧
        (availableMemMb meminfo < 40 ∨ (readThermal thermal).2 > 75000)) := by
  obtain ⟨totalMemMb, hreadings⟩ := readings_eq hd thermal
  rw [requestsStop, hreadings, Option.map_some]
  exact ⟨_, rfl, stopped_iff h now last _⟩

/-- The texts with which a cycle follows the rule. -/
structure FollowsRule (meminfo thermal : Option Str) : Prop where
  defined : ∀ text ∈ meminfo, Defined text
  /-- memory of which nothing is known counts as none left -/
  noTotal : ∀ text ∈ meminfo, (readThermal thermal).1 = true →
    ¬ (readMemInfo text).totalMem > 0 → TooHot thermal
  /-- without a temperature the memory is not looked at -/
  noThermal : (readThermal thermal).1 = false → ¬ ShortOfMemory meminfo
  /-- nor the temperature without `/proc/meminfo` -/
  noMeminfo : meminfo = none → ¬ TooHot thermal

section

variable {meminfo thermal : Option Str}

/-- What a cycle tests, against the rule. -/
theorem followsRule_iff (hd : ∀ text ∈ meminfo, Defined text) :
    ((meminfo.isSome && (readThermal thermal).1) = true ∧
        (availableMemMb meminfo < 40 ∨ (readThermal thermal).2 > 75000) ↔
      CallsForStop meminfo thermal) ↔ FollowsRule meminfo thermal := by
  rw [Bool.and_eq_true]
  constructor
  · intro hrule
    refine ⟨hd, fun text htext hok htotal => ?_, fun hok hshort => ?_, fun hnone hhot => ?_⟩
    · -- the memory that is left stays 0
      have hzero : availableMemMb meminfo < 40 := by
        rw [htext, availableMemMb, Option.map_some]
        show (if _ then _ else (0 : Int)) < 40
        rw [if_neg htotal]
        decide
      have hcalls := hrule.mp ⟨⟨by rw [htext]; rfl, hok⟩, .inl hzero⟩
      refine hcalls.resolve_left fun hshort => ?_
      obtain ⟨⟨text', htext', hpos⟩, -⟩ := shortOfMemory_iff.mp hshort
      cases htext.symm.trans htext'
      exact htotal hpos
    · have hstop := hrule.mpr (.inl hshort)
      exact Bool.false_ne_true (hok.symm.trans hstop.1.2)
    · have hstop := hrule.mpr (.inr hhot)
      rw [hnone] at hstop
      exact Bool.false_ne_true hstop.1.1
  · intro hfollows
    constructor
    · rintro ⟨⟨hsome, hok⟩, hlow | hhigh⟩
      · obtain ⟨text, htext⟩ := Option.isSome_iff_exists.mp hsome
        by_cases htotal : (readMemInfo text).totalMem > 0
        · exact .inl (shortOfMemory_iff.mpr ⟨⟨text, htext, htotal⟩, hlow⟩)
        · exact .inr (hfollows.noTotal text htext hok htotal)
      · exact .inr ⟨hok, hhigh⟩
    · rintro (hshort | hhot)
      · obtain ⟨⟨text, htext, -⟩, hlow⟩ := shortOfMemory_iff.mp hshort
        have hok : (readThermal thermal).1 = true := by
          by_contra hnot
          exact hfollows.noThermal (Bool.eq_false_iff.mpr hnot) hshort
        exact ⟨⟨Option.isSome_iff_exists.mpr ⟨text, htext⟩, hok⟩, .inl hlow⟩
      · have hsome : meminfo.isSome = true := by
          by_contra hnot
          exact hfollows.noMeminfo (Option.not_isSome_iff_eq_none.mp hnot) hhot
        exact ⟨⟨hsome, hhot.1⟩, .inr hhot.2⟩

/-- A cycle requests a stop just when the rule calls for one, with these texts and no others. -/
theorem requestsStop_iff {round : ℚ → ℚ} (h : RoundsTo single round) (now : Int)
    (last : Warning → Int) :
    (∃ stopped, requestsStop round now last meminfo thermal = some stopped ∧
      (stopped = true ↔ CallsForStop meminfo thermal)) ↔ FollowsRule meminfo thermal := by
  by_cases hd : ∀ text ∈ meminfo, Defined text
  · obtain ⟨stopped, hstop, hiff⟩ := requestsStop_of_defined h now last hd thermal
    rw [← followsRule_iff hd, ← hiff, hstop]
    simp only [Option.some.injEq, exists_eq_left']
  · -- the conversions of `/proc/meminfo` are not defined
    refine iff_of_false ?_ fun hfollows => hd hfollows.defined
    rintro ⟨stopped, hstop, -⟩
    simp only [not_forall] at hd
    obtain ⟨text, htext, hnot⟩ := hd
    cases htext
    rw [requestsStop, readings_eq_none hnot] at hstop
    cases hstop

/-- Where every number fits, the two stores of `cycle`. -/
theorem requestsStop_eq_cycle {round : ℚ → ℚ} (h : RoundsTo single round) (now : Int)
    (last : Warning → Int) (hd : ∀ text ∈ meminfo, Defined text)
    (ht : ∀ n ∈ thermal.bind scanInt, IsInt n) :
    requestsStop round now last meminfo thermal =
      some (lowMemory meminfo thermal || highTemperature meminfo thermal) := by
  obtain ⟨stopped, hstop, hiff⟩ := requestsStop_of_defined h now last hd thermal
  have hthermal : readThermal thermal =
      ((thermal.bind scanInt).isSome, (thermal.bind scanInt).getD 0) := by
    cases thermal with
    | none => rfl
    | some text =>
      show extract text = _
      rw [extract, Option.bind_some]
      cases hscan : scanInt text with
      | none => rfl
      | some n =>
        obtain ⟨hmin, hmax⟩ := ht n hscan
        show (if _ then _ else if _ then _ else _) = _
        rw [if_neg (by omega), if_neg (by omega)]
        rfl
  rw [hstop, Option.some.injEq, Bool.eq_iff_iff, hiff, hthermal, Bool.or_eq_true, lowMemory,
    highTemperature, decide_eq_true_iff, decide_eq_true_iff]
  cases hscan : thermal.bind scanInt with
  | none => simp
  | some n => simp [and_or_left]

end

/-- Little memory is left, or it is too hot: both files are as they should be. -/
theorem requestsStop_iff_hot : ∃ stopped,
    requestsStop id 0 (fun _ => timePointMin) (some "MemTotal: 500000 kB\nMemFree: 90000 kB\n".toList)
      (some "80000\n".toList) = some stopped ∧
    (stopped = true ↔ CallsForStop (some "MemTotal: 500000 kB\nMemFree: 90000 kB\n".toList)
      (some "80000\n".toList)) := by
  refine (requestsStop_iff (roundsTo_id single) 0 _).mpr ⟨?_, ?_, ?_, nofun⟩
  · intro text htext
    cases htext
    exact ⟨by decide +kernel, by decide +kernel⟩
  · intro _ _ _ _
    exact ⟨by decide +kernel, by decide +kernel⟩
  · intro h
    exact absurd h (by decide +kernel)

-- Without a temperature 10 MB are not too little, and a `/proc/meminfo` with no line in it is.
theorem source_counts_for_both :
    (requestsStop id 0 (fun _ => timePointMin)
        (some "MemTotal: 500000 kB\nMemFree: 10240 kB\n".toList) none = some false ∧
      CallsForStop (some "MemTotal: 500000 kB\nMemFree: 10240 kB\n".toList) none) ∧
    requestsStop id 0 (fun _ => timePointMin) (some []) (some "50000\n".toList) = some true ∧
      ¬ CallsForStop (some []) (some "50000\n".toList) := by
  refine ⟨⟨by decide +kernel, .inl ⟨_, rfl, by decide +kernel⟩⟩, by decide +kernel, ?_⟩
  rintro (⟨text, htext, hpos, -⟩ | ⟨-, hhot⟩)
  · cases htext
    exact absurd hpos (by decide +kernel)
  · exact absurd hhot (by decide +kernel)

end Monitor

end SurfCam
