import Mathlib.Algebra.Order.Field.Rat
import Mathlib.Algebra.Order.Ring.Abs
import Mathlib.Order.Monotone.Basic
import Mathlib.Tactic.NormNum

/-!
# Rounding

What comparisons with a floating-point number are left by a rounding, of which only this is known:
it keeps the order, and it leaves the numbers of the format as they are.
-/

namespace Rounding

/-- A format: the bits of the significand, and the exponents of its last bit. -/
structure Format where
  precision : Nat
  minExponent : Int
  maxExponent : Int

/-- IEEE 754 `binary32` -/
def single : Format := ⟨24, -149, 104⟩

/-- `x` is a number of the format. -/
def Format.Has (f : Format) (x : ℚ) : Prop :=
  ∃ m e : Int, |m| < 2 ^ f.precision ∧ f.minExponent ≤ e ∧ e ≤ f.maxExponent ∧ x = m * 2 ^ e

/-- `round` rounds to the format, in some direction. -/
structure RoundsTo (f : Format) (round : ℚ → ℚ) : Prop where
  mono : Monotone round
  exact : ∀ x, f.Has x → round x = x

namespace RoundsTo

variable {f : Format} {round : ℚ → ℚ} {a b x : ℚ}

theorem round_le (h : RoundsTo f round) (ha : f.Has a) (hx : x ≤ a) : round x ≤ a :=
  calc
    round x ≤ round a := h.mono hx
    _ = a := h.exact a ha

theorem le_round (h : RoundsTo f round) (hb : f.Has b) (hx : b ≤ x) : b ≤ round x :=
  calc
    b = round b := (h.exact b hb).symm
    _ ≤ round x := h.mono hx

/-- What is not between two numbers of the format is not between them when it is rounded. -/
theorem apart (h : RoundsTo f round) (ha : f.Has a) (hb : f.Has b) (hx : x ≤ a ∨ b ≤ x) :
    round x ≤ a ∨ b ≤ round x := by
  rcases hx with hx | hx
  · exact .inl (h.round_le ha hx)
  · exact .inr (h.le_round hb hx)

/-- A comparison that rounding does not change. -/
theorem lt_round_iff (h : RoundsTo f round) (ha : f.Has a) (hb : f.Has b) (hab : a < b)
    (hx : x ≤ a ∨ b ≤ x) : a < round x ↔ a < x := by
  rcases hx with hx | hx
  · exact iff_of_false (not_lt.mpr (h.round_le ha hx)) (not_lt.mpr hx)
  · exact iff_of_true (hab.trans_le (h.le_round hb hx)) (hab.trans_le hx)

end RoundsTo

/-- Where nothing is to be rounded. -/
theorem roundsTo_id (f : Format) : RoundsTo f id := ⟨monotone_id, fun _ _ => rfl⟩

end Rounding
