import Mathlib
import GraphCalc.Sampling

/-!
# GraphCalc.Proofs.Sampling

Walking in equal steps.

After `k` steps of `h` from `x` a walk stands at `(· + h)^[k] x`.  Among rational numbers that is
`x + k * h`, so how many steps a walk takes inside a range is a matter of one division:

* `iterate_add_lt_iff` — below an end, `⌈(b - x) / h⌉` positions;
* `iterate_add_le_iff` — up to an end that is not before `x`, `⌊(b - x) / h⌋ + 1` positions.
-/

namespace GraphCalc

/-- Rational numbers are turned into integers and back without rounding. -/
instance : Whole ℚ where
  ofNat n := n
  floor r := .ok ⌊r⌋

variable {x b h : ℚ} {k : Nat}

theorem iterate_add_eq (x h : ℚ) (k : Nat) : (· + h)^[k] x = x + k * h := by
  rw [add_right_iterate, nsmul_eq_mul]

/-- The positions below an end. -/
theorem iterate_add_lt_iff (hh : 0 < h) :
    (· + h)^[k] x < b ↔ k < ⌈(b - x) / h⌉.toNat := by
  rw [iterate_add_eq, Int.lt_toNat, Int.lt_ceil, lt_div_iff₀ hh, lt_sub_iff_add_lt', Int.cast_natCast]

/-- The positions up to an end, of which there are none if it is before the start. -/
theorem iterate_add_le_iff (hh : 0 < h) :
    (· + h)^[k] x ≤ b ↔ k < if b < x then 0 else (⌊(b - x) / h⌋ + 1).toNat := by
  have hle : (· + h)^[k] x ≤ b ↔ (k : ℤ) ≤ ⌊(b - x) / h⌋ := by
    rw [iterate_add_eq, Int.le_floor, le_div_iff₀ hh, le_sub_iff_add_le', Int.cast_natCast]
  rw [hle]
  split
  · next hbefore =>
    have hfloor : ⌊(b - x) / h⌋ < 0 :=
      Int.floor_lt.mpr (by simpa using div_neg_of_neg_of_pos (sub_neg.mpr hbefore) hh)
    omega
  · omega

end GraphCalc
