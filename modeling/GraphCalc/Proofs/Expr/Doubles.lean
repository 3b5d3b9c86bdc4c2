import GraphCalc.Proofs.Expr.Laws
import GraphCalc.Proofs.Number.Neutral

/-!
# GraphCalc.Proofs.Expr.Doubles

Doubles as an arithmetic that simplification is sound for.

How sums, differences, products and quotients of doubles are rounded is known, and the laws of `0`
and `1` are proved of them.  Powers and the elementary functions are computed by a library, which is
a parameter here; `Library.Lawful` says what is assumed of it.

* `Library.standard_arithmetic` — doubles as the program computes with them are one of these;
* `Library.lawful_least` — there is a lawful library;
* `Library.neutral`, `Library.respects` — with a lawful library the laws hold of doubles, up to the
  sign of a zero.
-/

namespace GraphCalc

open Arithmetic Number

/-- Powers and elementary functions of doubles. -/
structure Library where
  pow : Float → Float → Float
  call : Elementary → Float → Float

namespace Library

/-- Double precision with the functions of a library.  A square is computed as a product. -/
@[reducible] def arithmetic (lib : Library) : Arithmetic Float where
  apply
    | .add, a, b => a + b
    | .sub, a, b => a - b
    | .mul, a, b => a * b
    | .div, a, b => a / b
    | .pow, a, b => if b == 2 then a * a else lib.pow a b
  call := lib.call
  ofInt := Float.ofInt
  same a b := a == b

/-- The powers with the exponents `0` and `1` are as they should be, and the sign of a zero makes no
difference to a finite result, unless that is a zero. -/
structure Lawful (lib : Library) : Prop where
  pow_zero {a : Float} : a.isFinite = true → Alike (lib.pow a (Float.ofInt 0)) (Float.ofInt 1)
  pow_one {a : Float} : a.isFinite = true → Alike (lib.pow a (Float.ofInt 1)) a
  pow_alike {a a' b b' : Float} : Alike a a' → Alike b b' → (lib.pow a b).isFinite = true →
    Alike (lib.pow a b) (lib.pow a' b')
  call_alike {fn : Elementary} {a a' : Float} : Alike a a' → (lib.call fn a).isFinite = true →
    Alike (lib.call fn a) (lib.call fn a')

/-! ## libraries -/

/-- The library that the program runs with. -/
def standard : Library where
  pow := Float.pow
  call
    | .sin, a => Float.sin a
    | .cos, a => Float.cos a
    | .exp, a => Float.exp a
    | .log, a => Float.log a

theorem standard_arithmetic : standard.arithmetic = (inferInstance : Arithmetic Float) := rfl

/-- A library of the powers with the exponents `0` and `1`, and of nothing else. -/
def least : Library where
  pow a b :=
    if b == Float.ofInt 0 then Float.ofInt 1
    else if b == Float.ofInt 1 then a
    else Float.nan
  call _ _ := Float.nan

theorem lawful_least : least.Lawful where
  pow_zero _ := rfl
  pow_one _ := rfl
  pow_alike ha hb _ := by
    have hzero := hb.beq_congr (alike_equivalence.refl (Float.ofInt 0))
    have hone := hb.beq_congr (alike_equivalence.refl (Float.ofInt 1))
    simp only [least, hzero, hone]
    split
    · exact alike_equivalence.refl _
    · split
      · exact ha
      · exact alike_equivalence.refl _
  call_alike _ _ := alike_equivalence.refl _

/-! ## laws -/

/-- A power of doubles. -/
theorem apply_pow (lib : Library) (a b : Float) :
    @apply Float lib.arithmetic .pow a b = if b == 2 then a * a else lib.pow a b := rfl

variable {lib : Library} (laws : lib.Lawful)
include laws

/-- The laws of `0` and `1` hold for finite doubles, up to the sign of a zero. -/
theorem neutral : @Neutral Float lib.arithmetic (fun a => a.isFinite = true) Alike := by
  refine @Neutral.mk Float lib.arithmetic _ _ alike_of_beq
    alike_zero_add alike_add_zero alike_sub_zero alike_zero_mul alike_mul_zero
    alike_one_mul alike_mul_one alike_div_one ?pow_one ?pow_zero
  case pow_one =>
    intro a ha
    have hone : (Float.ofInt 1 == 2) = false := by decide +kernel
    simpa [apply_pow, ofInt, hone] using laws.pow_one ha
  case pow_zero =>
    intro a ha
    have hzero : (Float.ofInt 0 == 2) = false := by decide +kernel
    simpa [apply_pow, ofInt, hzero] using laws.pow_zero ha

/-- The sign of a zero makes no difference to a finite outcome, unless that is a zero. -/
theorem respects : @Respects Float lib.arithmetic (fun a => a.isFinite = true) Alike := by
  refine @Respects.mk Float lib.arithmetic _ _ alike_equivalence Alike.isFinite ?_ laws.call_alike
  intro op a a' b b' ha hb h
  cases op with
  | add => exact ha.add hb
  | sub => exact ha.sub hb
  | mul => exact ha.mul hb
  | div => exact ha.div hb h
  | pow =>
      have hsquare := hb.beq_congr (alike_equivalence.refl 2)
      rw [apply_pow] at h ⊢
      rw [apply_pow, ← hsquare]
      split at h
      · next htwo =>
        rw [if_pos htwo, if_pos htwo]
        exact ha.mul ha
      · next hother =>
        rw [if_neg hother, if_neg hother]
        exact laws.pow_alike ha hb h

end Library

end GraphCalc
