import GraphCalc.Proofs.Expr.Slope

/-!
# GraphCalc.Proofs.Expr.Laws

What simplification assumes of an arithmetic.

It is how `0` and `1` act on finite values (`Arithmetic.Neutral`), and nothing else where
numerically equal values are equal.  Among doubles the two zeros are different values and the same
number, so equality of values is a parameter, and then the operations have to agree on equal values
as long as their outcome is finite (`Arithmetic.Respects`).

* `neutral_real` — the laws hold for real numbers, where they are defined.
-/

namespace GraphCalc

namespace Arithmetic

variable {α : Type} [Arithmetic α]

/-- How `0` and `1` act on finite values, up to an equality of values. -/
structure Neutral (finite : α → Prop) (eqv : α → α → Prop) : Prop where
  /-- Whatever is numerically an integer is equal to it. -/
  of_same {a : α} {n : Int} : same a (ofInt n) = true → eqv a (ofInt n)
  zero_add {a : α} : finite a → eqv (apply .add (ofInt 0) a) a
  add_zero {a : α} : finite a → eqv (apply .add a (ofInt 0)) a
  sub_zero {a : α} : finite a → eqv (apply .sub a (ofInt 0)) a
  zero_mul {a : α} : finite a → eqv (apply .mul (ofInt 0) a) (ofInt 0)
  mul_zero {a : α} : finite a → eqv (apply .mul a (ofInt 0)) (ofInt 0)
  one_mul {a : α} : finite a → eqv (apply .mul (ofInt 1) a) a
  mul_one {a : α} : finite a → eqv (apply .mul a (ofInt 1)) a
  div_one {a : α} : finite a → eqv (apply .div a (ofInt 1)) a
  pow_one {a : α} : finite a → eqv (apply .pow a (ofInt 1)) a
  pow_zero {a : α} : finite a → eqv (apply .pow a (ofInt 0)) (ofInt 1)

/-- Equal values cannot be told apart by an operation with a finite outcome. -/
structure Respects (finite : α → Prop) (eqv : α → α → Prop) : Prop where
  equivalence : Equivalence eqv
  finite_of_eqv {a b : α} : eqv a b → finite a → finite b
  apply_eqv {op : Operator} {a a' b b' : α} : eqv a a' → eqv b b' → finite (apply op a b) →
    eqv (apply op a b) (apply op a' b')
  call_eqv {fn : Elementary} {a a' : α} : eqv a a' → finite (call fn a) →
    eqv (call fn a) (call fn a')

/-- Equality itself asks nothing of the operations. -/
theorem respects_eq (finite : α → Prop) : Respects finite Eq where
  equivalence := eq_equivalence
  finite_of_eqv h ha := h ▸ ha
  apply_eqv ha hb _ := by rw [ha, hb]
  call_eqv ha _ := by rw [ha]

/-! ## real values that may be missing -/

open Classical in
/-- Real arithmetic in which an operation that has no real value has none. -/
noncomputable instance : Arithmetic (Option ℝ) where
  apply op a b := do
    let u ← a
    let v ← b
    if op.DefinedOn u v then some (apply op u v) else none
  call fn a := do
    let u ← a
    if fn.DefinedOn u then some (call fn u) else none
  ofInt n := some n
  same a b := decide (a = b)

/-- An operation that has a real value computes it. -/
theorem apply_some (op : Operator) {u v w : ℝ} (hdefined : op.DefinedOn u v)
    (h : apply op u v = w) : apply op (some u) (some v) = some w := by
  rw [← h]
  exact if_pos hdefined

/-- Real numbers satisfy the laws of `0` and `1`, where they are there. -/
theorem neutral_real : Neutral (fun a : Option ℝ => a.isSome) Eq where
  of_same := of_decide_eq_true
  zero_add {a} h := match a, h with
    | some u, _ => apply_some .add trivial (by simp [apply])
  add_zero {a} h := match a, h with
    | some u, _ => apply_some .add trivial (by simp [apply])
  sub_zero {a} h := match a, h with
    | some u, _ => apply_some .sub trivial (by simp [apply])
  zero_mul {a} h := match a, h with
    | some u, _ => apply_some .mul trivial (by simp [apply])
  mul_zero {a} h := match a, h with
    | some u, _ => apply_some .mul trivial (by simp [apply])
  one_mul {a} h := match a, h with
    | some u, _ => apply_some .mul trivial (by simp [apply])
  mul_one {a} h := match a, h with
    | some u, _ => apply_some .mul trivial (by simp [apply])
  div_one {a} h := match a, h with
    | some u, _ => apply_some .div (by simp [Operator.DefinedOn]) (by simp [apply])
  pow_one {a} h := match a, h with
    | some u, _ =>
      apply_some .pow (Operator.definedOn_pow_of_nonneg u Int.one_nonneg) (by simp [apply])
  pow_zero {a} h := match a, h with
    | some u, _ =>
      apply_some .pow (Operator.definedOn_pow_of_nonneg u (Int.le_refl 0)) (by simp [apply])

end Arithmetic

end GraphCalc
