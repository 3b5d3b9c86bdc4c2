import Mathlib.Tactic.SplitIfs
import GraphCalc.Expr.Simplify

/-!
# GraphCalc.Proofs.Expr.Simplify

What a pass of simplification leaves.

A node is reduced to one of its operands, to a constant, or not at all, so nothing that a pass has
built is reduced by another one, whatever the arithmetic is:

* `simplify_simplify` — one pass is enough;
* `depth_simplify_le` — an expression does not get deeper.
-/

namespace GraphCalc.Expr

variable {α : Type} [Arithmetic α]

/-- An operation becomes an operand or a constant, or stays. -/
theorem reduceBinary_cases (op : Operator) (l r : Expr α) :
    reduceBinary op l r = l ∨ reduceBinary op l r = r ∨ (∃ c, reduceBinary op l r = const c) ∨
      reduceBinary op l r = binary op l r := by
  unfold reduceBinary
  split
  · exact .inr (.inr (.inl ⟨_, rfl⟩))
  · cases op with
    | add =>
        simp only [reduceSum]
        split_ifs <;> simp
    | sub =>
        simp only [reduceDifference]
        split_ifs <;> simp
    | mul =>
        simp only [reduceProduct, num]
        split_ifs <;> simp
    | div =>
        simp only [reduceQuotient]
        split_ifs <;> simp
    | pow =>
        simp only [reducePower, num]
        split_ifs <;> simp

/-- A call becomes a constant or stays. -/
theorem reduceCall_cases (fn : Elementary) (a : Expr α) :
    (∃ c, reduceCall fn a = const c) ∨ reduceCall fn a = call fn a := by
  unfold reduceCall
  split
  · exact .inl ⟨_, rfl⟩
  · exact .inr rfl

/-- What has been simplified is not simplified further. -/
theorem simplify_simplify (e : Expr α) : e.simplify.simplify = e.simplify := by
  induction e with
  | var => rfl
  | const c => rfl
  | binary op l r ihl ihr =>
      rw [simplify]
      rcases reduceBinary_cases op l.simplify r.simplify with h | h | ⟨c, h⟩ | h
      · rw [h, ihl]
      · rw [h, ihr]
      · rw [h]
        rfl
      · rw [h, simplify, ihl, ihr, h]
  | call fn a ih =>
      rw [simplify]
      rcases reduceCall_cases fn a.simplify with ⟨c, h⟩ | h
      · rw [h]
        rfl
      · rw [h, simplify, ih, h]

/-- Simplification does not make an expression deeper. -/
theorem depth_simplify_le (e : Expr α) : e.simplify.depth ≤ e.depth := by
  induction e with
  | var => exact Nat.le_refl 1
  | const c => exact Nat.le_refl 1
  | binary op l r ihl ihr =>
      have hpos : 1 ≤ max l.depth r.depth + 1 := Nat.le_add_left 1 _
      rw [simplify, depth]
      rcases reduceBinary_cases op l.simplify r.simplify with h | h | ⟨c, h⟩ | h
      · rw [h]
        omega
      · rw [h]
        omega
      · rw [h]
        exact hpos
      · rw [h, depth]
        omega
  | call fn a ih =>
      rw [simplify, depth]
      rcases reduceCall_cases fn a.simplify with ⟨c, h⟩ | h
      · rw [h]
        exact Nat.le_add_left 1 _
      · rw [h, depth]
        omega

end GraphCalc.Expr
