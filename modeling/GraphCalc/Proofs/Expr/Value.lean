import GraphCalc.Proofs.Expr.Doubles
import GraphCalc.Proofs.Expr.Simplify

/-!
# GraphCalc.Proofs.Expr.Value

Simplification keeps the value, wherever the expression is finite throughout.

The arithmetic has to obey the laws of `0` and `1` on finite values only, for an infinite operand
may turn what is dropped into something else: `0 * (1 / x)` is no number at `x = 0`, and its
simplification is.  Equality of values is a parameter.  Where it is not `=` the operations have to
respect it, since the simplified operands are the same only as numbers.

* `eqv_reduceBinary`, `eval_reduceCall` — reducing a node keeps its value;
* `Expr.eval_simplify` — so a pass of simplification keeps the value of the expression;
* `Library.beq_eval_simplify` — over doubles it is numerically the same value.
-/

namespace GraphCalc

open Arithmetic Number

namespace Expr

variable {α : Type}

/-- The expressions that an expression is made of, and itself. -/
def subtrees : Expr α → List (Expr α)
  | var => [var]
  | const c => [const c]
  | binary op l r => binary op l r :: (l.subtrees ++ r.subtrees)
  | call fn a => call fn a :: a.subtrees

theorem mem_subtrees (e : Expr α) : e ∈ e.subtrees := by
  cases e <;> simp [subtrees]

variable [Arithmetic α] {finite : α → Prop} {eqv : α → α → Prop} {x : α}

/-! ## nodes -/

section

variable {l r : Expr α}

theorem eqv_of_isNum (hn : Neutral finite eqv) {n : Int} {e : Expr α} (h : e.isNum n = true) :
    eqv (e.eval x) (ofInt n) := by
  cases e with
  | const c => exact hn.of_same h
  | var | binary | call => contradiction

variable (hn : Neutral finite eqv) (hr : Respects finite eqv)
include hn hr

/-- An operand that is numerically an integer may be replaced by it. -/
theorem eqv_apply_left {op : Operator} {n : Int} {b : α} (hl : l.isNum n = true)
    (hv : finite (apply op (l.eval x) b)) : eqv (apply op (l.eval x) b) (apply op (ofInt n) b) :=
  hr.apply_eqv (eqv_of_isNum hn hl) (hr.equivalence.refl b) hv

theorem eqv_apply_right {op : Operator} {n : Int} {a : α} (h : r.isNum n = true)
    (hv : finite (apply op a (r.eval x))) : eqv (apply op a (r.eval x)) (apply op a (ofInt n)) :=
  hr.apply_eqv (hr.equivalence.refl a) (eqv_of_isNum hn h) hv

theorem eqv_reduceSum (hl : finite (l.eval x)) (hright : finite (r.eval x))
    (hv : finite (apply .add (l.eval x) (r.eval x))) :
    eqv (apply .add (l.eval x) (r.eval x)) ((reduceSum l r).eval x) := by
  rw [reduceSum]
  split
  · next h => exact hr.equivalence.trans (eqv_apply_left hn hr h hv) (hn.zero_add hright)
  · split
    · next h => exact hr.equivalence.trans (eqv_apply_right hn hr h hv) (hn.add_zero hl)
    · exact hr.equivalence.refl _

theorem eqv_reduceDifference (hl : finite (l.eval x))
    (hv : finite (apply .sub (l.eval x) (r.eval x))) :
    eqv (apply .sub (l.eval x) (r.eval x)) ((reduceDifference l r).eval x) := by
  rw [reduceDifference]
  split
  · next h => exact hr.equivalence.trans (eqv_apply_right hn hr h hv) (hn.sub_zero hl)
  · exact hr.equivalence.refl _

theorem eqv_reduceProduct (hl : finite (l.eval x)) (hright : finite (r.eval x))
    (hv : finite (apply .mul (l.eval x) (r.eval x))) :
    eqv (apply .mul (l.eval x) (r.eval x)) ((reduceProduct l r).eval x) := by
  rw [reduceProduct]
  split
  · next h =>
    rcases Bool.or_eq_true_iff.mp h with h | h
    · exact hr.equivalence.trans (eqv_apply_left hn hr h hv) (hn.zero_mul hright)
    · exact hr.equivalence.trans (eqv_apply_right hn hr h hv) (hn.mul_zero hl)
  · split
    · next h => exact hr.equivalence.trans (eqv_apply_left hn hr h hv) (hn.one_mul hright)
    · split
      · next h => exact hr.equivalence.trans (eqv_apply_right hn hr h hv) (hn.mul_one hl)
      · exact hr.equivalence.refl _

theorem eqv_reduceQuotient (hl : finite (l.eval x))
    (hv : finite (apply .div (l.eval x) (r.eval x))) :
    eqv (apply .div (l.eval x) (r.eval x)) ((reduceQuotient l r).eval x) := by
  rw [reduceQuotient]
  split
  · next h => exact hr.equivalence.trans (eqv_apply_right hn hr h hv) (hn.div_one hl)
  · exact hr.equivalence.refl _

theorem eqv_reducePower (hl : finite (l.eval x))
    (hv : finite (apply .pow (l.eval x) (r.eval x))) :
    eqv (apply .pow (l.eval x) (r.eval x)) ((reducePower l r).eval x) := by
  rw [reducePower]
  split
  · next h => exact hr.equivalence.trans (eqv_apply_right hn hr h hv) (hn.pow_one hl)
  · split
    · next h => exact hr.equivalence.trans (eqv_apply_right hn hr h hv) (hn.pow_zero hl)
    · exact hr.equivalence.refl _

/-- Reducing an operation on finite operands with a finite outcome keeps the outcome. -/
theorem eqv_reduceBinary {op : Operator} (hl : finite (l.eval x)) (hright : finite (r.eval x))
    (hv : finite (apply op (l.eval x) (r.eval x))) :
    eqv (apply op (l.eval x) (r.eval x)) ((reduceBinary op l r).eval x) := by
  unfold reduceBinary
  split
  · exact hr.equivalence.refl _
  · cases op with
    | add => exact eqv_reduceSum hn hr hl hright hv
    | sub => exact eqv_reduceDifference hn hr hl hv
    | mul => exact eqv_reduceProduct hn hr hl hright hv
    | div => exact eqv_reduceQuotient hn hr hl hv
    | pow => exact eqv_reducePower hn hr hl hv

end

/-- A call on a constant is the constant it computes. -/
@[simp] theorem eval_reduceCall (fn : Elementary) (a : Expr α) :
    (reduceCall fn a).eval x = Arithmetic.call fn (a.eval x) := by
  unfold reduceCall
  split <;> rfl

/-! ## expressions -/

/-- Simplified operands are finite as the operands are, and so is what is computed from them. -/
theorem eqv_simplify (hn : Neutral finite eqv) (hr : Respects finite eqv) {e : Expr α}
    (h : ∀ s ∈ e.subtrees, finite (s.eval x)) : eqv (e.eval x) (e.simplify.eval x) := by
  induction e with
  | var => exact hr.equivalence.refl _
  | const c => exact hr.equivalence.refl _
  | binary op l r ihl ihr =>
      have hl : ∀ s ∈ l.subtrees, finite (s.eval x) := fun s hs => h s (by simp [subtrees, hs])
      have hright : ∀ s ∈ r.subtrees, finite (s.eval x) := fun s hs => h s (by simp [subtrees, hs])
      have hv : finite (apply op (l.eval x) (r.eval x)) := h _ (mem_subtrees _)
      have hstep : eqv (apply op (l.eval x) (r.eval x))
          (apply op (l.simplify.eval x) (r.simplify.eval x)) :=
        hr.apply_eqv (ihl hl) (ihr hright) hv
      have hreduce : eqv (apply op (l.simplify.eval x) (r.simplify.eval x))
          ((reduceBinary op l.simplify r.simplify).eval x) := eqv_reduceBinary hn hr
        (hr.finite_of_eqv (ihl hl) (hl l (mem_subtrees l)))
        (hr.finite_of_eqv (ihr hright) (hright r (mem_subtrees r)))
        (hr.finite_of_eqv hstep hv)
      exact hr.equivalence.trans hstep hreduce
  | call fn a ih =>
      have ha : ∀ s ∈ a.subtrees, finite (s.eval x) := fun s hs => h s (by simp [subtrees, hs])
      have hv : finite (Arithmetic.call fn (a.eval x)) := h _ (mem_subtrees _)
      rw [simplify, eval_reduceCall]
      exact hr.call_eqv (ih ha) hv

/-- Where everything an expression is made of has a finite value, its simplification has the same
value.  If numerically equal values are equal, only the laws of `0` and `1` are needed; otherwise
the values are the same as numbers.

Over doubles the second part is `Library.beq_eval_simplify`. -/
theorem eval_simplify {e : Expr α} (h : ∀ s ∈ e.subtrees, finite (s.eval x)) :
    (Neutral finite Eq → e.simplify.eval x = e.eval x) ∧
      ∀ eqv, Neutral finite eqv → Respects finite eqv → eqv (e.simplify.eval x) (e.eval x) :=
  ⟨fun hn => (eqv_simplify hn (respects_eq finite) h).symm,
    fun _ hn hr => hr.equivalence.symm (eqv_simplify hn hr h)⟩

/-- `0 * (1 / x) + x ^ 1`, of which `x` is left when it is simplified. -/
def overReciprocal {α : Type} [Arithmetic α] : Expr α :=
  .binary .add (.binary .mul (.num 0) (.binary .div (.num 1) .var)) (.binary .pow .var (.num 1))

/-- At `2` the expression has a value throughout, and its simplification has the same one.  Over
doubles `x` is left of `x + 0`, and at the negative zero that is the same number, if not the same
double. -/
theorem eval_simplify_overReciprocal :
    ((∀ s ∈ (overReciprocal : Expr (Option ℝ)).subtrees, (s.eval (some 2)).isSome) ∧
      overReciprocal.simplify.eval (some (2 : ℝ)) = overReciprocal.eval (some 2)) ∧
    let doubles := Library.least.arithmetic
    let e : Expr Float := .binary .add .var (.const 0)
    let before := @eval Float doubles (-0) e
    let after := @eval Float doubles (-0) (@simplify Float doubles e)
    (∀ s ∈ e.subtrees, (@eval Float doubles (-0) s).isFinite = true) ∧
      Alike after before ∧ before.toBits = 0 ∧ after.toBits = 2 ^ 63 := by
  have hdivides : Operator.DefinedOn .div 1 2 := by simp [Operator.DefinedOn]
  have hpower : Operator.DefinedOn .pow 2 1 := .inl two_pos
  have hproduct : Operator.DefinedOn .mul 0 2⁻¹ := trivial
  have hsum : Operator.DefinedOn .add 0 2 := trivial
  have hfinite : ∀ s ∈ (overReciprocal : Expr (Option ℝ)).subtrees, (s.eval (some 2)).isSome := by
    simp [overReciprocal, subtrees, eval, num, apply, ofInt, hdivides, hpower, hproduct, hsum]
  refine ⟨⟨hfinite, (eval_simplify hfinite).1 neutral_real⟩, ?_⟩
  intro doubles e before after
  have hdoubles : ∀ s ∈ e.subtrees, (@eval Float doubles (-0) s).isFinite = true := by
    decide +kernel
  have hlawful := Library.lawful_least
  exact ⟨hdoubles, (@eval_simplify Float doubles _ _ _ hdoubles).2 Alike (Library.neutral hlawful)
    (Library.respects hlawful), by decide +kernel, by decide +kernel⟩

/-- At `0` it has none, and its simplification has one. -/
example : overReciprocal.eval (some (0 : ℝ)) = none ∧
    overReciprocal.simplify.eval (some (0 : ℝ)) = some 0 := by
  have hdivides : ¬Operator.DefinedOn .div 1 0 := by simp [Operator.DefinedOn]
  have hvar : (overReciprocal : Expr (Option ℝ)).simplify = var := by
    simp [overReciprocal, simplify, reduceBinary, reduceSum, reduceProduct, reduceQuotient,
      reducePower, isNum, num, ofInt, same]
  rw [hvar]
  simp [overReciprocal, eval, num, apply, ofInt, hdivides]

end Expr

/-! ## doubles -/

namespace Library

/-- Where everything an expression over doubles is made of is finite, its simplification has
numerically the same value.  The program's own doubles are those of `Library.standard`
(`standard_arithmetic`). -/
theorem beq_eval_simplify {lib : Library} (laws : lib.Lawful) {e : Expr Float} {x : Float}
    (h : ∀ s ∈ e.subtrees, (@Expr.eval Float lib.arithmetic x s).isFinite = true) :
    (@Expr.eval Float lib.arithmetic x (@Expr.simplify Float lib.arithmetic e) ==
      @Expr.eval Float lib.arithmetic x e) = true := by
  have halike := @Expr.eqv_simplify Float lib.arithmetic _ _ x (neutral laws) (respects laws) e h
  refine Alike.beq (alike_equivalence.symm halike) ?_
  exact halike.isFinite (h e (Expr.mem_subtrees e))

end Library

end GraphCalc
