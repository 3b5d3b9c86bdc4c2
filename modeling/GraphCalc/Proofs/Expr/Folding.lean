import GraphCalc.Proofs.Entering
import GraphCalc.Proofs.Expr.Normal

/-!
# GraphCalc.Proofs.Expr.Folding

Expressions without the variable are constants, and a pass of simplification finds which.

Folding looks at one node at a time and evaluation at the whole expression, and both compute the
same operations in the same order.  So no law of the arithmetic is needed, and infinities and NaNs
are values like any other.

* `simplify_of_variableFree` — an expression without the variable becomes the constant of its value;
* `eq_const_of_isNormal` — in a normal form nothing without the variable is left but constants;
* `folds_to_value` — so that is what an engine stores, and the derivative is zero.
-/

namespace GraphCalc

namespace Expr

variable {α : Type}

/-- The variable does not occur in the expression. -/
def VariableFree (e : Expr α) : Prop := var ∉ e.subtrees

instance [DecidableEq α] (e : Expr α) : Decidable e.VariableFree :=
  inferInstanceAs (Decidable (var ∉ e.subtrees))

section

variable {op : Operator} {fn : Elementary} {l r a : Expr α}

theorem mem_subtrees_left {s : Expr α} (h : s ∈ l.subtrees) : s ∈ (binary op l r).subtrees :=
  List.mem_cons_of_mem _ (List.mem_append_left _ h)

theorem mem_subtrees_right {s : Expr α} (h : s ∈ r.subtrees) : s ∈ (binary op l r).subtrees :=
  List.mem_cons_of_mem _ (List.mem_append_right _ h)

theorem mem_subtrees_argument {s : Expr α} (h : s ∈ a.subtrees) : s ∈ (call fn a).subtrees :=
  List.mem_cons_of_mem _ h

theorem not_variableFree_var : ¬(var : Expr α).VariableFree := by
  simp [VariableFree, subtrees]

theorem variableFree_const (c : α) : (const c).VariableFree := by
  simp [VariableFree, subtrees]

theorem variableFree_binary : (binary op l r).VariableFree ↔ l.VariableFree ∧ r.VariableFree := by
  simp [VariableFree, subtrees]

theorem variableFree_call : (call fn a).VariableFree ↔ a.VariableFree := by
  simp [VariableFree, subtrees]

end

/-- What an expression in an expression is made of, that is made of too. -/
theorem subtrees_subset {s e : Expr α} (h : s ∈ e.subtrees) : s.subtrees ⊆ e.subtrees := by
  induction e with
  | var | const c =>
      rw [List.mem_singleton.mp h]
      exact List.Subset.refl _
  | binary op l r ihl ihr =>
      rcases List.mem_cons.mp h with rfl | h
      · exact List.Subset.refl _
      · rcases List.mem_append.mp h with h | h
        · exact fun t ht => mem_subtrees_left (ihl h ht)
        · exact fun t ht => mem_subtrees_right (ihr h ht)
  | call fn a ih =>
      rcases List.mem_cons.mp h with rfl | h
      · exact List.Subset.refl _
      · exact fun t ht => mem_subtrees_argument (ih h ht)

variable [Arithmetic α]

theorem IsNormal.of_mem {s e : Expr α} (he : e.IsNormal) (h : s ∈ e.subtrees) : s.IsNormal :=
  fun t ht => he t (subtrees_subset h ht)

/-- A pass turns an expression without the variable into its value. -/
theorem simplify_of_variableFree {e : Expr α} (h : e.VariableFree) (x : α) :
    e.simplify = const (e.eval x) := by
  induction e with
  | var => exact absurd h not_variableFree_var
  | const c => rfl
  | binary op l r ihl ihr =>
      obtain ⟨hl, hr⟩ := variableFree_binary.mp h
      rw [simplify, ihl hl, ihr hr]
      rfl
  | call fn a ih =>
      rw [simplify, ih (variableFree_call.mp h)]
      rfl

/-- Without the variable only constants cannot be reduced. -/
theorem eq_const_of_isNormal {e : Expr α} (hnormal : e.IsNormal) (h : e.VariableFree) :
    ∃ c, e = const c := by
  refine ⟨e.eval (Arithmetic.ofInt 0), ?_⟩
  rw [← simplify_of_variableFree h, simplify_of_isNormal hnormal]

end Expr

/-! ## what is stored -/

/-- Constant folding is complete.  Over any arithmetic, an expression without the variable is
simplified to the constant that is its value everywhere, and a simplified expression has no part
without the variable but constants.  An engine that takes a text for such an expression stores that
constant, and zero as its derivative. -/
theorem folds_to_value :
    (∀ {α : Type} [Arithmetic α] {e : Expr α}, e.VariableFree →
      ∀ x, e.simplify = .const (e.eval x)) ∧
    (∀ {α : Type} [Arithmetic α] (e : Expr α), ∀ s ∈ e.simplify.subtrees, s.VariableFree →
      ∃ c, s = .const c) ∧
    ∀ (engine : Engine) {format : Notation} {text : List Char} {limit : Nat} {e : Expr Float},
      Expr.read format text limit = .ok e → e.VariableFree →
      (engine.define format text limit).hasFunction = true →
      ∀ x, (engine.define format text limit).definition = some ⟨.const (e.eval x), .num 0⟩ := by
  refine ⟨fun h x => Expr.simplify_of_variableFree h x, fun e s hs hfree => ?_, ?_⟩
  · exact Expr.eq_const_of_isNormal ((Expr.isNormal_simplify e).of_mem hs) hfree
  · intro engine format text limit e hread hfree haccepted x
    obtain ⟨d, hd⟩ := Option.isSome_iff_exists.mp haccepted
    obtain ⟨e', hread', hmake⟩ := Definition.read_eq_ok_iff.mp (Engine.definition_define_iff.mp hd)
    rw [hread, Except.ok.injEq] at hread'
    subst hread'
    obtain ⟨-, -, rfl⟩ := Definition.ofExpr_eq_ok_iff.mp hmake
    rw [hd, Expr.simplify_of_variableFree hfree x]
    rfl

/-- A division by zero is stored as the infinity that it is, with zero as its derivative.  The
derivative of the quotient itself would be no number. -/
theorem folds_to_value_one_over_zero :
    let e : Expr Float := .binary .div (.const 1) (.const 0)
    let text := "1 0 /".toList
    e.VariableFree ∧ Expr.read .reversePolish text = .ok e ∧
      ((Engine.new {}).define .reversePolish text).hasFunction = true ∧
      ((Engine.new {}).define .reversePolish text).definition =
        some ⟨.const (1 / 0), .const 0⟩ ∧
      e.simplify = .const (1 / 0) ∧
      ∃ c : Float, e.differentiate.simplify = .const c ∧ c.isNaN = true := by
  intro e text
  have hone : Number.Exact 1 :=
    ⟨⟨false, ['1'], none, by decide +kernel, by decide, by decide⟩, by decide +kernel⟩
  have hzero : Number.Exact 0 :=
    ⟨⟨false, ['0'], none, by decide +kernel, by decide, by decide⟩, by decide +kernel⟩
  have hfree : e.VariableFree := by decide +kernel
  have htext : text = e.toReversePolish := by decide +kernel
  have hread : Expr.read .reversePolish text = .ok e := by
    rw [htext]
    exact ofReversePolish_of_exact
      (List.forall_mem_cons.mpr ⟨hone, List.forall_mem_singleton.mpr hzero⟩)
  have haccepted : ((Engine.new {}).define .reversePolish text).hasFunction = true := by
    have hmake : Definition.ofExpr e = .ok ⟨_, _⟩ :=
      Definition.ofExpr_eq_ok_iff.mpr ⟨by decide, by decide +kernel, rfl⟩
    exact Option.isSome_iff_exists.mpr
      ⟨_, Engine.definition_define_iff.mpr (Definition.read_eq_ok_iff.mpr ⟨e, hread, hmake⟩)⟩
  have hnan : e.differentiate.simplify = .const (0 / 0) := by decide +kernel
  exact ⟨hfree, hread, haccepted, folds_to_value.2.2 _ hread hfree haccepted 0,
    folds_to_value.1 hfree 0, 0 / 0, hnan, by decide +kernel⟩

end GraphCalc
