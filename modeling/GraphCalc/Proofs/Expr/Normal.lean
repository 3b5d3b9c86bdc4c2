import GraphCalc.Proofs.Expr.Value

/-!
# GraphCalc.Proofs.Expr.Normal

The normal form that one pass of simplification reaches.

`Redex` lists what can be reduced at the top of an expression, rule by rule and whatever the
arithmetic is.  A constant counts as `0` or `1` if it is the same as a number, so a negative zero is
a zero, and an infinity or a NaN is a constant like any other.

* `reduceBinary_eq_self_iff`, `reduceCall_eq_self_iff` — a node is left alone exactly if it is no
  redex;
* `isNormal_simplify` — no redex is left by a pass;
* `simplify_of_isNormal` — without a redex a pass changes nothing;
* `simplify_reaches_normal_form` — so one pass is enough, and what it leaves alone is normal.
-/

namespace GraphCalc.Expr

open Arithmetic

variable {α : Type}

/-- No expression is one of its own operands. -/
theorem ne_binary_left (op : Operator) (l r : Expr α) : l ≠ binary op l r := by
  intro h
  cases h

theorem ne_binary_right (op : Operator) (l r : Expr α) : r ≠ binary op l r := by
  intro h
  cases h

variable [Arithmetic α]

/-! ## what can be reduced -/

/-- The expression can be reduced at its top. -/
inductive Redex : Expr α → Prop
  | operation {op : Operator} {a b : α} : Redex (binary op (const a) (const b))
  | function {fn : Elementary} {a : α} : Redex (call fn (const a))
  | zeroAdd {c : α} {u : Expr α} (zero : same c (ofInt 0) = true) : Redex (binary .add (const c) u)
  | addZero {c : α} {u : Expr α} (zero : same c (ofInt 0) = true) : Redex (binary .add u (const c))
  | subZero {c : α} {u : Expr α} (zero : same c (ofInt 0) = true) : Redex (binary .sub u (const c))
  | zeroMul {c : α} {u : Expr α} (zero : same c (ofInt 0) = true) : Redex (binary .mul (const c) u)
  | mulZero {c : α} {u : Expr α} (zero : same c (ofInt 0) = true) : Redex (binary .mul u (const c))
  | oneMul {c : α} {u : Expr α} (one : same c (ofInt 1) = true) : Redex (binary .mul (const c) u)
  | mulOne {c : α} {u : Expr α} (one : same c (ofInt 1) = true) : Redex (binary .mul u (const c))
  | divOne {c : α} {u : Expr α} (one : same c (ofInt 1) = true) : Redex (binary .div u (const c))
  | powZero {c : α} {u : Expr α} (zero : same c (ofInt 0) = true) : Redex (binary .pow u (const c))
  | powOne {c : α} {u : Expr α} (one : same c (ofInt 1) = true) : Redex (binary .pow u (const c))

/-- Nothing in the expression can be reduced. -/
def IsNormal (e : Expr α) : Prop := ∀ s ∈ e.subtrees, ¬s.Redex

theorem isNum_eq_true_iff {n : Int} {e : Expr α} :
    e.isNum n = true ↔ ∃ c, e = const c ∧ same c (ofInt n) = true := by
  cases e <;> simp [isNum]

variable {op : Operator} {fn : Elementary} {l r a : Expr α}

/-- The operations that can be reduced, operator by operator. -/
theorem redex_binary_iff : (binary op l r).Redex ↔
    (∃ a b, l = const a ∧ r = const b) ∨
      match op with
      | .add => l.isNum 0 = true ∨ r.isNum 0 = true
      | .sub => r.isNum 0 = true
      | .mul => (l.isNum 0 = true ∨ r.isNum 0 = true) ∨ l.isNum 1 = true ∨ r.isNum 1 = true
      | .div => r.isNum 1 = true
      | .pow => r.isNum 1 = true ∨ r.isNum 0 = true := by
  constructor
  · intro h
    cases h <;> simp_all [isNum]
  · rintro (⟨a, b, rfl, rfl⟩ | h)
    · exact .operation
    · cases op <;> simp only [isNum_eq_true_iff] at h
      case add =>
        obtain ⟨c, rfl, hc⟩ | ⟨c, rfl, hc⟩ := h
        · exact .zeroAdd hc
        · exact .addZero hc
      case sub =>
        obtain ⟨c, rfl, hc⟩ := h
        exact .subZero hc
      case mul =>
        obtain (⟨c, rfl, hc⟩ | ⟨c, rfl, hc⟩) | ⟨c, rfl, hc⟩ | ⟨c, rfl, hc⟩ := h
        · exact .zeroMul hc
        · exact .mulZero hc
        · exact .oneMul hc
        · exact .mulOne hc
      case div =>
        obtain ⟨c, rfl, hc⟩ := h
        exact .divOne hc
      case pow =>
        obtain ⟨c, rfl, hc⟩ | ⟨c, rfl, hc⟩ := h
        · exact .powOne hc
        · exact .powZero hc

theorem redex_call_iff : (call fn a).Redex ↔ ∃ c, a = const c := by
  constructor
  · rintro ⟨⟩
    exact ⟨_, rfl⟩
  · rintro ⟨c, rfl⟩
    exact .function

/-! ## nodes -/

/-- An operation is left alone exactly if it cannot be reduced. -/
theorem reduceBinary_eq_self_iff :
    reduceBinary op l r = binary op l r ↔ ¬(binary op l r).Redex := by
  rw [redex_binary_iff]
  unfold reduceBinary
  split
  · simp
  · next hoperation =>
    have hnot : ¬∃ a b, l = const a ∧ r = const b := by
      rintro ⟨a, b, rfl, rfl⟩
      exact hoperation a b rfl rfl
    simp only [hnot, false_or]
    cases op with
    | add =>
        simp only [reduceSum]
        split_ifs <;> simp_all [ne_binary_left, ne_binary_right]
    | sub =>
        simp only [reduceDifference]
        split_ifs <;> simp_all [ne_binary_left]
    | mul =>
        simp only [reduceProduct, num]
        split_ifs <;> simp_all [ne_binary_left, ne_binary_right]
    | div =>
        simp only [reduceQuotient]
        split_ifs <;> simp_all [ne_binary_left]
    | pow =>
        simp only [reducePower, num]
        split_ifs <;> simp_all [ne_binary_left]

/-- A call is left alone exactly if it cannot be reduced. -/
theorem reduceCall_eq_self_iff : reduceCall fn a = call fn a ↔ ¬(call fn a).Redex := by
  rw [redex_call_iff]
  cases a <;> simp [reduceCall]

/-! ## expressions -/

theorem isNormal_var : (var : Expr α).IsNormal := by
  rintro s hs ⟨⟩ <;> simp [subtrees] at hs

theorem isNormal_const (c : α) : (const c).IsNormal := by
  rintro s hs ⟨⟩ <;> simp [subtrees] at hs

theorem isNormal_binary :
    (binary op l r).IsNormal ↔ ¬(binary op l r).Redex ∧ l.IsNormal ∧ r.IsNormal := by
  simp only [IsNormal, subtrees, List.forall_mem_cons, List.forall_mem_append]

theorem isNormal_call : (call fn a).IsNormal ↔ ¬(call fn a).Redex ∧ a.IsNormal := by
  simp only [IsNormal, subtrees, List.forall_mem_cons]

/-- A pass leaves nothing that can be reduced: a node becomes one of its operands, a constant, or
what cannot be reduced. -/
theorem isNormal_simplify (e : Expr α) : e.simplify.IsNormal := by
  induction e with
  | var => exact isNormal_var
  | const c => exact isNormal_const c
  | binary op l r ihl ihr =>
      rw [simplify]
      rcases reduceBinary_cases op l.simplify r.simplify with h | h | ⟨c, h⟩ | h
      · rwa [h]
      · rwa [h]
      · rw [h]
        exact isNormal_const c
      · rw [h]
        exact isNormal_binary.mpr ⟨reduceBinary_eq_self_iff.mp h, ihl, ihr⟩
  | call fn a ih =>
      rw [simplify]
      rcases reduceCall_cases fn a.simplify with ⟨c, h⟩ | h
      · rw [h]
        exact isNormal_const c
      · rw [h]
        exact isNormal_call.mpr ⟨reduceCall_eq_self_iff.mp h, ih⟩

/-- Where nothing can be reduced, a pass changes nothing. -/
theorem simplify_of_isNormal {e : Expr α} (h : e.IsNormal) : e.simplify = e := by
  induction e with
  | var => rfl
  | const c => rfl
  | binary op l r ihl ihr =>
      obtain ⟨htop, hl, hr⟩ := isNormal_binary.mp h
      rw [simplify, ihl hl, ihr hr]
      exact reduceBinary_eq_self_iff.mpr htop
  | call fn a ih =>
      obtain ⟨htop, ha⟩ := isNormal_call.mp h
      rw [simplify, ih ha]
      exact reduceCall_eq_self_iff.mpr htop

/-- One pass of simplification leaves nothing that can be reduced, so a second pass changes nothing.
The expressions that a pass leaves alone are those in which nothing can be reduced. -/
theorem simplify_reaches_normal_form (e : Expr α) :
    (∀ s ∈ e.simplify.subtrees, ¬s.Redex) ∧ e.simplify.simplify = e.simplify ∧
      (e.simplify = e ↔ ∀ s ∈ e.subtrees, ¬s.Redex) := by
  have hnormal := isNormal_simplify e
  refine ⟨hnormal, e.simplify_simplify, fun h => ?_, simplify_of_isNormal⟩
  rw [h] at hnormal
  exact hnormal

/-- A negative zero is a zero operand, and it is dropped. -/
example : (binary .add var (const (-0.0 : Float))).Redex ∧
    (binary .add var (const (-0.0 : Float))).simplify = var :=
  ⟨.addZero (by decide +kernel), by decide +kernel⟩

end GraphCalc.Expr
