import GraphCalc.Proofs.Expr.Folding

/-!
# GraphCalc.Proofs.Expr.Logarithms

Where the logarithm in a derivative comes from.

The general rule for a power takes the logarithm of the base, which a negative base does not have,
and the rule for a constant exponent does not.  Which of them applies is a question of syntax:
whether the exponent is a constant.  In a simplified expression that is the question whether the
variable occurs in the exponent.

* `mem_subtrees_simplify` — a pass of simplification builds no node but constants;
* `calls_log_differentiate` — differentiation adds a logarithm only for a variable exponent;
* `definedAt_differentiate` — over the real numbers, the other powers may have negative bases;
* `logarithm_only_from_variable_exponents` — what that means for the definition of an engine.
-/

namespace GraphCalc

namespace Expr

open Arithmetic

variable {α : Type}

/-! ## what occurs in an expression -/

/-- The function is called in the expression. -/
def Calls (fn : Elementary) (e : Expr α) : Prop := ∃ a, call fn a ∈ e.subtrees

/-- The expression contains a power with the variable in its exponent. -/
def HasVariableExponent (e : Expr α) : Prop :=
  ∃ u v, binary .pow u v ∈ e.subtrees ∧ ¬v.VariableFree

section

variable {op : Operator} {fn g : Elementary} {l r a : Expr α}

theorem not_calls_const (c : α) : ¬(const c).Calls fn := by simp [Calls, subtrees]

theorem calls_binary : (binary op l r).Calls fn ↔ l.Calls fn ∨ r.Calls fn := by
  simp [Calls, subtrees, exists_or]

theorem calls_call : (call g a).Calls fn ↔ fn = g ∨ a.Calls fn := by
  simp [Calls, subtrees, exists_or]

theorem HasVariableExponent.left (h : l.HasVariableExponent) :
    (binary op l r).HasVariableExponent := by
  obtain ⟨u, v, hmem, hv⟩ := h
  exact ⟨u, v, mem_subtrees_left hmem, hv⟩

theorem HasVariableExponent.right (h : r.HasVariableExponent) :
    (binary op l r).HasVariableExponent := by
  obtain ⟨u, v, hmem, hv⟩ := h
  exact ⟨u, v, mem_subtrees_right hmem, hv⟩

theorem HasVariableExponent.argument (h : a.HasVariableExponent) :
    (call fn a).HasVariableExponent := by
  obtain ⟨u, v, hmem, hv⟩ := h
  exact ⟨u, v, mem_subtrees_argument hmem, hv⟩

end

/-! ## what simplification builds -/

variable [Arithmetic α]

/-- The node with its operands simplified, before it is reduced. -/
def simplifyOperands : Expr α → Expr α
  | var => var
  | const c => const c
  | binary op l r => binary op l.simplify r.simplify
  | call fn a => call fn a.simplify

/-- A pass of simplification leaves nodes of the expression over simplified operands, and
constants. -/
theorem mem_subtrees_simplify {s e : Expr α} (h : s ∈ e.simplify.subtrees) :
    (∃ c, s = const c) ∨ ∃ t ∈ e.subtrees, s = t.simplifyOperands := by
  induction e with
  | var => exact .inr ⟨var, mem_subtrees _, List.mem_singleton.mp h⟩
  | const c => exact .inl ⟨c, List.mem_singleton.mp h⟩
  | binary op l r ihl ihr =>
      have hleft : s ∈ l.simplify.subtrees →
          (∃ c, s = const c) ∨ ∃ t ∈ (binary op l r).subtrees, s = t.simplifyOperands :=
        fun hs => (ihl hs).imp_right fun ⟨t, ht, heq⟩ => ⟨t, mem_subtrees_left ht, heq⟩
      have hright : s ∈ r.simplify.subtrees →
          (∃ c, s = const c) ∨ ∃ t ∈ (binary op l r).subtrees, s = t.simplifyOperands :=
        fun hs => (ihr hs).imp_right fun ⟨t, ht, heq⟩ => ⟨t, mem_subtrees_right ht, heq⟩
      rw [simplify] at h
      rcases reduceBinary_cases op l.simplify r.simplify with hred | hred | ⟨c, hred⟩ | hred
      · exact hleft (hred ▸ h)
      · exact hright (hred ▸ h)
      · rw [hred] at h
        exact .inl ⟨c, List.mem_singleton.mp h⟩
      · rw [hred] at h
        rcases List.mem_cons.mp h with heq | h
        · exact .inr ⟨binary op l r, mem_subtrees _, heq⟩
        · exact (List.mem_append.mp h).elim hleft hright
  | call fn a ih =>
      rw [simplify] at h
      rcases reduceCall_cases fn a.simplify with ⟨c, hred⟩ | hred
      · rw [hred] at h
        exact .inl ⟨c, List.mem_singleton.mp h⟩
      · rw [hred] at h
        rcases List.mem_cons.mp h with heq | h
        · exact .inr ⟨call fn a, mem_subtrees _, heq⟩
        · exact (ih h).imp_right fun ⟨t, ht, heq⟩ => ⟨t, mem_subtrees_argument ht, heq⟩

/-- An operation that is left was there before, over the same operands. -/
theorem binary_mem_subtrees_simplify {op : Operator} {l r e : Expr α}
    (h : binary op l r ∈ e.simplify.subtrees) :
    ∃ u v, binary op u v ∈ e.subtrees ∧ l = u.simplify ∧ r = v.simplify := by
  obtain ⟨c, hc⟩ | ⟨t, ht, heq⟩ := mem_subtrees_simplify h
  · contradiction
  · cases t with
    | binary op' u v =>
        obtain ⟨rfl, hl, hr⟩ := binary.inj heq
        exact ⟨u, v, ht, hl, hr⟩
    | var | const | call => contradiction

/-- Simplification adds no call. -/
theorem Calls.of_simplify {fn : Elementary} {e : Expr α} (h : e.simplify.Calls fn) :
    e.Calls fn := by
  obtain ⟨a, ha⟩ := h
  obtain ⟨c, hc⟩ | ⟨t, ht, heq⟩ := mem_subtrees_simplify ha
  · contradiction
  · cases t with
    | call g b =>
        obtain ⟨rfl, -⟩ := call.inj heq
        exact ⟨b, ht⟩
    | var | const | binary => contradiction

/-! ## what differentiation adds -/

/-- The exponent of a power in a normal form is a constant, or the variable is in it. -/
theorem IsNormal.exponent {u v e : Expr α} (he : e.IsNormal) (h : binary .pow u v ∈ e.subtrees)
    (hfree : v.VariableFree) : ∃ n, v = const n :=
  eq_const_of_isNormal (isNormal_binary.mp (he.of_mem h)).2.2 hfree

/-- The derivative of a normal form takes a logarithm only where the expression does, or for a power
with the variable in its exponent. -/
theorem calls_log_differentiate {e : Expr α} (he : e.IsNormal) (h : e.differentiate.Calls .log) :
    e.Calls .log ∨ e.HasVariableExponent := by
  induction e with
  | var => exact absurd h (not_calls_const _)
  | const c => exact absurd h (not_calls_const _)
  | binary op u v ihu ihv =>
      obtain ⟨-, hu, hv⟩ := isNormal_binary.mp he
      have hinLeft (h : u.Calls .log) :
          (binary op u v).Calls .log ∨ (binary op u v).HasVariableExponent :=
        .inl (calls_binary.mpr (.inl h))
      have hinRight (h : v.Calls .log) :
          (binary op u v).Calls .log ∨ (binary op u v).HasVariableExponent :=
        .inl (calls_binary.mpr (.inr h))
      have hleft (h : u.differentiate.Calls .log) :
          (binary op u v).Calls .log ∨ (binary op u v).HasVariableExponent :=
        (ihu hu h).elim hinLeft fun h => .inr h.left
      have hright (h : v.differentiate.Calls .log) :
          (binary op u v).Calls .log ∨ (binary op u v).HasVariableExponent :=
        (ihv hv h).elim hinRight fun h => .inr h.right
      cases op with
      | add | sub => exact (calls_binary.mp h).elim hleft hright
      | mul =>
          obtain h | h := calls_binary.mp h
          · exact (calls_binary.mp h).elim hleft hinRight
          · exact (calls_binary.mp h).elim hinLeft hright
      | div =>
          obtain h | h := calls_binary.mp h
          · obtain h | h := calls_binary.mp h
            · exact (calls_binary.mp h).elim hleft hinRight
            · exact (calls_binary.mp h).elim hinLeft hright
          · exact (calls_binary.mp h).elim hinRight (absurd · (not_calls_const _))
      | pow =>
          by_cases hfree : v.VariableFree
          · obtain ⟨n, rfl⟩ := eq_const_of_isNormal hv hfree
            obtain h | h := calls_binary.mp h
            · obtain h | h := calls_binary.mp h
              · exact absurd h (not_calls_const _)
              · exact (calls_binary.mp h).elim hinLeft (absurd · (not_calls_const _))
            · exact hleft h
          · exact .inr ⟨u, v, mem_subtrees _, hfree⟩
  | call fn u ih =>
      have hu := (isNormal_call.mp he).2
      have hin (h : u.Calls .log) : (call fn u).Calls .log ∨ (call fn u).HasVariableExponent :=
        .inl (calls_call.mpr (.inr h))
      have hinner (h : u.differentiate.Calls .log) :
          (call fn u).Calls .log ∨ (call fn u).HasVariableExponent :=
        (ih hu h).elim hin fun h => .inr h.argument
      cases fn with
      | log => exact .inl (calls_call.mpr (.inl rfl))
      | sin | exp =>
          obtain h | h := calls_binary.mp h
          · exact (calls_call.mp h).elim (fun h => absurd h (by decide)) hin
          · exact hinner h
      | cos =>
          obtain h | h := calls_binary.mp h
          · exact absurd h (not_calls_const _)
          · obtain h | h := calls_binary.mp h
            · exact (calls_call.mp h).elim (fun h => absurd h (by decide)) hin
            · exact hinner h

/-! ## negative bases -/

/-- Zero and one act on real numbers as they should, the others being left aside. -/
theorem neutral_total : Neutral (fun _ : ℝ => True) Eq where
  of_same := of_decide_eq_true
  zero_add _ := by simp [apply, ofInt]
  add_zero _ := by simp [apply, ofInt]
  sub_zero _ := by simp [apply, ofInt]
  zero_mul _ := by simp [apply, ofInt]
  mul_zero _ := by simp [apply, ofInt]
  one_mul _ := by simp [apply, ofInt]
  mul_one _ := by simp [apply, ofInt]
  div_one _ := by simp [apply, ofInt]
  pow_one _ := by simp [apply, ofInt]
  pow_zero _ := by simp [apply, ofInt]

/-- Over the real numbers, with every operation total, simplification keeps the value. -/
theorem real_eval_simplify (e : Expr ℝ) (x : ℝ) : e.simplify.eval x = e.eval x :=
  (eqv_simplify neutral_total (respects_eq _) fun _ _ => trivial).symm

theorem DefinedAt.simplify {e : Expr ℝ} {x : ℝ} (h : e.DefinedAt x) : e.simplify.DefinedAt x := by
  induction e with
  | var | const => trivial
  | binary op l r ihl ihr =>
      obtain ⟨hl, hr, hop⟩ := h
      rw [Expr.simplify]
      rcases reduceBinary_cases op l.simplify r.simplify with hred | hred | ⟨c, hred⟩ | hred
      · rw [hred]
        exact ihl hl
      · rw [hred]
        exact ihr hr
      · rw [hred]
        trivial
      · rw [hred]
        refine ⟨ihl hl, ihr hr, ?_⟩
        rwa [real_eval_simplify, real_eval_simplify]
  | call fn a ih =>
      obtain ⟨ha, hfn⟩ := h
      rw [Expr.simplify]
      rcases reduceCall_cases fn a.simplify with ⟨c, hred⟩ | hred
      · rw [hred]
        trivial
      · rw [hred]
        refine ⟨ih ha, ?_⟩
        rwa [real_eval_simplify]

/-- The bases of powers that the rules of differentiation can do with: any but zero if the variable
is not in the exponent, zero as well if that exponent is at least one, and otherwise the positive
ones. -/
def BasesAllowed (x : ℝ) (e : Expr ℝ) : Prop :=
  ∀ u v, binary .pow u v ∈ e.subtrees →
    (v.VariableFree → u.eval x ≠ 0 ∨ 1 ≤ v.eval x) ∧ (¬v.VariableFree → 0 < u.eval x)

namespace BasesAllowed

variable {x : ℝ} {op : Operator} {fn : Elementary} {l r a e : Expr ℝ}

theorem left (h : (binary op l r).BasesAllowed x) : l.BasesAllowed x :=
  fun u v hmem => h u v (mem_subtrees_left hmem)

theorem right (h : (binary op l r).BasesAllowed x) : r.BasesAllowed x :=
  fun u v hmem => h u v (mem_subtrees_right hmem)

theorem argument (h : (call fn a).BasesAllowed x) : a.BasesAllowed x :=
  fun u v hmem => h u v (mem_subtrees_argument hmem)

/-- Simplification may take the variable out of an exponent, but does not put it in. -/
theorem simplify (h : e.BasesAllowed x) : e.simplify.BasesAllowed x := by
  intro u' v' hleft
  obtain ⟨u, v, hmem, rfl, rfl⟩ := binary_mem_subtrees_simplify hleft
  obtain ⟨hwhole, hpositive⟩ := h u v hmem
  rw [real_eval_simplify, real_eval_simplify]
  by_cases hfree : v.VariableFree
  · refine ⟨fun _ => hwhole hfree, fun hvariable => ?_⟩
    rw [simplify_of_variableFree hfree x] at hvariable
    exact absurd (variableFree_const _) hvariable
  · exact ⟨fun _ => .inl (hpositive hfree).ne', fun _ => hpositive hfree⟩

end BasesAllowed

/-- With one less in the exponent a power is still defined, but for a zero base. -/
theorem definedOn_pow_sub_one {a b : ℝ} (h : Operator.pow.DefinedOn a b) (ha : a ≠ 0 ∨ 1 ≤ b) :
    Operator.pow.DefinedOn a (b - 1) := by
  rcases h with hpos | ⟨hzero, -⟩ | ⟨hneg, k, rfl⟩
  · exact .inl hpos
  · exact .inr (.inl ⟨hzero, sub_nonneg.mpr (ha.resolve_left (absurd hzero))⟩)
  · exact .inr (.inr ⟨hneg, k - 1, by push_cast; rfl⟩)

/-- Where a normal form is defined and its bases are allowed, its derivative is defined. -/
theorem definedAt_differentiate {e : Expr ℝ} {x : ℝ} (he : e.IsNormal) (h : e.DefinedAt x)
    (hbases : e.BasesAllowed x) : e.differentiate.DefinedAt x := by
  induction e with
  | var | const => trivial
  | binary op u v ihu ihv =>
      obtain ⟨-, hnu, hnv⟩ := isNormal_binary.mp he
      obtain ⟨hu, hv, hop⟩ := h
      have hu' := ihu hnu hu hbases.left
      have hv' := ihv hnv hv hbases.right
      cases op with
      | add | sub => exact ⟨hu', hv', trivial⟩
      | mul => exact ⟨⟨hu', hv, trivial⟩, ⟨hu, hv', trivial⟩, trivial⟩
      | div =>
          have hsquare : v.eval x ^ ((2 : ℤ) : ℝ) ≠ 0 := by
            rw [Int.cast_ofNat, Real.rpow_ofNat]
            exact pow_ne_zero 2 hop
          exact ⟨⟨⟨hu', hv, trivial⟩, ⟨hu, hv', trivial⟩, trivial⟩,
            ⟨hv, trivial, Operator.definedOn_pow_of_nonneg _ (by decide)⟩, hsquare⟩
      | pow =>
          obtain ⟨hwhole, hpositive⟩ := hbases u v (mem_subtrees _)
          by_cases hfree : v.VariableFree
          · obtain ⟨n, rfl⟩ := eq_const_of_isNormal hnv hfree
            have hless : Operator.pow.DefinedOn (u.eval x) (n - ((1 : ℤ) : ℝ)) := by
              rw [Int.cast_one]
              exact definedOn_pow_sub_one hop (hwhole hfree)
            exact ⟨⟨trivial, ⟨hu, trivial, hless⟩, trivial⟩, hu', trivial⟩
          · have hpos := hpositive hfree
            have hgeneral : powerDerivative u v u.differentiate v.differentiate =
                binary .mul (binary .pow u v)
                  (binary .add (binary .mul v.differentiate (call .log u))
                    (binary .mul v (binary .div u.differentiate u))) := by
              cases v with
              | const n => exact absurd (variableFree_const n) hfree
              | var | binary | call => rfl
            rw [differentiate, hgeneral]
            exact ⟨⟨hu, hv, hop⟩, ⟨⟨hv', ⟨hu, hpos⟩, trivial⟩, ⟨hv, ⟨hu', hu, hpos.ne'⟩, trivial⟩,
              trivial⟩, trivial⟩
  | call fn u ih =>
      obtain ⟨hu, hfn⟩ := h
      have hu' := ih (isNormal_call.mp he).2 hu hbases.argument
      cases fn with
      | sin | exp => exact ⟨⟨hu, trivial⟩, hu', trivial⟩
      | cos => exact ⟨trivial, ⟨⟨hu, trivial⟩, hu', trivial⟩, trivial⟩
      | log => exact ⟨⟨trivial, hu, (show 0 < u.eval x from hfn).ne'⟩, hu', trivial⟩

/-! ## what is stored -/

/-- The derivative that an engine stores takes a logarithm only if the function does, or has the
variable in an exponent.  The other powers of the function are differentiated as powers with a
constant exponent.  Over the real numbers this makes the derivative defined wherever the function is
and its bases are allowed, negative ones included where the variable is not in the exponent. -/
theorem logarithm_only_from_variable_exponents :
    (∀ (engine : Engine) {format : Notation} {text : List Char} {limit : Nat} {d : Definition},
      (engine.define format text limit).definition = some d →
      (d.derivative.Calls .log → d.function.Calls .log ∨ d.function.HasVariableExponent) ∧
      ∀ u v, binary .pow u v ∈ d.function.subtrees → v.VariableFree →
        ∃ n, v = const n ∧ (binary .pow u v).differentiate =
          binary .mul (binary .mul (const n) (binary .pow u (const (n - 1)))) u.differentiate) ∧
    ∀ {e : Expr ℝ} {x : ℝ}, e.DefinedAt x → e.BasesAllowed x →
      e.simplify.differentiate.simplify.DefinedAt x := by
  refine ⟨fun engine format text limit d hd => ?_, fun {e x} h hbases => ?_⟩
  · obtain ⟨e, -, hmake⟩ := Definition.read_eq_ok_iff.mp (Engine.definition_define_iff.mp hd)
    obtain ⟨-, -, rfl⟩ := Definition.ofExpr_eq_ok_iff.mp hmake
    have hnormal := isNormal_simplify e
    refine ⟨fun h => calls_log_differentiate hnormal h.of_simplify, fun u v hmem hfree => ?_⟩
    obtain ⟨n, rfl⟩ := hnormal.exponent hmem hfree
    exact ⟨n, rfl, rfl⟩
  · exact (definedAt_differentiate (isNormal_simplify e) h.simplify hbases.simplify).simplify

/-- An exponent that works out to two makes a square, and its derivative takes no logarithm.  The
power minus two has a derivative at minus one. -/
theorem logarithm_only_from_variable_exponents_of_whole_powers :
    let text := "x 6 3 / ^".toList
    let d : Definition := ⟨binary .pow var (const 2), binary .mul (const 2) var⟩
    let e : Expr ℝ := binary .pow var (binary .sub (const 0) (const 2))
    ((Engine.new {}).define .reversePolish text).definition = some d ∧ ¬d.derivative.Calls .log ∧
      e.DefinedAt (-1) ∧ e.BasesAllowed (-1) ∧
      e.simplify.differentiate.simplify.DefinedAt (-1) := by
  intro text d e
  have hsix : Number.Exact 6 :=
    ⟨⟨false, ['6'], none, by decide +kernel, by decide, by decide⟩, by decide +kernel⟩
  have hthree : Number.Exact 3 :=
    ⟨⟨false, ['3'], none, by decide +kernel, by decide, by decide⟩, by decide +kernel⟩
  let typed : Expr Float := binary .pow var (binary .div (const 6) (const 3))
  have hread : Expr.read .reversePolish text = .ok typed := by
    have htext : text = typed.toReversePolish := by decide +kernel
    rw [htext]
    exact ofReversePolish_of_exact
      (List.forall_mem_cons.mpr ⟨hsix, List.forall_mem_singleton.mpr hthree⟩)
  have hmake : Definition.ofExpr typed = .ok d :=
    Definition.ofExpr_eq_ok_iff.mpr ⟨by decide, by decide +kernel, by decide +kernel⟩
  have hstored : ((Engine.new {}).define .reversePolish text).definition = some d :=
    Engine.definition_define_iff.mpr (Definition.read_eq_ok_iff.mpr ⟨typed, hread, hmake⟩)
  have hnone : ¬d.function.Calls .log := by simp [d, Calls, subtrees]
  have hexponent : ¬d.function.HasVariableExponent := by
    simp [d, HasVariableExponent, subtrees, variableFree_const]
  have hdefined : e.DefinedAt (-1) := by
    refine ⟨trivial, ⟨trivial, trivial, trivial⟩, .inr (.inr ⟨by simp [eval], -2, ?_⟩)⟩
    simp [eval, apply]
  have hbases : e.BasesAllowed (-1) := by
    simp [e, BasesAllowed, subtrees, VariableFree, eval]
  obtain ⟨hstore, hreal⟩ := logarithm_only_from_variable_exponents
  exact ⟨hstored, fun h => ((hstore _ hstored).1 h).elim hnone hexponent, hdefined, hbases,
    hreal hdefined hbases⟩

end Expr

end GraphCalc
