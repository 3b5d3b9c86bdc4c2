import GraphCalc.Proofs.Expr.Simplify
import GraphCalc.Proofs.Grammar.Rendered

/-!
# GraphCalc.Proofs.Entering

What the engine shows can be entered again.

In reverse Polish notation a stored function is read back as it is.  In algebraic notation its
negative constants come back as differences from zero, and simplification folds exactly these:
everything else has been simplified before.

* `simplify_spelledOut` — differences from zero are folded into the constants they were written for;
* `Definition.ofExpr_eq_of_simplify` — an expression that simplifies to a stored function makes the
  same definition;
* `Engine.define_shown` — a shown function is entered again, in either notation, and leads to the
  same definition.
-/

namespace GraphCalc

open Number Number.Numeral

/-! ## expressions -/

/-- Differences from zero are folded into the constants they were written for. -/
theorem simplify_spelledOut {e : Expr Float} (h : ∀ c ∈ e.constants, Exact c) :
    e.spelledOut.simplify = e.simplify := by
  induction e with
  | var => rfl
  | const c =>
      rw [Expr.spelledOut]
      cases hsign : isNegative c with
      | false => rfl
      | true =>
          obtain ⟨-, hsub, -⟩ := (h c (List.mem_singleton_self c)).negative hsign
          exact congrArg Expr.const hsub
  | binary op l r ihl ihr =>
      obtain ⟨hl, hr⟩ := Expr.forall_constants_binary.mp h
      rw [Expr.spelledOut, Expr.simplify, Expr.simplify, ihl hl, ihr hr]
  | call fn a ih =>
      rw [Expr.spelledOut, Expr.simplify, Expr.simplify, ih h]

/-- An expression whose constants are shown exactly is read back from reverse Polish notation. -/
theorem ofReversePolish_of_exact {e : Expr Float} (h : ∀ c ∈ e.constants, Exact c) :
    Expr.ofReversePolish e.toReversePolish = .ok e := by
  have hfinite : e.constants.find? (!·.isFinite) = none := by
    rw [List.find?_eq_none]
    intro c hc
    simp [isFinite_of_read?_tidy (h c hc).reads]
  have hsame : e.map Expr.reread = e := by
    refine Expr.map_eq_self fun c hc => ?_
    rw [Expr.reread, (h c hc).reads]
    rfl
  rw [Expr.ofReversePolish_eq, hfinite, hsame]

/-! ## definitions -/

/-- A text makes the definition of the expression it is read as. -/
theorem Definition.read_eq_ok_iff {format : Notation} {text : List Char} {limit : Nat}
    {d : Definition} : Definition.read format text limit = .ok d ↔
      ∃ e, Expr.read format text limit = .ok e ∧ Definition.ofExpr e limit = .ok d := by
  rw [Definition.read, bind_eq_ok]

/-- An expression with the same simplification as a stored function makes the same definition. -/
theorem Definition.ofExpr_eq_of_simplify {e t : Expr Float} {limit limit' : Nat} {d : Definition}
    (h : Definition.ofExpr e limit = .ok d) (hlimit : limit ≤ limit')
    (hsame : t.simplify = d.function.simplify) (hdepth : t.depth ≤ limit') :
    Definition.ofExpr t limit' = .ok d := by
  obtain ⟨-, hderivative, rfl⟩ := Definition.ofExpr_eq_ok_iff.mp h
  have hfunction : t.simplify = e.simplify := hsame.trans e.simplify_simplify
  refine Definition.ofExpr_eq_ok_iff.mpr ⟨hdepth, ?_, ?_⟩
  · rw [hfunction]
    exact Nat.le_trans hderivative hlimit
  · rw [hfunction]

/-! ## the engine -/

/-- The engine takes over what a text defines. -/
theorem Engine.definition_define_iff {engine : Engine} {format : Notation} {text : List Char}
    {limit : Nat} {d : Definition} :
    (engine.define format text limit).definition = some d ↔
      Definition.read format text limit = .ok d := by
  rw [Engine.define]
  cases Definition.read format text limit <;> simp [Engine.adopt]

/-- A stored function whose constants are shown exactly, and whose powers have no negative constants
as bases, is entered again from either notation.  It is the same function then, with the same
derivative.  Algebraic notation needs room for the differences from zero, which any larger limit
gives. -/
theorem Engine.define_shown {engine other : Engine} {format : Notation} {text : List Char}
    {limit : Nat} {d : Definition}
    (hstored : (engine.define format text limit).definition = some d)
    (hexact : ∀ c ∈ d.function.constants, Exact c) (hbase : d.function.NoNegativeBase) :
    d.function.spelledOut.depth ≤ limit + 1 ∧
      (∀ limit', limit ≤ limit' → d.function.spelledOut.depth ≤ limit' →
        other.define .algebraic d.function.toAlgebraic limit' =
          { other with definition := some d, lastError := none }) ∧
      ∀ limit', limit ≤ limit' →
        other.define .reversePolish d.function.toReversePolish limit' =
          { other with definition := some d, lastError := none } := by
  obtain ⟨e, -, he⟩ := Definition.read_eq_ok_iff.mp (Engine.definition_define_iff.mp hstored)
  have hdepth : d.function.depth ≤ limit := by
    obtain ⟨hdepth, -, rfl⟩ := Definition.ofExpr_eq_ok_iff.mp he
    exact Nat.le_trans e.depth_simplify_le hdepth
  have hagain : ∀ {format limit' line t}, limit ≤ limit' → Expr.read format line limit' = .ok t →
      t.simplify = d.function.simplify → t.depth ≤ limit' →
      other.define format line limit' = { other with definition := some d, lastError := none } := by
    intro format limit' line t hlimit hread hsame hroom
    have hmake := Definition.ofExpr_eq_of_simplify he hlimit hsame hroom
    rw [Engine.define, Definition.read_eq_ok_iff.mpr ⟨t, hread, hmake⟩]
    rfl
  refine ⟨?_, ?_, ?_⟩
  · have hmore := d.function.depth_spelledOut_le
    omega
  · intro limit' hlimit hroom
    have hread := ofAlgebraic_toAlgebraic hexact hbase hroom
    exact hagain hlimit hread (simplify_spelledOut hexact) hroom
  · intro limit' hlimit
    have hread := ofReversePolish_of_exact hexact
    exact hagain hlimit hread rfl (Nat.le_trans hdepth hlimit)

/-- A difference from zero is stored as a negative constant, and entered again as one. -/
theorem Engine.define_shown_negative_half :
    let minusHalf := ofMagnitude true (1022 <<< 52)
    let d : Definition := ⟨.binary .add .var (.const minusHalf), .const 1⟩
    let engine := Engine.new {}
    (engine.define .reversePolish "x 0 0.5 - +".toList).definition = some d ∧
      engine.define .algebraic "(x + -0.5)".toList =
        { engine with definition := some d, lastError := none } ∧
      engine.define .reversePolish "x -0.5 +".toList =
        { engine with definition := some d, lastError := none } := by
  have hzero : Exact (ofMagnitude false 0) :=
    ⟨⟨false, ['0'], none, by decide +kernel, by decide, by decide⟩, by decide +kernel⟩
  have hhalf : Exact (ofMagnitude false (1022 <<< 52)) :=
    ⟨⟨false, ['0'], some ['5'], by decide +kernel, by decide, by decide⟩, by decide +kernel⟩
  have hminusHalf : Exact (ofMagnitude true (1022 <<< 52)) :=
    ⟨⟨true, ['0'], some ['5'], by decide +kernel, by decide, by decide⟩, by decide +kernel⟩
  intro minusHalf d engine
  -- what is typed is the text of another expression, which simplifies to the function
  let typed : Expr Float := .binary .add .var
    (.binary .sub (.const (ofMagnitude false 0)) (.const (ofMagnitude false (1022 <<< 52))))
  have htyped : ∀ c ∈ typed.constants, Exact c :=
    List.forall_mem_cons.mpr ⟨hzero, List.forall_mem_singleton.mpr hhalf⟩
  have hread : Expr.read .reversePolish "x 0 0.5 - +".toList = .ok typed := by
    have htext : "x 0 0.5 - +".toList = typed.toReversePolish := by decide +kernel
    rw [htext]
    exact ofReversePolish_of_exact htyped
  have hmake : Definition.ofExpr typed = .ok d :=
    Definition.ofExpr_eq_ok_iff.mpr ⟨by decide, by decide +kernel, by decide +kernel⟩
  have hstored : (engine.define .reversePolish "x 0 0.5 - +".toList).definition = some d :=
    Engine.definition_define_iff.mpr (Definition.read_eq_ok_iff.mpr ⟨typed, hread, hmake⟩)
  have hexact : ∀ c ∈ d.function.constants, Exact c := List.forall_mem_singleton.mpr hminusHalf
  have hbase : d.function.NoNegativeBase := by
    simp [d, Expr.NoNegativeBase]
  have halgebraic : "(x + -0.5)".toList = d.function.toAlgebraic := by decide +kernel
  have hpolish : "x -0.5 +".toList = d.function.toReversePolish := by decide +kernel
  have hroom : d.function.spelledOut.depth ≤ nestingLimit := by decide +kernel
  obtain ⟨-, hfirst, hsecond⟩ := @Engine.define_shown engine engine _ _ _ _ hstored hexact hbase
  rw [halgebraic, hpolish]
  exact ⟨hstored, hfirst _ (Nat.le_refl _) hroom, hsecond _ (Nat.le_refl _)⟩

end GraphCalc
