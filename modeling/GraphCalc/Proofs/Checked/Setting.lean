import GraphCalc.Proofs.Checked.Builder

/-!
# GraphCalc.Proofs.Checked.Setting

Setting the function of an engine, in steps that are checked.

`setExpression` reads a text, simplifies what it stands for and differentiates that.  It answers
whether it worked, and leaves the engine with a function and its derivative or with neither.

* `setExpression_total` — it always answers, without a fault, and `Engine.define` ends in the same
  engine unless the expression is nested beyond the limit.
-/

namespace GraphCalc.Checked

/-- The expression a text in the given notation stands for. -/
def read (format : Notation) (text : List Char) : Except Stop (Expr Float) :=
  match format with
  | .algebraic => build text
  | .reversePolish => run text

/-- Whether a text was taken over as the function, and the engine afterwards. -/
def setExpression (engine : Engine) (format : Notation) (text : List Char) :
    Except Fault (Bool × Engine) :=
  match read format text with
  | .ok e =>
    let function := e.simplify
    let derivative := function.differentiate.simplify
    .ok (true, { engine with definition := some ⟨function, derivative⟩, lastError := none })
  | .error (.refused reason) => .ok (false, { engine.reset with lastError := some reason })
  | .error (.fault fault) => .error fault

/-! ## reading under a limit -/

/-- Whatever answer is not the limit's is the answer without faults. -/
theorem read_eq {format : Notation} {text : List Char} {limit : Nat}
    (h : Expr.read format text limit ≠ .error .tooDeep) :
    read format text = ofRefusal (Expr.read format text limit) := by
  cases format with
  | reversePolish => exact run_eq text
  | algebraic =>
      change Expr.ofAlgebraic limit text ≠ _ at h
      show build text = ofRefusal (Expr.ofAlgebraic limit text)
      have henough := @build_eq text (max limit (tokenCount text + 1)) (by omega)
      rw [henough, Expr.ofAlgebraic_of_le h (Nat.le_max_left _ _)]

/-- Reverse Polish text is never nested too deep while it is read, and algebraic text is not if the
limit exceeds its length. -/
theorem read_ne_tooDeep (format : Notation) (text : List Char) {limit : Nat}
    (h : text.length < limit) : Expr.read format text limit ≠ .error .tooDeep := by
  cases format with
  | algebraic => exact ofAlgebraic_ne_tooDeep h
  | reversePolish => exact Expr.ofReversePolish_ne_tooDeep text

/-! ## definitions under a limit -/

/-- A text that is read makes the definition of its expression, unless it is nested too deep. -/
theorem definition_of_ok {format : Notation} {text : List Char} {e : Expr Float}
    (h : read format text = .ok e) (limit : Nat) :
    Expr.LimitedFrom (Definition.read format text limit)
        (.ok ⟨e.simplify, e.simplify.differentiate.simplify⟩) ∧
      (text.length < limit → e.depth ≤ limit → e.simplify.differentiate.depth ≤ limit →
        Definition.read format text limit =
          .ok ⟨e.simplify, e.simplify.differentiate.simplify⟩) := by
  have hread : Expr.read format text limit ≠ .error .tooDeep →
      Expr.read format text limit = .ok e :=
    fun hdeep => ofRefusal_injective ((read_eq hdeep).symm.trans h)
  unfold Definition.read
  constructor
  · by_cases hdeep : Expr.read format text limit = .error .tooDeep
    · rw [hdeep]
      exact .inl rfl
    · rw [hread hdeep]
      simp only [bind, Except.bind, Definition.ofExpr_eq]
      split
      · exact .inr rfl
      · exact .inl rfl
  · intro hlength hdepth hderivative
    rw [hread (read_ne_tooDeep format text hlength)]
    simp only [bind, Except.bind, Definition.ofExpr_eq]
    rw [if_pos ⟨hdepth, hderivative⟩]

/-- A text that is refused makes no definition, for the same reason unless it is nested too deep. -/
theorem definition_of_refused {format : Notation} {text : List Char} {reason : Refusal}
    (h : read format text = .error (.refused reason)) (limit : Nat) :
    Expr.LimitedFrom (Definition.read format text limit) (.error reason) ∧
      (text.length < limit → Definition.read format text limit = .error reason) := by
  have hread : Expr.read format text limit ≠ .error .tooDeep →
      Expr.read format text limit = .error reason :=
    fun hdeep => ofRefusal_injective ((read_eq hdeep).symm.trans h)
  unfold Definition.read
  constructor
  · by_cases hdeep : Expr.read format text limit = .error .tooDeep
    · rw [hdeep]
      exact .inl rfl
    · rw [hread hdeep]
      exact .inr rfl
  · intro hlength
    rw [hread (read_ne_tooDeep format text hlength)]
    rfl

/-! ## setting -/

/-- A text is read or refused, and no step on the way is at fault. -/
theorem read_cases (format : Notation) (text : List Char) :
    (∃ e, read format text = .ok e) ∨
      ∃ reason, read format text = .error (.refused reason) ∧ reason ≠ .tooDeep := by
  have hdeep := read_ne_tooDeep format text (Nat.lt_succ_self _)
  have hread := read_eq hdeep
  cases hfound : Expr.read format text text.length.succ with
  | ok e =>
      rw [hfound] at hread
      exact .inl ⟨e, hread⟩
  | error reason =>
      rw [hfound] at hread hdeep
      exact .inr ⟨reason, hread, fun h => hdeep (by rw [h])⟩

/-- Setting the function of an engine always answers, and no step on the way is at fault.

* If it worked, the text stands for an expression, the function is that expression simplified, and
  the derivative is the simplified derivative of the function.
* If it did not, there is neither, and the reason is kept.
* An operand that is split off a text has fewer tokens than the text, so splitting comes to an end.
* `Engine.define` does the same, or refuses the text as nested too deep, and it does the same under
  every limit that is high enough. -/
theorem setExpression_total (engine : Engine) (format : Notation) (text : List Char) :
    ∃ worked after, setExpression engine format text = .ok (worked, after) ∧
      after.settings = engine.settings ∧
      (worked = true → ∃ e, read format text = .ok e ∧
        after.definition = some ⟨e.simplify, e.simplify.differentiate.simplify⟩ ∧
        after.lastError = none) ∧
      (worked = false → ∃ reason, read format text = .error (.refused reason) ∧
        reason ≠ .tooDeep ∧ after.definition = none ∧ after.lastError = some reason) ∧
      (∀ parts operand, split text = .ok parts →
        parts.left = some operand ∨ parts.right = some operand →
        ∃ ts us, Token.scan text = .ok ts ∧ Token.scan operand = .ok us ∧
          us.length < ts.length) ∧
      (∀ limit, engine.define format text limit = after ∨
        engine.define format text limit = engine.adopt (.error .tooDeep)) ∧
      ∃ enough, ∀ limit, enough ≤ limit → engine.define format text limit = after := by
  have hadopt : ∀ {outcome limit}, Expr.LimitedFrom (Definition.read format text limit) outcome →
      engine.define format text limit = engine.adopt outcome ∨
        engine.define format text limit = engine.adopt (.error .tooDeep) := by
    rintro outcome limit (hdeep | heq)
    · exact .inr (by rw [Engine.define, hdeep])
    · exact .inl (by rw [Engine.define, heq])
  rcases read_cases format text with ⟨e, hread⟩ | ⟨reason, hread, hreason⟩
  · refine ⟨true, engine.adopt (.ok ⟨e.simplify, e.simplify.differentiate.simplify⟩), ?_, rfl,
      fun _ => ⟨e, hread, rfl, rfl⟩, by simp, fun parts operand => split_operand,
      fun limit => hadopt (definition_of_ok hread limit).1, ?_⟩
    · rw [setExpression, hread]
      rfl
    · refine ⟨text.length + 1 + e.depth + e.simplify.differentiate.depth, fun limit h => ?_⟩
      rw [Engine.define, (definition_of_ok hread limit).2 (by omega) (by omega) (by omega)]
  · refine ⟨false, engine.adopt (.error reason), ?_, rfl, by simp,
      fun _ => ⟨reason, hread, hreason, rfl, rfl⟩, fun parts operand => split_operand,
      fun limit => hadopt (definition_of_refused hread limit).1, ?_⟩
    · rw [setExpression, hread]
      rfl
    · refine ⟨text.length + 1, fun limit h => ?_⟩
      rw [Engine.define, (definition_of_refused hread limit).2 (by omega)]

end GraphCalc.Checked
