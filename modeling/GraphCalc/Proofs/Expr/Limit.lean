import GraphCalc.Engine
import GraphCalc.Proofs.Outcome
import GraphCalc.Proofs.Outline.Top

/-!
# GraphCalc.Proofs.Expr.Limit

What the limit on nesting means for reading algebraic notation, and for what is made of the
expression: it adds one answer, that the text is nested too deep, and changes no other.

* `ofOutline_eq_error` — what items are refused for below their outline;
* `ofItems_of_le` — an answer that is not `tooDeep` is the answer under every higher limit;
* `ofItems_ne_tooDeep` — with more levels than tokens that answer is not given;
* `Definition.ofExpr_eq` — the expression and the derivative are held to the limit, nothing else.
-/

namespace GraphCalc

/-- A name or a number is refused that stands for nothing. -/
def Refusal.Unknown : Refusal → Prop
  | unknownFunction _ | unknownToken _ => True
  | _ => False

end GraphCalc

namespace GraphCalc.Expr

open Item

/-- The expression that an outline stands for, its operands nested to at most the given number of
levels. -/
def ofOutline (line : List Char) (levels : Nat) : Outline → Except Refusal (Expr Float)
  | .single t => ofToken t
  | .call name argument =>
    if isVariable name.text then .ok var
    else do
      let fn ← callee name.text
      let a ← ofItems line levels (Item.window argument) argument
      return call fn a
  | .negation operand => do
    let u ← ofItems line levels (Item.window operand) operand
    return binary .sub (num 0) u
  | .binary op left right => do
    let l ← ofItems line levels (Item.window left) left
    let r ← ofItems line levels (Item.window right) right
    return binary op l r

variable {line : List Char} {window : Window}

/-- Reading items is finding their outline and then reading that. -/
theorem ofItems_succ (n : Nat) (items : List Item) :
    ofItems line (n + 1) window items =
      match Outline.ofItems (n + 1) items with
      | .error flaw => .error (flaw.refusal line window)
      | .ok outline => ofOutline line n outline := by
  rw [ofItems]
  cases Outline.ofItems (n + 1) items with
  | error flaw => rfl
  | ok outline => cases outline <;> rfl

theorem ofItems_of_outline {n : Nat} {items : List Item} {outline : Outline}
    (h : Outline.ofItems (n + 1) items = .ok outline) :
    ofItems line (n + 1) window items = ofOutline line n outline := by
  rw [ofItems_succ, h]

theorem refusal_eq_tooDeep_iff {flaw : Flaw} :
    flaw.refusal line window = .tooDeep ↔ flaw = .tooDeep := by
  cases flaw <;> simp [Flaw.refusal]

/-! ## refusals -/

theorem ofLine_ne_tooDeep (line : List Char) : Item.ofLine line ≠ .error .tooDeep :=
  fun h => beforeOutline_of_ofLine h

/-- A token is refused as one that stands for nothing. -/
theorem unknown_of_ofToken {t : Token} {reason : Refusal} (h : ofToken t = .error reason) :
    reason.Unknown := by
  unfold ofToken at h
  split at h
  · contradiction
  · split at h
    · contradiction
    · cases h
      trivial

/-- A name is refused as one that stands for nothing. -/
theorem unknown_of_callee {name : List Char} {reason : Refusal} (h : callee name = .error reason) :
    reason.Unknown := by
  unfold callee at h
  split at h
  · split at h
    · contradiction
    · cases h
      trivial
  · cases h
    trivial

/-- What an outline is refused for is a name or number that stands for nothing, or what one of the
operands is refused for. -/
theorem ofOutline_eq_error {n : Nat} {outline : Outline} {reason : Refusal}
    (h : ofOutline line n outline = .error reason) :
    reason.Unknown ∨ ∃ operand ∈ outline.operands,
      ofItems line n (Item.window operand) operand = .error reason := by
  cases outline with
  | single t => exact .inl (unknown_of_ofToken h)
  | call name argument =>
      simp only [ofOutline] at h
      split at h
      · contradiction
      · rcases bind_eq_error.mp h with hcallee | ⟨fn, -, h⟩
        · exact .inl (unknown_of_callee hcallee)
        · rcases bind_eq_error.mp h with hargument | ⟨a, -, h⟩
          · exact .inr ⟨argument, by simp [Outline.operands], hargument⟩
          · contradiction
  | negation operand =>
      rcases bind_eq_error.mp h with hinner | ⟨u, -, h⟩
      · exact .inr ⟨operand, by simp [Outline.operands], hinner⟩
      · contradiction
  | binary op left right =>
      rcases bind_eq_error.mp h with hleft | ⟨l, -, h⟩
      · exact .inr ⟨left, by simp [Outline.operands], hleft⟩
      · rcases bind_eq_error.mp h with hright | ⟨r, -, h⟩
        · exact .inr ⟨right, by simp [Outline.operands], hright⟩
        · contradiction

/-! ## reverse Polish notation -/

theorem pushWord_ne_tooDeep (stack : List (Expr Float)) (word : List Char) :
    pushWord stack word ≠ .error .tooDeep := by
  unfold pushWord
  split
  · simp
  · split
    · simp
    · unfold pushOperator
      split <;> simp
    · unfold pushCall
      split <;> simp
    · simp

theorem foldlM_pushWord_ne_tooDeep (words : List (List Char)) (stack : List (Expr Float)) :
    words.foldlM pushWord stack ≠ .error .tooDeep := by
  induction words generalizing stack with
  | nil => simp [pure, Except.pure]
  | cons word words ih =>
      intro h
      rcases bind_eq_error.mp h with hword | ⟨after, -, hrest⟩
      · exact pushWord_ne_tooDeep stack word hword
      · exact ih after hrest

/-- Reverse Polish notation is read without nesting. -/
theorem ofReversePolish_ne_tooDeep (text : List Char) :
    ofReversePolish text ≠ .error .tooDeep := by
  intro h
  rcases bind_eq_error.mp h with hwords | ⟨stack, -, hlast⟩
  · exact foldlM_pushWord_ne_tooDeep _ _ hwords
  · split at hlast <;> contradiction

/-! ## enough levels -/

/-- With more levels than tokens the limit is not reached. -/
theorem ofItems_ne_tooDeep {n : Nat} {items : List Item} (h : size items < n) :
    ofItems line n window items ≠ .error .tooDeep := by
  induction n generalizing window items with
  | zero => omega
  | succ n ih =>
      have houtline := Outline.ofItems_ne_tooDeep h
      rw [ofItems_succ]
      cases hfound : Outline.ofItems (n + 1) items with
      | error flaw =>
          rw [hfound] at houtline
          simpa [refusal_eq_tooDeep_iff] using houtline
      | ok outline =>
          have hsize := (Outline.top_of_ofItems hfound).size_operand_lt
          intro hdeep
          rcases ofOutline_eq_error hdeep with hunknown | ⟨operand, hmem, hoperand⟩
          · exact hunknown
          · have := hsize operand hmem
            exact ih (by omega) hoperand

/-! ## raising the limit -/

/-- The outcome is the other one, unless it was stopped at the limit. -/
def LimitedFrom {α : Type} (limited free : Except Refusal α) : Prop :=
  limited = .error .tooDeep ∨ limited = free

theorem LimitedFrom.rfl {α : Type} {x : Except Refusal α} : LimitedFrom x x := .inr (.refl x)

/-- Steps in a row are limited as each of them is. -/
theorem LimitedFrom.bind {α β : Type} {x y : Except Refusal α} {f g : α → Except Refusal β}
    (hfirst : LimitedFrom x y) (hnext : ∀ a, LimitedFrom (f a) (g a)) :
    LimitedFrom (x >>= f) (y >>= g) := by
  rcases hfirst with hdeep | heq
  · rw [hdeep]
    exact .inl (.refl _)
  · rw [heq]
    cases y with
    | error e => exact .rfl
    | ok a => exact hnext a

theorem ofItems_limitedFrom_succ (n : Nat) (window : Window) (items : List Item) :
    LimitedFrom (ofItems line n window items) (ofItems line (n + 1) window items) := by
  induction n generalizing window items with
  | zero => exact .inl (.refl _)
  | succ n ih =>
      by_cases hdeep : Outline.ofItems (n + 1) items = .error .tooDeep
      · refine .inl ?_
        rw [ofItems_succ, hdeep]
        rfl
      rw [ofItems_succ, ofItems_succ, Outline.ofItems_succ_of_ne hdeep]
      cases Outline.ofItems (n + 1) items with
      | error flaw => exact .rfl
      | ok outline =>
          cases outline with
          | single t => exact .rfl
          | call name argument =>
              simp only [ofOutline]
              split
              · exact .rfl
              · exact .bind .rfl fun _ => .bind (ih _ _) fun _ => .rfl
          | negation operand => exact .bind (ih _ _) fun _ => .rfl
          | binary op left right => exact .bind (ih _ _) fun _ => .bind (ih _ _) fun _ => .rfl

/-- An answer that is not `tooDeep` is the answer under every higher limit. -/
theorem ofItems_of_le {n m : Nat} {items : List Item}
    (h : ofItems line n window items ≠ .error .tooDeep) (hle : n ≤ m) :
    ofItems line m window items = ofItems line n window items := by
  induction hle with
  | refl => rfl
  | @step m _ ih =>
      rw [← ih] at h
      rw [← (ofItems_limitedFrom_succ m window items).resolve_left h, ih]

theorem ofAlgebraic_of_le {n m : Nat} (h : ofAlgebraic n line ≠ .error .tooDeep) (hle : n ≤ m) :
    ofAlgebraic m line = ofAlgebraic n line := by
  unfold ofAlgebraic at h ⊢
  cases hitems : Item.ofLine line with
  | error flaw => rfl
  | ok items =>
      rw [hitems] at h
      exact ofItems_of_le h hle

end GraphCalc.Expr

namespace GraphCalc

/-! ## definitions -/

/-- An expression makes the definition that simplification and differentiation give, or it is nested
beyond the limit somewhere on the way. -/
theorem Definition.ofExpr_eq (e : Expr Float) (limit : Nat) :
    Definition.ofExpr e limit =
      if e.depth ≤ limit ∧ e.simplify.differentiate.depth ≤ limit then
        .ok ⟨e.simplify, e.simplify.differentiate.simplify⟩
      else .error .tooDeep := by
  unfold Definition.ofExpr Expr.checkDepth
  by_cases he : limit < e.depth
  · rw [if_pos he, if_neg (by omega)]
    rfl
  · rw [if_neg he]
    simp only [bind, Except.bind]
    by_cases hderivative : limit < e.simplify.differentiate.depth
    · rw [if_pos hderivative, if_neg (by omega)]
    · rw [if_neg hderivative, if_pos (by omega)]
      rfl

/-- An expression makes a definition if neither it nor the derivative is nested too deep. -/
theorem Definition.ofExpr_eq_ok_iff {e : Expr Float} {limit : Nat} {d : Definition} :
    Definition.ofExpr e limit = .ok d ↔ e.depth ≤ limit ∧ e.simplify.differentiate.depth ≤ limit ∧
      d = ⟨e.simplify, e.simplify.differentiate.simplify⟩ := by
  rw [Definition.ofExpr_eq]
  split
  · next h => simp [h, eq_comm]
  · next h =>
    simp only [reduceCtorEq, false_iff]
    exact fun hall => h ⟨hall.1, hall.2.1⟩

end GraphCalc
