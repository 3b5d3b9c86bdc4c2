import GraphCalc.Proofs.Checked.Positions

/-!
# GraphCalc.Proofs.Checked.Ranges

The top level of a range of tokens, in ranges.

`Splitter.divide` does what `Splitter.split` does and leaves the operands as ranges instead of cutting
their texts out of the line.  Which ranges these are is found in one place, and the texts follow:

* `Splitter.split_eq_divide` — splitting is dividing, and then cutting out the texts;
* `Splitter.Divides` — an outline as a division: each operand covers its range;
* `Splitter.parts_of_divides` — the texts of these ranges are those of the outline.
-/

namespace GraphCalc.Checked

open Item

/-- An operand of a range of tokens: the tokens from `lo` up to `hi`, or the zero that a negation
subtracts from. -/
inductive Operand where
  | zero
  | range (lo hi : Nat)

/-- The top level of a range of tokens: its operator or name, and its operands. -/
structure Division where
  main : List Char
  left : Option Operand
  right : Option Operand

namespace Splitter

variable (s : Splitter)

/-! ## dividing -/

/-- The operands on either side of a binary operator. -/
def divideBinary (lo i hi : Nat) : Except Stop Division := do
  let op ← tokenAt s.tokens i
  if i = lo || i = hi - 1 then blame s.line op .missingOperand
  else return ⟨op.text, some (.range lo i), some (.range (i + 1) hi)⟩

/-- The division of a range without an operator to cut at and without a sign in front. -/
def divideOperand (first : Token) (lo hi : Nat) : Except Stop Division := do
  if ← s.isCall first lo hi then return ⟨first.text, some (.range (lo + 2) (hi - 1)), none⟩
  else if hi - lo = 1 then return ⟨first.text, none, none⟩
  else blame s.line (← tokenAt s.tokens (lo + 1)) .unexpectedToken

/-- The division of the tokens from `lo` up to `hi`. -/
def divide (lo hi : Nat) : Except Stop Division := do
  let (low, high) ← s.stripParens lo hi
  if high ≤ low then .error (.refused .empty)
  let first ← tokenAt s.tokens low
  match ← s.cutAt? low high (signOf? first).isSome precedence with
  | some i => s.divideBinary low i high
  | none =>
    match signOf? first with
    | some op =>
      if high - low = 1 then blame s.line first .missingOperand
      else if op = .sub then return ⟨['-'], some .zero, some (.range (low + 1) high)⟩
      else if _h : high - (low + 1) < hi - lo then divide (low + 1) high
      else .error (.fault .noProgress)
    | none => s.divideOperand first low high
termination_by hi - lo

/-! ## cutting out texts -/

/-- The text of an operand. -/
def operandText : Operand → Except Stop (List Char)
  | .zero => .ok ['0']
  | .range lo hi => s.text lo hi

/-- The division with the texts of its operands. -/
def parts (d : Division) : Except Stop Parts := do
  let left ← d.left.mapM s.operandText
  let right ← d.right.mapM s.operandText
  return ⟨d.main, left, right⟩

theorem binary_eq_divideBinary (lo i hi : Nat) :
    s.binary lo i hi = s.divideBinary lo i hi >>= s.parts := by
  rw [binary, divideBinary]
  cases tokenAt s.tokens i with
  | error stop => rfl
  | ok op =>
      simp only [bind, Except.bind]
      split
      · rfl
      · simp only [pure, Except.pure, parts, Option.mapM_some, operandText, bind, Except.bind]
        cases s.text lo i with
        | error stop => rfl
        | ok left => cases s.text (i + 1) hi <;> rfl

theorem operand_eq_divideOperand (first : Token) (lo hi : Nat) :
    s.operand first lo hi = s.divideOperand first lo hi >>= s.parts := by
  rw [operand, divideOperand]
  cases s.isCall first lo hi with
  | error stop => rfl
  | ok call =>
      cases call with
      | true =>
          simp only [bind, Except.bind, pure, Except.pure, if_true, parts, Option.mapM_some,
            operandText]
          cases s.text (lo + 2) (hi - 1) <;> rfl
      | false =>
          simp only [bind, Except.bind, Bool.false_eq_true, if_false]
          split
          · rfl
          · cases tokenAt s.tokens (lo + 1) <;> rfl

/-- Splitting a range is dividing it, and then cutting out the texts of its operands. -/
theorem split_eq_divide (lo hi : Nat) : s.split lo hi = s.divide lo hi >>= s.parts := by
  induction hcount : hi - lo using Nat.strongRecOn generalizing lo hi with
  | ind count ih =>
      subst hcount
      rw [split, divide]
      cases s.stripParens lo hi with
      | error stop => rfl
      | ok range =>
          obtain ⟨low, high⟩ := range
          simp only [bind, Except.bind]
          split
          · rfl
          · cases tokenAt s.tokens low with
            | error stop => rfl
            | ok first =>
                dsimp only
                cases s.cutAt? low high (signOf? first).isSome precedence with
                | error stop => rfl
                | ok found =>
                    cases found with
                    | some i => exact s.binary_eq_divideBinary low i high
                    | none =>
                        cases hsign : signOf? first with
                        | none => exact s.operand_eq_divideOperand first low high
                        | some op =>
                            dsimp only
                            split
                            · rfl
                            · split
                              · simp only [pure, Except.pure, parts, Option.mapM_some, operandText,
                                  bind, Except.bind]
                                cases s.text (low + 1) high <;> rfl
                              · split
                                · next hless => exact ih _ hless _ _ rfl
                                · rfl

/-! ## outlines -/

/-- The division stands for the outline, and each operand of the outline covers its range. -/
inductive Divides : Outline → Division → Prop
  | single (t : Token) : Divides (.single t) ⟨t.text, none, none⟩
  | call {name : Token} {argument : List Item} {lo : Nat} (covers : Covers s.tokens lo argument) :
      Divides (.call name argument) ⟨name.text, some (.range lo (lo + size argument)), none⟩
  | negation {operand : List Item} {lo : Nat} (covers : Covers s.tokens lo operand) :
      Divides (.negation operand) ⟨['-'], some .zero, some (.range lo (lo + size operand))⟩
  | binary {op : Operator} {left right : List Item} {i j : Nat}
      (leftCovers : Covers s.tokens i left) (rightCovers : Covers s.tokens j right) :
      Divides (.binary op left right)
        ⟨[op.symbol], some (.range i (i + size left)), some (.range j (j + size right))⟩

variable {s}

/-- The texts of the operands' ranges are those of the outline. -/
theorem parts_of_divides (hs : s.Sound) {outline : Outline} {d : Division}
    (h : s.Divides outline d) : s.parts d = .ok (outline.parts s.line) := by
  cases h with
  | single t => rfl
  | call covers | negation covers =>
      simp only [parts, Option.mapM_some, operandText, text_eq hs covers, bind, Except.bind]
      rfl
  | binary leftCovers rightCovers =>
      simp only [parts, Option.mapM_some, operandText, text_eq hs leftCovers,
        text_eq hs rightCovers, bind, Except.bind]
      rfl

end Splitter

end GraphCalc.Checked
