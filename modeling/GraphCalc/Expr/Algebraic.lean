import GraphCalc.Number.Numeral
import GraphCalc.Outline

/-!
# GraphCalc.Expr.Algebraic

Reading an expression in algebraic notation: the outline of the whole, then those of its operands, the
left one first.

A line is cut into tokens once.  While an operand is being read, complaints show that operand's part
of the line and count positions from its start.  The operand of a dropped sign `+` and the inside of
parentheses are no parts of their own.
-/

namespace GraphCalc.Expr

/-- The text is the variable, in either case. -/
def isVariable (text : List Char) : Bool := text == ['x'] || text == ['X']

/-- The expression that a single token stands for. -/
def ofToken (t : Token) : Except Refusal (Expr Float) :=
  if isVariable t.text then .ok var
  else
    match Number.read? t.text with
    | some v => .ok (const v)
    | none => .error (.unknownToken t.text)

/-- The function that a name stands for, in any case.  Only a name made of letters is taken for a
function that is not known. -/
def callee (name : List Char) : Except Refusal Elementary :=
  if name.all Text.isLetter then
    match Elementary.ofName? (name.map Char.toLower) with
    | some fn => .ok fn
    | none => .error (.unknownFunction name)
  else .error (.unknownToken name)

/-- The expression that items of `line` stand for, nested to at most the given number of levels. -/
def ofItems (line : List Char) : Nat → Window → List Item → Except Refusal (Expr Float)
  | 0, _, _ => .error .tooDeep
  | levels + 1, window, items =>
    match Outline.ofItems (levels + 1) items with
    | .error flaw => .error (flaw.refusal line window)
    | .ok (.single t) => ofToken t
    | .ok (.call name argument) =>
      -- `x` followed by a group is the variable, and the group is not looked into
      if isVariable name.text then .ok var
      else do
        let fn ← callee name.text
        let a ← ofItems line levels (Item.window argument) argument
        return call fn a
    | .ok (.negation operand) => do
      let u ← ofItems line levels (Item.window operand) operand
      return binary .sub (num 0) u
    | .ok (.binary op left right) => do
      let l ← ofItems line levels (Item.window left) left
      let r ← ofItems line levels (Item.window right) right
      return binary op l r

/-- The expression that a line in algebraic notation stands for. -/
def ofAlgebraic (levels : Nat) (line : List Char) : Except Refusal (Expr Float) :=
  let whole : Window := ⟨0, line.length⟩
  match Item.ofLine line with
  | .error flaw => .error (flaw.refusal line whole)
  | .ok items => ofItems line levels whole items

end GraphCalc.Expr
