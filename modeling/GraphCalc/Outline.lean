import GraphCalc.Item

/-!
# GraphCalc.Outline

The top level of an expression in algebraic notation: its weakest operation, with what stands on
either side, or what it is if it has none.

* Parentheses around the whole are taken off.
* `+` and `-` bind weakest and `*` and `/` next, both to the left: the expression is cut at the last
  of them.  `^` binds to the right: it is cut at the first.
* A `+` or `-` where an operand is expected, that is at the start or after an operator, is a sign and
  no place to cut.  A sign in front binds more weakly than `^` and more strongly than `*`, so `-x^2`
  is the negation of `x^2`, and `-x*2` a product.
* A sign `-` in front makes a negation; a sign `+` is dropped and the rest looked at in its place.
* A word with a group after it is a call.  A single token stands for itself.
-/

namespace GraphCalc

/-- The top level of an expression. -/
inductive Outline where
  | single (t : Token)
  | call (name : Token) (argument : List Item)
  | negation (operand : List Item)
  | binary (op : Operator) (left right : List Item)

/-! ## places to cut -/

namespace Operator

/-- An operator that is also a sign. -/
def isSign : Operator → Bool
  | add | sub => true
  | _ => false

/-- The operators that bind as strongly as products do. -/
def isFactor : Operator → Bool
  | mul | div => true
  | _ => false

/-- The operator that binds to the right. -/
def isPower : Operator → Bool
  | pow => true
  | _ => false

end Operator

namespace Item

/-- The operator that an item is. -/
def operator? : Item → Option Operator
  | token t =>
    match t.kind with
    | .operator op => some op
    | _ => none
  | group .. => none

/-- The item is an operator. -/
def isOperator (item : Item) : Bool := item.operator?.isSome

/-- The operator that an item is, unless it is a sign because an operand is expected there. -/
def binaryOperator? (expectOperand : Bool) (item : Item) : Option Operator :=
  item.operator?.filter fun op => !(expectOperand && op.isSign)

end Item

/-- An operator between items, with what stands before and after it. -/
structure Cut where
  before : List Item
  op : Operator
  place : Token
  after : List Item

/-- A cut at the first of the given items, if that is an operator of the wanted strength. -/
def Cut.here? (wanted : Operator → Bool) (expectOperand : Bool) (item : Item) (rest : List Item) :
    Option Cut :=
  match item.binaryOperator? expectOperand with
  | some op => if wanted op then some ⟨[], op, item.first, rest⟩ else none
  | none => none

/-- The cut at the last operator of the wanted strength. -/
def Cut.last? (wanted : Operator → Bool) : Bool → List Item → Option Cut
  | _, [] => none
  | expectOperand, item :: rest =>
    match Cut.last? wanted item.isOperator rest with
    | some cut => some ⟨item :: cut.before, cut.op, cut.place, cut.after⟩
    | none => Cut.here? wanted expectOperand item rest

/-- The cut at the first operator of the wanted strength. -/
def Cut.first? (wanted : Operator → Bool) : Bool → List Item → Option Cut
  | _, [] => none
  | expectOperand, item :: rest =>
    match Cut.here? wanted expectOperand item rest with
    | some cut => some cut
    | none =>
      (Cut.first? wanted item.isOperator rest).map fun cut =>
        ⟨item :: cut.before, cut.op, cut.place, cut.after⟩

/-- The operation that a cut stands for, which needs an operand on either side. -/
def Cut.outline (cut : Cut) : Except Flaw Outline :=
  if cut.before.isEmpty || cut.after.isEmpty then .error (cut.place.flaw .missingOperand)
  else .ok (.binary cut.op cut.before cut.after)

/-- The sign in front of items. -/
def leadingSign? : List Item → Option (Operator × Token × List Item)
  | item :: rest =>
    (item.operator?.filter Operator.isSign).map fun op => (op, item.first, rest)
  | [] => none

/-! ## outlines -/

namespace Outline

/-- The outline of items without a place to cut and without a sign in front. -/
def ofOperand : List Item → Except Flaw Outline
  | [] => .error .empty
  | [item] => .ok (.single item.first)
  | item :: next :: rest =>
    match item, next, rest with
    | .token name, .group _ argument _, [] =>
      if name.kind = .word then .ok (.call name argument)
      else .error (next.first.flaw .unexpectedToken)
    | _, _, _ => .error ((item.second?.getD next.first).flaw .unexpectedToken)

/-- The outline of items, with at most `levels` signs `+` to drop. -/
def ofItems : Nat → List Item → Except Flaw Outline
  | 0, _ => .error .tooDeep
  | levels + 1, items =>
    let items := Item.unwrap items
    match Cut.last? Operator.isSign true items with
    | some cut => cut.outline
    | none =>
      match Cut.last? Operator.isFactor true items with
      | some cut => cut.outline
      | none =>
        match leadingSign? items with
        | some (op, sign, rest) =>
          if rest.isEmpty then .error (sign.flaw .missingOperand)
          else if op = .sub then .ok (.negation rest)
          else ofItems levels rest
        | none =>
          match Cut.first? Operator.isPower true items with
          | some cut => cut.outline
          | none => ofOperand items

end Outline

/-! ## outlines as text -/

/-- The top level of a text: its operator or name, and the texts of its operands. -/
structure Parts where
  main : List Char
  left : Option (List Char)
  right : Option (List Char)
deriving DecidableEq

/-- An outline in texts.  A negation is a subtraction from zero. -/
def Outline.parts (line : List Char) : Outline → Parts
  | single t => ⟨t.text, none, none⟩
  | call name argument => ⟨name.text, some ((Item.window argument).text line), none⟩
  | negation operand => ⟨['-'], some ['0'], some ((Item.window operand).text line)⟩
  | binary op left right =>
    ⟨[op.symbol], some ((Item.window left).text line), some ((Item.window right).text line)⟩

/-- The top level of a line. -/
def Parts.ofLine (line : List Char) (levels : Nat := nestingLimit) : Except Refusal Parts :=
  match (do Outline.ofItems levels (← Item.ofLine line) : Except Flaw Outline) with
  | .ok outline => .ok (outline.parts line)
  | .error flaw => .error (flaw.refusal line ⟨0, line.length⟩)

end GraphCalc
