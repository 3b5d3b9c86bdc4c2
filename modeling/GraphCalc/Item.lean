import GraphCalc.Token

/-!
# GraphCalc.Item

A line of tokens as a list of items: single tokens, and groups in matching parentheses whose inside is
again a list of items.

`Item.group` reads the tokens from left to right and keeps, for every parenthesis that is still open,
what stood before it.  A closing parenthesis with nothing open is blamed where it stands; if
parentheses are left open at the end, the innermost of them is blamed, which is the last one in the
line without a partner.
-/

namespace GraphCalc

/-- A token that is no parenthesis, or a group with its two parentheses. -/
inductive Item where
  | token (t : Token)
  | group (opening : Token) (inner : List Item) (closing : Token)

namespace Item

/-- The first token of an item. -/
def first : Item → Token
  | token t => t
  | group o _ _ => o

/-- The last token of an item. -/
def last : Item → Token
  | token t => t
  | group _ _ c => c

/-- The token after the first one of a group. -/
def second? : Item → Option Token
  | token _ => none
  | group _ [] c => some c
  | group _ (item :: _) _ => some item.first

mutual

/-- The tokens an item was made of. -/
def tokens : Item → List Token
  | token t => [t]
  | group o inner c => o :: flatten inner ++ [c]

/-- The tokens that items were made of. -/
def flatten : List Item → List Token
  | [] => []
  | item :: items => item.tokens ++ flatten items

end

/-- The part of the line that items cover; items are separated by nothing but blanks. -/
def window (items : List Item) : Window :=
  match items.head?, items.getLast? with
  | some a, some b => ⟨a.first.start, b.last.stop⟩
  | _, _ => ⟨0, 0⟩

/-! ## grouping -/

/-- An open parenthesis, and the items before it, the last one first. -/
structure Pending where
  opening : Token
  before : List Item

/-- The items of the tokens, given the parentheses that are open, the innermost one first, and the
items since the last of them, the last one first. -/
def groupFrom : List Pending → List Item → List Token → Except Flaw (List Item)
  | [], done, [] => .ok done.reverse
  | p :: _, _, [] => .error (p.opening.flaw .unmatchedOpening)
  | stack, done, t :: ts =>
    match t.kind with
    | .opening => groupFrom (⟨t, done⟩ :: stack) [] ts
    | .closing =>
      match stack with
      | [] => .error (t.flaw .unmatchedClosing)
      | p :: stack => groupFrom stack (group p.opening done.reverse t :: p.before) ts
    | _ => groupFrom stack (token t :: done) ts

/-- The items of a line of tokens. -/
def groupTokens (ts : List Token) : Except Flaw (List Item) := groupFrom [] [] ts

/-- The items of a line of text. -/
def ofLine (line : List Char) : Except Flaw (List Item) := do
  groupTokens (← Token.scan line)

/-- Items without the parentheses around the whole of them. -/
def unwrap : List Item → List Item
  | [group _ inner _] => unwrap inner
  | items => items

end Item

end GraphCalc
