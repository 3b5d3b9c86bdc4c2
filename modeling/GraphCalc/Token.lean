import GraphCalc.Expr.Basic
import GraphCalc.Refusal
import GraphCalc.Text.Blank
import GraphCalc.Text.Digit
import GraphCalc.Text.Letter

/-!
# GraphCalc.Token

The tokens of a line in algebraic notation:

```
number = a run of digits and periods, with one period at most and not a period alone
word   = a letter or underscore, and the letters, numeric characters and underscores after it
single = ( | ) | + | - | * | / | ^
```

Runs are as long as they can be, blanks separate tokens and are dropped, and positions count
characters.  `Token.scan` reads one token at the front of what is left, which gets shorter each time.
-/

namespace GraphCalc

/-- The kinds of token. -/
inductive Token.Kind where
  | number
  | word
  | opening
  | closing
  | operator (op : Operator)
deriving DecidableEq

/-- A token: its characters, and the position of the first of them in the line. -/
structure Token where
  kind : Token.Kind
  text : List Char
  start : Nat
deriving DecidableEq

namespace Token

/-- The position after the last character. -/
def stop (t : Token) : Nat := t.start + t.text.length

/-- What is wrong with this token. -/
def flaw (t : Token) (problem : Problem) : Flaw := .located problem t.start t.text.length

/-- A complaint about a token whose line is not known. -/
def complain (t : Token) (words : List Char) : Complaint :=
  ⟨.remark words, "<none>".toList, t.start, t.text.length⟩

/-! ## names -/

/-- The name of a kind. -/
def Kind.name : Kind → String
  | number => "NUMBER"
  | word => "WORD"
  | opening => "LPAREN"
  | closing => "RPAREN"
  | operator .add => "PLUS"
  | operator .sub => "MINUS"
  | operator .mul => "MUL"
  | operator .div => "DIV"
  | operator .pow => "EXP"

/-- Every kind, in the order of the grammar. -/
def Kind.all : List Kind :=
  [number, word, opening, closing, operator .add, operator .sub, operator .mul, operator .div,
    operator .pow]

/-- The kind with the given name. -/
def Kind.ofName? (name : String) : Option Kind := all.find? fun k => k.name == name

/-- A token with its kind, for showing. -/
def describe (t : Token) : String :=
  "Token(TokenType." ++ t.kind.name ++ ", " ++ String.ofList t.text ++ ")"

/-! ## characters -/

/-- A character of a number. -/
def inNumber (c : Char) : Bool := Text.isDigit c || c == '.'

/-- The kind of a token of one character. -/
def single? : Char → Option Kind
  | '(' => some .opening
  | ')' => some .closing
  | c => (Operator.ofSymbol? c).map .operator

/-! ## scanning -/

/-- The place of the second period in a run. -/
def secondPeriod? (run : List Char) : Option Nat := do
  let first ← run.findIdx? (· == '.')
  let next ← (run.drop (first + 1)).findIdx? (· == '.')
  return first + 1 + next

/-- What keeps a run of digits and periods at `start` from being a number. -/
def numberFlaw? (run : List Char) (start : Nat) : Option Flaw :=
  match secondPeriod? run with
  | some i => some (.located .secondPeriod (start + i) 1)
  | none => if run = ['.'] then some (.located .lonePeriod start 1) else none

/-- The tokens of `cs`, which stands at position `start` of its line. -/
def scanFrom (start : Nat) (cs : List Char) : Except Flaw (List Token) :=
  match cs with
  | [] => .ok []
  | c :: rest =>
    if Text.isBlank c then scanFrom (start + 1) rest
    else if inNumber c then
      let run := c :: rest.takeWhile inNumber
      match numberFlaw? run start with
      | some flaw => .error flaw
      | none => do
        let ts ← scanFrom (start + run.length) (rest.dropWhile inNumber)
        return ⟨.number, run, start⟩ :: ts
    else if Text.startsWord c then do
      let run := c :: rest.takeWhile Text.continuesWord
      let ts ← scanFrom (start + run.length) (rest.dropWhile Text.continuesWord)
      return ⟨.word, run, start⟩ :: ts
    else
      match single? c with
      | some kind => do
        let ts ← scanFrom (start + 1) rest
        return ⟨kind, [c], start⟩ :: ts
      | none => .error (.located (.unrecognized c) start 1)
termination_by cs.length
decreasing_by
  all_goals
    have h1 := (List.dropWhile_sublist inNumber (l := rest)).length_le
    have h2 := (List.dropWhile_sublist Text.continuesWord (l := rest)).length_le
    simp only [List.length_cons]
    omega

/-- The tokens of a line. -/
def scan (line : List Char) : Except Flaw (List Token) := scanFrom 0 line

end Token

end GraphCalc
