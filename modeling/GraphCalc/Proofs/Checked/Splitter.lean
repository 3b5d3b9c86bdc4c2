import GraphCalc.Outline
import GraphCalc.Proofs.Token.Signs
import GraphCalc.Text.Blank

/-!
# GraphCalc.Proofs.Checked.Splitter

The top level of a text, found by positions.

`Parts.ofLine` groups the tokens into items first, and then nothing it looks for can be missing.
Here the same is done on positions in the list of tokens, with a table of matching parentheses
beside it.  Every step that could find nothing there is checked: a token beyond the end, a
parenthesis that the table does not know, a step that does not shrink the range.  Such a `Fault` is
kept apart from the refusal of a text.

`Splitter.split` works on the tokens from `lo` up to `hi`, of which the last is the one at `hi - 1`.
-/

namespace GraphCalc.Checked

/-! ## faults -/

/-- A step that finds nothing to work on. -/
inductive Fault where
  | noToken (position : Nat)
  | noPartner (position : Nat)
  | noOperand
  | emptyStack
  /-- A recursion that does not get any closer to its end. -/
  | noProgress
deriving DecidableEq

/-- Why a computation stops: the text is refused, or a step is at fault. -/
inductive Stop where
  | refused (reason : Refusal)
  | fault (fault : Fault)
deriving DecidableEq

/-- The refusal of a text, with the token to blame. -/
def blame {α : Type} (line : List Char) (t : Token) (problem : Problem) : Except Stop α :=
  .error (.refused (.located ⟨problem, line, t.start, t.text.length⟩))

/-- The token at a position. -/
def tokenAt (tokens : List Token) (i : Nat) : Except Stop Token :=
  match tokens[i]? with
  | some t => .ok t
  | none => .error (.fault (.noToken i))

/-! ## matching parentheses -/

/-- The pairs of matching parentheses, given the positions of those that are open, the innermost one
first, and the pairs found before position `i`. -/
def matchFrom (line : List Char) (tokens : List Token) (i : Nat) (stack : List Nat)
    (pairs : List (Nat × Nat)) : List Token → Except Stop (List (Nat × Nat))
  | [] =>
    match stack with
    | [] => .ok pairs
    | j :: _ => do blame line (← tokenAt tokens j) .unmatchedOpening
  | t :: ts =>
    match t.kind with
    | .opening => matchFrom line tokens (i + 1) (i :: stack) pairs ts
    | .closing =>
      match stack with
      | [] => blame line t .unmatchedClosing
      | j :: stack => matchFrom line tokens (i + 1) stack ((j, i) :: pairs) ts
    | _ => matchFrom line tokens (i + 1) stack pairs ts

/-- A line with its tokens, and the position of its partner for every opening parenthesis. -/
structure Splitter where
  line : List Char
  tokens : List Token
  pairs : List (Nat × Nat)

namespace Splitter

/-- The splitter of a line. -/
def make (line : List Char) : Except Stop Splitter :=
  match Token.scan line with
  | .error flaw => .error (.refused (flaw.refusal line ⟨0, line.length⟩))
  | .ok tokens => do return ⟨line, tokens, ← matchFrom line tokens 0 [] [] tokens⟩

variable (s : Splitter)

/-- The position of the partner of an opening parenthesis. -/
def partner (i : Nat) : Except Stop Nat :=
  match s.pairs.lookup i with
  | some j => .ok j
  | none => .error (.fault (.noPartner i))

/-! ## ranges -/

/-- The text that a range of tokens covers. -/
def text (lo hi : Nat) : Except Stop (List Char) :=
  if hi ≤ lo then .ok []
  else do
    let first ← tokenAt s.tokens lo
    let last ← tokenAt s.tokens (hi - 1)
    return Text.strip (Window.text ⟨first.start, last.stop⟩ s.line)

/-- The range without the parentheses around the whole of it. -/
def stripParens (lo hi : Nat) : Except Stop (Nat × Nat) :=
  if _h : 2 ≤ hi - lo then do
    let first ← tokenAt s.tokens lo
    if first.kind = .opening then
      let close ← s.partner lo
      if close = hi - 1 then stripParens (lo + 1) (hi - 1) else return (lo, hi)
    else return (lo, hi)
  else .ok (lo, hi)
termination_by hi - lo

/-- The positions outside of any parentheses among the next `n` ones from `i` on, given how many
parentheses are open. -/
def topLevelFrom : Nat → Nat → Int → Except Stop (List Nat)
  | 0, _, _ => .ok []
  | n + 1, i, depth => do
    let t ← tokenAt s.tokens i
    match t.kind with
    | .opening => topLevelFrom n (i + 1) (depth + 1)
    | .closing => topLevelFrom n (i + 1) (depth - 1)
    | _ => do
      let later ← topLevelFrom n (i + 1) depth
      return if depth = 0 then i :: later else later

/-- The positions of a range outside of any parentheses. -/
def topLevel (lo hi : Nat) : Except Stop (List Nat) := s.topLevelFrom (hi - lo) lo 0

/-! ## the weakest operator -/

/-- A `+` or `-` with nothing to its left is a sign, no binary operator. -/
def isSign (lo i : Nat) : Except Stop Bool := do
  let t ← tokenAt s.tokens i
  match t.kind with
  | .operator op =>
    if !op.isSign then return false
    else if i = lo then return true
    else return (← tokenAt s.tokens (i - 1)).expectsOperand
  | _ => return false

/-- The position has a binary operator of the wanted strength. -/
def isCandidate (wanted : Operator → Bool) (lo i : Nat) : Except Stop Bool := do
  let t ← tokenAt s.tokens i
  match t.kind with
  | .operator op => if wanted op then return !(← s.isSign lo i) else return false
  | _ => return false

/-- Those of the positions that have a binary operator of the wanted strength. -/
def candidates (wanted : Operator → Bool) (lo : Nat) : List Nat → Except Stop (List Nat)
  | [] => .ok []
  | i :: is => do
    let keep ← s.isCandidate wanted lo i
    let later ← candidates wanted lo is
    return if keep then i :: later else later

/-- The operators of one strength, and whether they bind to the left, so that the last one is cut
at. -/
structure Strength where
  wanted : Operator → Bool
  toLeft : Bool

/-- The strengths of operators, the weakest first. -/
def precedence : List Strength :=
  [⟨Operator.isSign, true⟩, ⟨Operator.isFactor, true⟩, ⟨Operator.isPower, false⟩]

/-- The position of the operator to cut at.  With a sign in front there is no cut at a power. -/
def cutAt? (lo hi : Nat) (signed : Bool) : List Strength → Except Stop (Option Nat)
  | [] => .ok none
  | strength :: rest =>
    if signed && strength.wanted .pow then .ok none
    else do
      let found ← s.candidates strength.wanted lo (← s.topLevel lo hi)
      match if strength.toLeft then found.getLast? else found.head? with
      | some i => return some i
      | none => cutAt? lo hi signed rest

/-- The parts on either side of a binary operator. -/
def binary (lo i hi : Nat) : Except Stop Parts := do
  let op ← tokenAt s.tokens i
  if i = lo || i = hi - 1 then blame s.line op .missingOperand
  else return ⟨op.text, some (← s.text lo i), some (← s.text (i + 1) hi)⟩

/-! ## the top level -/

/-- The range is a word with one group in parentheses after it. -/
def isCall (first : Token) (lo hi : Nat) : Except Stop Bool :=
  if first.kind = .word && 2 < hi - lo then do
    let second ← tokenAt s.tokens (lo + 1)
    if second.kind = .opening then return (← s.partner (lo + 1)) = hi - 1 else return false
  else .ok false

/-- The parts of a range without an operator to cut at and without a sign in front. -/
def operand (first : Token) (lo hi : Nat) : Except Stop Parts := do
  if ← s.isCall first lo hi then return ⟨first.text, some (← s.text (lo + 2) (hi - 1)), none⟩
  else if hi - lo = 1 then return ⟨first.text, none, none⟩
  else blame s.line (← tokenAt s.tokens (lo + 1)) .unexpectedToken

/-- The sign that a token is at the start of a range. -/
def signOf? (t : Token) : Option Operator :=
  match t.kind with
  | .operator op => if op.isSign then some op else none
  | _ => none

/-- The parts of the tokens from `lo` up to `hi`. -/
def split (lo hi : Nat) : Except Stop Parts := do
  let (low, high) ← s.stripParens lo hi
  if high ≤ low then .error (.refused .empty)
  let first ← tokenAt s.tokens low
  match ← s.cutAt? low high (signOf? first).isSome precedence with
  | some i => s.binary low i high
  | none =>
    match signOf? first with
    | some op =>
      if high - low = 1 then blame s.line first .missingOperand
      else if op = .sub then return ⟨['-'], some ['0'], some (← s.text (low + 1) high)⟩
      else if _h : high - (low + 1) < hi - lo then split (low + 1) high
      else .error (.fault .noProgress)
    | none => s.operand first low high
termination_by hi - lo

end Splitter

/-- The number of tokens in a text. -/
def tokenCount (text : List Char) : Nat :=
  match Token.scan text with
  | .ok tokens => tokens.length
  | .error _ => 0

/-- The top level of a text. -/
def split (text : List Char) : Except Stop Parts := do
  let s ← Splitter.make text
  s.split 0 s.tokens.length

end GraphCalc.Checked
