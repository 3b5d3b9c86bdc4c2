/-!
# GraphCalc.Expr.Basic

Expressions in one variable `x`, over an arithmetic that is a parameter.

An expression is the variable, a constant, a binary operation or a call of an elementary function.
`Arithmetic α` says what the operations mean on `α`, and nothing about their laws: the program runs
on doubles (`Float`), where few laws hold, and the same definitions are read over the real or the
rational numbers, or over an arithmetic of which only what is written down is known.
-/

namespace GraphCalc

/-! ## operators and elementary functions -/

/-- The binary operators. -/
inductive Operator where
  | add
  | sub
  | mul
  | div
  | pow
deriving DecidableEq

namespace Operator

/-- The character an operator is written as. -/
def symbol : Operator → Char
  | add => '+'
  | sub => '-'
  | mul => '*'
  | div => '/'
  | pow => '^'

/-- The operator that a character stands for. -/
def ofSymbol? : Char → Option Operator
  | '+' => some add
  | '-' => some sub
  | '*' => some mul
  | '/' => some div
  | '^' => some pow
  | _ => none

/-- The operator that is written as the whole of a text. -/
def ofText? : List Char → Option Operator
  | [c] => ofSymbol? c
  | _ => none

@[simp] theorem ofSymbol?_symbol (op : Operator) : ofSymbol? op.symbol = some op := by
  cases op <;> rfl

/-- Only an operator's own symbol stands for it. -/
theorem symbol_of_ofSymbol? {c : Char} {op : Operator} (h : ofSymbol? c = some op) :
    op.symbol = c := by
  unfold ofSymbol? at h
  split at h <;> simp_all [symbol] <;> subst h <;> rfl

/-- Only an operator's own symbol, on its own, is its text. -/
theorem symbol_of_ofText? {text : List Char} {op : Operator} (h : ofText? text = some op) :
    [op.symbol] = text := by
  match text, h with
  | [c], h => rw [symbol_of_ofSymbol? h]

end Operator

/-- The elementary functions. -/
inductive Elementary where
  | sin
  | cos
  | exp
  | log
deriving DecidableEq

namespace Elementary

/-- The name a function is called by. -/
def name : Elementary → List Char
  | sin => ['s', 'i', 'n']
  | cos => ['c', 'o', 's']
  | exp => ['e', 'x', 'p']
  | log => ['l', 'o', 'g']

/-- The function with the given name. -/
def ofName? (name : List Char) : Option Elementary :=
  [sin, cos, exp, log].find? fun fn => fn.name == name

@[simp] theorem ofName?_name (fn : Elementary) : ofName? fn.name = some fn := by
  cases fn <;> rfl

/-- Only a function's own name finds it. -/
theorem name_of_ofName? {name : List Char} {fn : Elementary} (h : ofName? name = some fn) :
    fn.name = name := by
  simpa using List.find?_some h

end Elementary

/-! ## expressions -/

/-- An expression in the variable `x` with constants from `α`. -/
inductive Expr (α : Type) where
  | var
  | const (value : α)
  | binary (op : Operator) (left right : Expr α)
  | call (fn : Elementary) (argument : Expr α)
deriving DecidableEq

/-- The number of nodes on the longest path from the root to a leaf. -/
def Expr.depth {α : Type} : Expr α → Nat
  | .var => 1
  | .const _ => 1
  | .binary _ l r => max l.depth r.depth + 1
  | .call _ a => a.depth + 1

/-! ## arithmetic -/

/-- What the operators and functions compute on `α`. -/
class Arithmetic (α : Type) where
  /-- What an operator computes. -/
  apply : Operator → α → α → α
  /-- What an elementary function computes. -/
  call : Elementary → α → α
  /-- The integers that differentiation and simplification write down. -/
  ofInt : Int → α
  /-- Equality as numbers.  It need not be equality of `α`: among doubles the two zeros are the same
  number, and a NaN is not the same number as itself. -/
  same : α → α → Bool

/-- A power of doubles.  A square is computed as a product, which is rounded correctly; a power in
general need not be. -/
def powFloat (a b : Float) : Float := if b == 2 then a * a else Float.pow a b

/-- IEEE double precision, where nothing is an error: a division by zero gives an infinity or a NaN,
and so does the logarithm of a number that is not positive. -/
instance : Arithmetic Float where
  apply
    | .add, a, b => a + b
    | .sub, a, b => a - b
    | .mul, a, b => a * b
    | .div, a, b => a / b
    | .pow, a, b => powFloat a b
  call
    | .sin, a => Float.sin a
    | .cos, a => Float.cos a
    | .exp, a => Float.exp a
    | .log, a => Float.log a
  ofInt := Float.ofInt
  same a b := a == b

section

variable {α : Type} [Arithmetic α]

/-- The value of an expression at `x`. -/
def Expr.eval (x : α) : Expr α → α
  | .var => x
  | .const c => c
  | .binary op l r => Arithmetic.apply op (l.eval x) (r.eval x)
  | .call fn a => Arithmetic.call fn (a.eval x)

/-- An integer as an expression. -/
def Expr.num (n : Int) : Expr α := .const (Arithmetic.ofInt n)

end

end GraphCalc
