import GraphCalc.Expr.Basic
import GraphCalc.Number.Written

/-!
# GraphCalc.Expr.Render

Expressions as text, in either notation.

* algebraic: every operation in parentheses, `(2 * x)`, and calls as `sin(x)`;
* reverse Polish: operands before their operator or function, separated by single spaces, `2 x *`.

How a constant is written is a parameter of both; the program writes it tidily
(`GraphCalc.Number.tidy`).
-/

namespace GraphCalc

/-- The two notations an expression can be typed and shown in. -/
inductive Notation where
  | algebraic
  | reversePolish
deriving DecidableEq

/-- The name a notation is chosen by. -/
def Notation.name : Notation → String
  | .algebraic => "AOS"
  | .reversePolish => "RPN"

namespace Expr

section

variable {α : Type} (number : α → List Char)

/-- The expression in algebraic notation, fully parenthesised. -/
def algebraicWith : Expr α → List Char
  | var => ['x']
  | const c => number c
  | binary op l r =>
    '(' :: l.algebraicWith ++ [' ', op.symbol, ' '] ++ r.algebraicWith ++ [')']
  | call fn a => fn.name ++ '(' :: a.algebraicWith ++ [')']

/-- The expression in reverse Polish notation. -/
def reversePolishWith : Expr α → List Char
  | var => ['x']
  | const c => number c
  | binary op l r => l.reversePolishWith ++ ' ' :: r.reversePolishWith ++ [' ', op.symbol]
  | call fn a => a.reversePolishWith ++ ' ' :: fn.name

end

/-- The expression in algebraic notation, with its constants written tidily. -/
def toAlgebraic (e : Expr Float) : List Char := e.algebraicWith Number.tidy

/-- The expression in reverse Polish notation, with its constants written tidily. -/
def toReversePolish (e : Expr Float) : List Char := e.reversePolishWith Number.tidy

/-- The expression in the given notation. -/
def render : Notation → Expr Float → List Char
  | .algebraic => toAlgebraic
  | .reversePolish => toReversePolish

end Expr

end GraphCalc
