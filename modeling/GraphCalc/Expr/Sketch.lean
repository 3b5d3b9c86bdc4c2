import GraphCalc.Expr.Basic
import GraphCalc.Refusal

/-!
# GraphCalc.Expr.Sketch

Expressions whose operators and functions are still given by name.  A sketch becomes an expression
from the leaves to the root, the left operand before the right one, and each name is looked up when
everything below it has been.
-/

namespace GraphCalc

/-- An expression with names for its operators and functions. -/
inductive Sketch where
  | var
  | const (value : Float)
  | binary (symbol : List Char) (left right : Sketch)
  | call (name : List Char) (argument : Sketch)

/-- The expression of a sketch. -/
def Sketch.toExpr : Sketch → Except Refusal (Expr Float)
  | var => .ok .var
  | const v => .ok (.const v)
  | binary symbol left right => do
    let l ← left.toExpr
    let r ← right.toExpr
    match Operator.ofText? symbol with
    | some op => return .binary op l r
    | none => .error (.unknownOperator symbol)
  | call name argument => do
    let a ← argument.toExpr
    match Elementary.ofName? name with
    | some fn => return .call fn a
    | none => .error (.unknownFunction name)

end GraphCalc
