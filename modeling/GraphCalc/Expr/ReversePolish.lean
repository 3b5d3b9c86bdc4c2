import GraphCalc.Expr.Basic
import GraphCalc.Number.Numeral
import GraphCalc.Refusal
import GraphCalc.Text.Blank
import GraphCalc.Text.Lowercase

/-!
# GraphCalc.Expr.ReversePolish

Reading an expression in reverse Polish notation.

The words of the text, in lower case, are read from left to right with a stack of expressions: the
variable and a numeral go onto it, an operator takes the two topmost, of which the upper one is its
right operand, and a function takes one.  One expression has to be left.
-/

namespace GraphCalc.Expr

/-- An operator takes two expressions off the stack and puts one on. -/
def pushOperator (op : Operator) : List (Expr Float) → Except Refusal (List (Expr Float))
  | right :: left :: stack => .ok (binary op left right :: stack)
  | _ => .error .unbalanced

/-- A function takes one expression off the stack and puts one on. -/
def pushCall (fn : Elementary) : List (Expr Float) → Except Refusal (List (Expr Float))
  | argument :: stack => .ok (call fn argument :: stack)
  | [] => .error .unbalanced

/-- The stack after a word in lower case. -/
def pushWord (stack : List (Expr Float)) (word : List Char) :
    Except Refusal (List (Expr Float)) :=
  if word = ['x'] then .ok (var :: stack)
  else
    match Number.read? word, Operator.ofText? word, Elementary.ofName? word with
    | some v, _, _ => .ok (const v :: stack)
    | none, some op, _ => pushOperator op stack
    | none, none, some fn => pushCall fn stack
    | none, none, none => .error (.illegalToken word)

/-- The expression that a text in reverse Polish notation stands for. -/
def ofReversePolish (text : List Char) : Except Refusal (Expr Float) := do
  let stack ← ((Text.words text).map Text.lower).foldlM pushWord []
  match stack with
  | [e] => return e
  | _ => .error .unbalanced

end GraphCalc.Expr
