import GraphCalc.Expr.Basic

/-!
# GraphCalc.Expr.Simplify

One pass of simplification, from the leaves to the root.  A node whose operands have been simplified
is reduced at most once:

* an operation on constants, and a call on a constant, becomes the constant it computes;
* a neutral operand is dropped: `0 + u`, `u + 0`, `u - 0`, `1 * u`, `u * 1`, `u / 1`, `u ^ 1`;
* `0 * u` and `u * 0` become `0`, and `u ^ 0` becomes `1`.

Whether a constant is `0` or `1` is a question of numeric equality, so a negative zero is a zero.
-/

namespace GraphCalc.Expr

variable {α : Type} [Arithmetic α]

/-- The expression is a constant that is numerically `n`. -/
def isNum (n : Int) : Expr α → Bool
  | const c => Arithmetic.same c (Arithmetic.ofInt n)
  | _ => false

/-- The sum of simplified operands. -/
def reduceSum (l r : Expr α) : Expr α :=
  if l.isNum 0 then r else if r.isNum 0 then l else binary .add l r

/-- The difference of simplified operands.  A zero on the left stays: `0 - u` is a negation. -/
def reduceDifference (l r : Expr α) : Expr α :=
  if r.isNum 0 then l else binary .sub l r

/-- The product of simplified operands. -/
def reduceProduct (l r : Expr α) : Expr α :=
  if l.isNum 0 || r.isNum 0 then num 0
  else if l.isNum 1 then r
  else if r.isNum 1 then l
  else binary .mul l r

/-- The quotient of simplified operands. -/
def reduceQuotient (l r : Expr α) : Expr α :=
  if r.isNum 1 then l else binary .div l r

/-- The power of simplified operands. -/
def reducePower (l r : Expr α) : Expr α :=
  if r.isNum 1 then l else if r.isNum 0 then num 1 else binary .pow l r

/-- An operation on simplified operands. -/
def reduceBinary (op : Operator) (l r : Expr α) : Expr α :=
  match l, r with
  | const a, const b => const (Arithmetic.apply op a b)
  | l, r =>
    match op with
    | .add => reduceSum l r
    | .sub => reduceDifference l r
    | .mul => reduceProduct l r
    | .div => reduceQuotient l r
    | .pow => reducePower l r

/-- A call on a simplified argument. -/
def reduceCall (fn : Elementary) (argument : Expr α) : Expr α :=
  match argument with
  | const a => const (Arithmetic.call fn a)
  | _ => call fn argument

/-- One pass of simplification. -/
def simplify : Expr α → Expr α
  | var => var
  | const c => const c
  | binary op l r => reduceBinary op l.simplify r.simplify
  | call fn a => reduceCall fn a.simplify

end GraphCalc.Expr
