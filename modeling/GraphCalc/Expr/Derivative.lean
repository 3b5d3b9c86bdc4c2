import GraphCalc.Expr.Basic

/-!
# GraphCalc.Expr.Derivative

The derivative of an expression with respect to `x`, rule by rule and without simplifying:

```
(u + v)' = u' + v'
(u - v)' = u' - v'
(u * v)' = u' * v + u * v'
(u / v)' = (u' * v - u * v') / v ^ 2
(u ^ n)' = n * u ^ (n - 1) * u'                      n a constant
(u ^ v)' = u ^ v * (v' * log u + v * (u' / u))       otherwise
sin(u)'  = cos(u) * u'
cos(u)'  = -1 * (sin(u) * u')
exp(u)'  = exp(u) * u'
log(u)'  = 1 / u * u'
```

The rule for a constant exponent is a rule of its own because the general one takes the logarithm of
the base, which a negative base does not have.
-/

namespace GraphCalc.Expr

variable {α : Type} [Arithmetic α]

/-- The derivative of `u ^ v`, where `u'` and `v'` are the derivatives of `u` and `v`. -/
def powerDerivative (u v u' v' : Expr α) : Expr α :=
  match v with
  | const n =>
    let less := Arithmetic.apply .sub n (Arithmetic.ofInt 1)
    binary .mul (binary .mul (const n) (binary .pow u (const less))) u'
  | _ =>
    binary .mul (binary .pow u v)
      (binary .add (binary .mul v' (call .log u)) (binary .mul v (binary .div u' u)))

/-- The derivative of an elementary function of `u`, where `u'` is the derivative of `u`. -/
def callDerivative (fn : Elementary) (u u' : Expr α) : Expr α :=
  match fn with
  | .sin => binary .mul (call .cos u) u'
  | .cos => binary .mul (num (-1)) (binary .mul (call .sin u) u')
  | .exp => binary .mul (call .exp u) u'
  | .log => binary .mul (binary .div (num 1) u) u'

/-- The derivative with respect to `x`. -/
def differentiate : Expr α → Expr α
  | var => num 1
  | const _ => num 0
  | binary .add u v => binary .add u.differentiate v.differentiate
  | binary .sub u v => binary .sub u.differentiate v.differentiate
  | binary .mul u v =>
    binary .add (binary .mul u.differentiate v) (binary .mul u v.differentiate)
  | binary .div u v =>
    binary .div
      (binary .sub (binary .mul u.differentiate v) (binary .mul u v.differentiate))
      (binary .pow v (num 2))
  | binary .pow u v => powerDerivative u v u.differentiate v.differentiate
  | call fn u => callDerivative fn u u.differentiate

end GraphCalc.Expr
