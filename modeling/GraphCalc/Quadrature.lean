import GraphCalc.Sampling

/-!
# GraphCalc.Quadrature

Definite integrals by two rules.

```
rectangles:  Σ f(x) * h             over x = a, a + h, a + h + h, ... while x < b
trapezoids:  Σ (f(x) + f(x')) / 2 * h   over i < ⌊(b - a) / h⌋, x = a + i * h, x' = a + (i + 1) * h
```

Sums are taken from left to right, starting from zero.  The first rule finds its points by repeated
addition and the second by multiplication, so among doubles they need not meet the same points.  A
value of `f` that is no number is added like any other.
-/

namespace GraphCalc.Quadrature

variable {α : Type}

/-- The rules of integration. -/
inductive Rule where
  | rectangles
  | trapezoids
deriving DecidableEq

/-- The step of an integral must not be zero or negative. -/
def checkStep [LE α] [DecidableLE α] [OfNat α 0] (h : α) : Except (NumericError α) Unit :=
  if h ≤ 0 then .error (.integrationStep h) else .ok ()

/-! ## rectangles -/

/-- The rectangles from `x` on, added to `total`; `none` if the budget of steps runs out. -/
def rectanglesFrom [Add α] [Mul α] [LT α] [DecidableLT α] (f : α → α) (b h : α) :
    Nat → α → α → Option α
  | 0, _, _ => none
  | budget + 1, x, total =>
    if x < b then rectanglesFrom f b h budget (x + h) (total + f x * h) else some total

/-- The left-endpoint rule. -/
def rectangles [Add α] [Mul α] [LT α] [DecidableLT α] [LE α] [DecidableLE α] [OfNat α 0]
    (budget : Nat) (f : α → α) (a b h : α) : Except (NumericError α) α := do
  checkStep h
  match rectanglesFrom f b h budget a 0 with
  | some total => return total
  | none => .error .endless

/-! ## trapezoids -/

/-- The next `count` trapezoids, of which the first has index `i` and left height `left`, added to
`total`.  The right height of one is the left height of the next and is computed once. -/
def trapezoidsFrom [Add α] [Mul α] [Div α] [OfNat α 2] [Whole α] (f : α → α) (a h : α) :
    Nat → Nat → α → α → α
  | 0, _, _, total => total
  | count + 1, i, left, total =>
    let right := f (a + Whole.ofNat (i + 1) * h)
    trapezoidsFrom f a h count (i + 1) right (total + (left + right) / 2 * h)

/-- The trapezoidal rule. -/
def trapezoids [Add α] [Sub α] [Mul α] [Div α] [LE α] [DecidableLE α] [OfNat α 0] [OfNat α 2]
    [Whole α] (f : α → α) (a b h : α) : Except (NumericError α) α := do
  checkStep h
  let count ← Whole.floor ((b - a) / h)
  if count ≤ 0 then return 0
  else return trapezoidsFrom f a h count.toNat 0 (f a) 0

/-- The integral of `f` from `a` to `b` with step `h`, by either rule. -/
def integrate (rule : Rule) (f : Float → Float) (a b h : Float) :
    Except (NumericError Float) Float :=
  match rule with
  | .rectangles => rectangles stepBudget f a b h
  | .trapezoids => trapezoids f a b h

end GraphCalc.Quadrature
