import GraphCalc.Expr.Basic
import GraphCalc.Sampling

/-!
# GraphCalc.Curve

Curves as restartable cursors.  A curve is an expression with a sweep over its parameter: it has a
next point as long as the sweep is inside its range, and drawing that point moves the sweep on.

* Cartesian, the parameter `t` is the abscissa: `(t, f t)`;
* polar, it is the angle: `(r t * cos t, r t * sin t)`.

A draw that fails leaves the curve as it was.  The empty curve stands in where there is nothing to
draw.
-/

namespace GraphCalc

/-- A point of the plane. -/
structure Point (α : Type) where
  x : α
  y : α
deriving DecidableEq

/-- How values become points. -/
inductive Projection where
  | cartesian
  | polar
deriving DecidableEq

/-- A curve: nothing, or an expression with a sweep over its parameter. -/
inductive Curve (α : Type) where
  | empty
  | traced (projection : Projection) (expr : Expr α) (sweep : Sweep α)

/-- Numbers of which some may be infinite. -/
class MaybeInfinite (α : Type) where
  isInfinite : α → Bool

instance : MaybeInfinite Float := ⟨Float.isInf⟩

/-- The point of an expression at parameter `t`.  An infinite angle has no direction. -/
def Projection.point {α : Type} [Arithmetic α] [MaybeInfinite α] (projection : Projection)
    (e : Expr α) (t : α) : Except (NumericError α) (Point α) :=
  match projection with
  | .cartesian => .ok ⟨t, e.eval t⟩
  | .polar =>
    if MaybeInfinite.isInfinite t then .error .infiniteAngle
    else
      let r := e.eval t
      .ok ⟨Arithmetic.apply .mul r (Arithmetic.call .cos t),
        Arithmetic.apply .mul r (Arithmetic.call .sin t)⟩

namespace Curve

variable {α : Type} [Arithmetic α] [MaybeInfinite α]
  [Add α] [LE α] [DecidableLE α] [OfScientific α]

/-- A curve that stands at its start.  The step must not be zero or negative. -/
def make? [OfNat α 0] (projection : Projection) (e : Expr α) (start stop step : α) :
    Except (NumericError α) (Curve α) :=
  (Sweep.make? start stop step).map (traced projection e)

/-- There is a point left to draw. -/
def hasNext : Curve α → Bool
  | empty => false
  | traced _ _ sweep => sweep.isInside

/-- Draws the next point: the point, and the curve after it.  There is none after the last one. -/
def next? : Curve α → Except (NumericError α) (Option (Point α × Curve α))
  | empty => .ok none
  | traced projection e sweep =>
    if sweep.isInside then
      (projection.point e sweep.position).map fun p => some (p, traced projection e sweep.advance)
    else .ok none

/-- Draws the next point, which must exist. -/
def draw (c : Curve α) : Except (NumericError α) (Point α × Curve α) :=
  match c.next? with
  | .ok (some drawn) => .ok drawn
  | .ok none => .error .exhausted
  | .error e => .error e

/-- The curve back at its start. -/
def rewind : Curve α → Curve α
  | empty => empty
  | traced projection e sweep => traced projection e sweep.rewind

/-- What comes of drawing a curve to its end: the points, the curve after the last of them, and the
failure that cut it short, if one did. -/
structure Drained (α : Type) where
  points : List (Point α)
  curve : Curve α
  failure : Option (NumericError α)

/-- Draws to the end within a budget of draws; `points` are those drawn before, the last one first. -/
def drainFrom : Nat → List (Point α) → Curve α → Drained α
  | 0, points, c => ⟨points.reverse, c, some .endless⟩
  | budget + 1, points, c =>
    match c.next? with
    | .ok (some (p, c)) => drainFrom budget (p :: points) c
    | .ok none => ⟨points.reverse, c, none⟩
    | .error e => ⟨points.reverse, c, some e⟩

/-- Draws from where the curve stands to its end, within a budget of draws. -/
def drain (budget : Nat) (c : Curve α) : Drained α := drainFrom budget [] c

end Curve

end GraphCalc
