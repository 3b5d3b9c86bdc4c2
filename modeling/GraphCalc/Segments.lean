import GraphCalc.Curve

/-!
# GraphCalc.Segments

Cutting the points of a source into connected segments.

A source of points can be rewound, draws one point after the other, and says after each draw whether
the point just drawn begins a new segment.  The segments of a source are its points from the start,
cut before each point that begins one; the first point begins one whatever the source says, and there
are no empty segments.
-/

namespace GraphCalc

/-- A restartable source of points over `α`. -/
class PointSource (σ : Type) (α : outParam Type) where
  rewind : σ → σ
  /-- Draws a point; `none` after the last one. -/
  next? : σ → Except (NumericError α) (Option (Point α × σ))
  /-- The point last drawn begins a new segment. -/
  startsSegment : σ → Bool

namespace Segments

variable {σ α : Type} [PointSource σ α]

/-- The segments within a budget of draws, given the points of the segment being drawn and the
segments before it, both with the last one first. -/
def collectFrom : Nat → List (Point α) → List (List (Point α)) → σ →
    Except (NumericError α) (List (List (Point α)))
  | 0, _, _, _ => .error .endless
  | budget + 1, current, done, source =>
    match PointSource.next? source with
    | .error e => .error e
    | .ok none => .ok ((if current.isEmpty then done else current.reverse :: done).reverse)
    | .ok (some (p, source)) =>
      if PointSource.startsSegment source && !current.isEmpty then
        collectFrom budget [p] (current.reverse :: done) source
      else collectFrom budget (p :: current) done source

/-- The segments of a source from its start, within a budget of draws. -/
def collect (budget : Nat) (source : σ) : Except (NumericError α) (List (List (Point α))) :=
  collectFrom budget [] [] (PointSource.rewind source)

end Segments

/-! ## sources -/

section

variable {α : Type} [Arithmetic α] [MaybeInfinite α]
  [Add α] [LE α] [DecidableLE α] [OfScientific α]

/-- Curves look for no discontinuities: a curve is one segment. -/
instance : PointSource (Curve α) α where
  rewind := Curve.rewind
  next? := Curve.next?
  startsSegment _ := false

/-- A curve that is broken at given points, counted from zero since it was last rewound. -/
structure BrokenCurve (α : Type) where
  curve : Curve α
  breaks : List Int
  drawn : Nat

instance : PointSource (BrokenCurve α) α where
  rewind b := { b with curve := b.curve.rewind, drawn := 0 }
  next? b := b.curve.next?.map fun drawn? => drawn?.map fun (p, c) =>
    (p, { b with curve := c, drawn := b.drawn + 1 })
  startsSegment b := b.breaks.contains ((b.drawn : Int) - 1)

end

end GraphCalc
