import GraphCalc.Engine
import GraphCalc.Segments

/-!
# GraphCalc.Figure

What a figure of the engine's function consists of, in the order in which it is drawn: the two axes,
the function in blue, its derivative in red, the limits of both axes, a title and a grid.

All segments of a curve are known before the first of them is drawn, so a curve is drawn whole or not
at all.
-/

namespace GraphCalc

/-- The colours of a figure. -/
inductive Colour where
  | lightGray
  | blue
  | red
deriving DecidableEq

/-- The name of a colour. -/
def Colour.name : Colour → String
  | lightGray => "lightgray"
  | blue => "blue"
  | red => "red"

/-- A step of drawing a figure. -/
inductive Mark where
  | line (colour : Colour) (width : Float) (points : List (Point Float))
  | xLimits (low high : Float)
  | yLimits (low high : Float)
  | title (text : String)
  | grid (visible : Bool)

/-- The title of a figure. -/
def Projection.title : Projection → String
  | .cartesian => "Cartesian plot"
  | .polar => "Polar plot"

/-- A figure, and the failure that cut it short, if one did. -/
structure Figure where
  marks : List Mark
  failure : Option (NumericError Float)

namespace Figure

/-- The axes through the origin, as long as the plotted range. -/
def axes (s : Settings) : List Mark :=
  [.line .lightGray 0.5 [⟨s.plotLow, 0⟩, ⟨s.plotHigh, 0⟩],
    .line .lightGray 0.5 [⟨0, s.plotLow⟩, ⟨0, s.plotHigh⟩]]

/-- What frames the curves. -/
def frame (s : Settings) (projection : Projection) : List Mark :=
  [.xLimits s.plotLow s.plotHigh, .yLimits s.plotLow s.plotHigh, .title projection.title,
    .grid true]

/-- The segments of the curve of the function or its derivative. -/
def curve (engine : Engine) (projection : Projection) (derivative : Bool) :
    Except (NumericError Float) (List Mark) := do
  let c ← engine.curve projection derivative {}
  let segments ← Segments.collect stepBudget c
  return segments.map fun points => .line (if derivative then .red else .blue) 1.5 points

/-- The figure of the engine's function. -/
def draw (engine : Engine) (projection : Projection) : Figure :=
  let s := engine.settings
  if engine.hasFunction then
    match curve engine projection false with
    | .error e => ⟨axes s, some e⟩
    | .ok function =>
      match curve engine projection true with
      | .error e => ⟨axes s ++ function, some e⟩
      | .ok derivative => ⟨axes s ++ function ++ derivative ++ frame s projection, none⟩
  else ⟨axes s ++ frame s projection, none⟩

end Figure

end GraphCalc
