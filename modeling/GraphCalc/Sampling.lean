import GraphCalc.Number.Written

/-!
# GraphCalc.Sampling

Walking through a range of numbers step by step.

The numbers are a parameter: the program walks through doubles, and the same walk over rational
numbers says what it computes when nothing is rounded.  A `Sweep` is a range with a current position,
which moves by repeated addition of the step.  Among doubles a position may stop moving short of the
end (adding a small step to a large number changes nothing), so whatever walks to the end is given a
budget of steps and says so when it runs out.
-/

namespace GraphCalc

/-! ## failures -/

/-- Why a sum or a curve fails, over numbers from `α`. -/
inductive NumericError (α : Type) where
  /-- The step of an integral is not positive. -/
  | integrationStep (step : α)
  /-- The step of a curve is not positive. -/
  | samplingStep (step : α)
  /-- The whole part of something that is no number was asked for. -/
  | wholeOfNaN
  /-- The whole part of an infinity was asked for. -/
  | wholeOfInfinity
  /-- The direction of an infinite angle was asked for. -/
  | infiniteAngle
  /-- A point was asked for after the last one. -/
  | exhausted
  /-- The budget of steps ran out before the end.  This stands for a loop that is never left and has
  no outcome at all. -/
  | endless
deriving DecidableEq

/-- How a failure among doubles is put. -/
def NumericError.message : NumericError Float → List Char
  | integrationStep h => "Integration step must be positive, got ".toList ++ Number.written h
  | samplingStep h => "Sampling step must be positive, got ".toList ++ Number.written h
  | wholeOfNaN => "cannot convert float NaN to integer".toList
  | wholeOfInfinity => "cannot convert float infinity to integer".toList
  | infiniteAngle => "math domain error".toList
  | exhausted => "Curve sequence is exhausted".toList
  | endless => "The range has no end".toList

/-- The number of steps after which a walk among doubles is given up.  There are fewer doubles than
this, so a walk that is still moving has arrived before. -/
def stepBudget : Nat := 1 <<< 64

/-! ## whole numbers -/

/-- Numbers that integers can be turned into, and that can be cut down to integers. -/
class Whole (α : Type) where
  ofNat : Nat → α
  /-- The greatest integer not above the number. -/
  floor : α → Except (NumericError α) Int

/-- A finite double has a whole part; an infinity or a NaN has none. -/
instance : Whole Float where
  ofNat := Float.ofNat
  floor v :=
    match Number.Binary.ofFloat? v with
    | some b => .ok b.floor
    | none => .error (if v.isNaN then .wholeOfNaN else .wholeOfInfinity)

/-! ## sweeps -/

/-- A range with a current position. -/
structure Sweep (α : Type) where
  start : α
  stop : α
  step : α
  position : α

namespace Sweep

variable {α : Type}

/-- A sweep that stands at its start.  The step must not be zero or negative. -/
def make? [LE α] [DecidableLE α] [OfNat α 0] (start stop step : α) :
    Except (NumericError α) (Sweep α) :=
  if step ≤ 0 then .error (.samplingStep step) else .ok ⟨start, stop, step, start⟩

/-- The position is inside the range.  A small tolerance at the end absorbs the drift of repeated
addition, so that the end itself is reached. -/
def isInside [Add α] [LE α] [DecidableLE α] [OfScientific α] (s : Sweep α) : Bool :=
  s.position ≤ s.stop + 1e-9

/-- The sweep one step further on. -/
def advance [Add α] (s : Sweep α) : Sweep α := { s with position := s.position + s.step }

/-- The sweep back at its start. -/
def rewind (s : Sweep α) : Sweep α := { s with position := s.start }

end Sweep

end GraphCalc
