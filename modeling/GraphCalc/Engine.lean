import GraphCalc.Curve
import GraphCalc.Expr.Algebraic
import GraphCalc.Expr.Derivative
import GraphCalc.Expr.Render
import GraphCalc.Expr.ReversePolish
import GraphCalc.Expr.Simplify
import GraphCalc.Quadrature
import GraphCalc.Text.Quoted

/-!
# GraphCalc.Engine

The engine holds the current function with its derivative, the reason why the last text was refused,
and the settings.

* Reading a text replaces function and derivative together, or clears both and keeps the reason.
* Everything else only looks: at the two expressions, the integral of the function, or a curve of
  either.  An argument that is left out is taken from the settings.
-/

namespace GraphCalc

/-! ## settings -/

/-- The ranges and steps that are used where none are given. -/
structure Settings where
  integralStart : Float := -5
  integralStop : Float := 5
  integralStep : Float := 0.01
  rule : Quadrature.Rule := .rectangles
  plotLow : Float := -10
  plotHigh : Float := 10
  angleStart : Float := 0
  /-- The double nearest to a full turn. -/
  angleStop : Float := 6.283185307179586
  sampleStep : Float := 0.05

/-- A new value for one of the settings. -/
inductive Setting where
  | integralStart (v : Float)
  | integralStop (v : Float)
  | integralStep (v : Float)
  | rule (r : Quadrature.Rule)
  | plotLow (v : Float)
  | plotHigh (v : Float)
  | angleStart (v : Float)
  | angleStop (v : Float)
  | sampleStep (v : Float)

/-- The settings with one of them changed. -/
def Settings.set (s : Settings) : Setting → Settings
  | .integralStart v => { s with integralStart := v }
  | .integralStop v => { s with integralStop := v }
  | .integralStep v => { s with integralStep := v }
  | .rule r => { s with rule := r }
  | .plotLow v => { s with plotLow := v }
  | .plotHigh v => { s with plotHigh := v }
  | .angleStart v => { s with angleStart := v }
  | .angleStop v => { s with angleStop := v }
  | .sampleStep v => { s with sampleStep := v }

/-! ## definitions -/

/-- The expression a text in the given notation stands for. -/
def Expr.read (format : Notation) (text : List Char) (limit : Nat := nestingLimit) :
    Except Refusal (Expr Float) :=
  match format with
  | .algebraic => Expr.ofAlgebraic limit text
  | .reversePolish => Expr.ofReversePolish text

/-- An expression that is not nested beyond the limit. -/
def Expr.checkDepth (e : Expr Float) (limit : Nat := nestingLimit) : Except Refusal (Expr Float) :=
  if limit < e.depth then .error .tooDeep else .ok e

/-- A function and its derivative. -/
structure Definition where
  function : Expr Float
  derivative : Expr Float
deriving DecidableEq

/-- The definition that an expression makes: the expression simplified, and the derivative of that
simplified. -/
def Definition.ofExpr (e : Expr Float) (limit : Nat := nestingLimit) :
    Except Refusal Definition := do
  let function := (← e.checkDepth limit).simplify
  let derivative ← function.differentiate.checkDepth limit
  return ⟨function, derivative.simplify⟩

/-- The definition that a text makes. -/
def Definition.read (format : Notation) (text : List Char) (limit : Nat := nestingLimit) :
    Except Refusal Definition := do
  Definition.ofExpr (← Expr.read format text limit) limit

/-- What the log says of a text: why it was refused, or what it defined. -/
def Definition.logEntry (format : Notation) (text : List Char) :
    Except Refusal Definition → List Char
  | .error reason =>
    "Rejected ".toList ++ format.name.toList ++ " expression ".toList ++ Text.quoted text
      ++ ": ".toList ++ reason.message
  | .ok d =>
    "f(x) = ".toList ++ d.function.toAlgebraic ++ ", f'(x) = ".toList ++ d.derivative.toAlgebraic

/-! ## the engine -/

/-- The current definition, why the last text was refused, and the settings. -/
structure Engine where
  settings : Settings
  definition : Option Definition
  lastError : Option Refusal

namespace Engine

/-- An engine without a function. -/
def new (settings : Settings) : Engine := ⟨settings, none, none⟩

/-- Takes over a definition, or a refusal. -/
def adopt (engine : Engine) : Except Refusal Definition → Engine
  | .ok d => { engine with definition := some d, lastError := none }
  | .error reason => { engine with definition := none, lastError := some reason }

/-- Reads a text as the new function. -/
def define (engine : Engine) (format : Notation) (text : List Char)
    (limit : Nat := nestingLimit) : Engine :=
  engine.adopt (Definition.read format text limit)

/-- Forgets the function and the last refusal. -/
def reset (engine : Engine) : Engine := { engine with definition := none, lastError := none }

/-- There is a function. -/
def hasFunction (engine : Engine) : Bool := engine.definition.isSome

/-- There is a derivative. -/
def hasDerivative (engine : Engine) : Bool := engine.definition.isSome

/-- The function and its derivative in the given notation, if there are any. -/
def lines (engine : Engine) (format : Notation) : List (List Char) :=
  match engine.definition with
  | none => []
  | some d => [d.function.render format, d.derivative.render format]

/-! ## integrals -/

/-- What is asked of an integral in place of the settings. -/
structure AreaRequest where
  rule : Option Quadrature.Rule := none
  start : Option Float := none
  stop : Option Float := none
  step : Option Float := none

/-- The integral of the function, which is no number if there is none. -/
def area (engine : Engine) (request : AreaRequest) : Except (NumericError Float) Float :=
  match engine.definition with
  | none => .ok (0 / 0)
  | some d =>
    let s := engine.settings
    Quadrature.integrate (request.rule.getD s.rule) (fun x => d.function.eval x)
      (request.start.getD s.integralStart) (request.stop.getD s.integralStop)
      (request.step.getD s.integralStep)

/-! ## curves -/

/-- What is asked of a curve in place of the settings. -/
structure RangeRequest where
  start : Option Float := none
  stop : Option Float := none
  step : Option Float := none

/-- The function or its derivative. -/
def pick (engine : Engine) (derivative : Bool) : Option (Expr Float) :=
  engine.definition.map fun d => if derivative then d.derivative else d.function

/-- A curve of the function or its derivative, which is empty if there is none. -/
def curve (engine : Engine) (projection : Projection) (derivative : Bool)
    (request : RangeRequest) : Except (NumericError Float) (Curve Float) :=
  match engine.pick derivative with
  | none => .ok .empty
  | some e =>
    let s := engine.settings
    let (start, stop) := match projection with
      | .cartesian => (s.plotLow, s.plotHigh)
      | .polar => (s.angleStart, s.angleStop)
    Curve.make? projection e (request.start.getD start) (request.stop.getD stop)
      (request.step.getD s.sampleStep)

end Engine

end GraphCalc
