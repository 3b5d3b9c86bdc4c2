import GraphCalc.Figure

/-!
# GraphCalc.Session

A session: an engine, curves kept under names, and what can be done with them one action at a time.

A curve that is kept is a value of its own.  What happens to the engine or to another curve later does
not reach it.
-/

namespace GraphCalc

/-- The curves of a session, each name at most once. -/
abbrev Shelf : Type := List (String × Curve Float)

namespace Shelf

/-- The curve kept under a name. -/
def get? (shelf : Shelf) (name : String) : Option (Curve Float) := shelf.lookup name

/-- Keeps a curve under a name, in place of what was there. -/
def put (shelf : Shelf) (name : String) (c : Curve Float) : Shelf :=
  (name, c) :: shelf.filter fun kept => kept.1 != name

end Shelf

/-- An engine and the curves that are kept. -/
structure Session where
  engine : Engine
  curves : Shelf

/-- What can be done in a session. -/
inductive Action where
  | define (format : Notation) (text : List Char)
  | reset
  | has
  | lines (format : Notation)
  | change (setting : Setting)
  | area (request : Engine.AreaRequest)
  | make (name : String) (projection : Projection) (derivative : Bool)
      (request : Engine.RangeRequest)
  | hasNext (name : String)
  | startsSegment (name : String)
  | draw (name : String)
  | rewind (name : String)
  | drain (name : String)
  | figure (projection : Projection)

/-- What comes of an action. -/
inductive Result where
  | done
  | flag (b : Bool)
  | flags (function derivative : Bool)
  | texts (lines : List (List Char))
  | number (v : Float)
  | curve (c : Curve Float)
  | point (p : Point Float)
  | points (ps : List (Point Float))
  | figure (f : Figure)
  | noCurve
  | failed (e : NumericError Float)

namespace Session

/-- A session with a new engine and no curves. -/
def new (settings : Settings) : Session := ⟨Engine.new settings, []⟩

/-- Acts on the curve kept under a name, if there is one. -/
def withCurve (session : Session) (name : String) (act : Curve Float → Result × Curve Float) :
    Result × Session :=
  match session.curves.get? name with
  | none => (.noCurve, session)
  | some c =>
    let (result, c) := act c
    (result, { session with curves := session.curves.put name c })

/-- Draws a point of a curve. -/
def drawPoint (c : Curve Float) : Result × Curve Float :=
  match c.draw with
  | .ok (p, c) => (.point p, c)
  | .error e => (.failed e, c)

/-- Draws a curve to its end. -/
def drainCurve (c : Curve Float) : Result × Curve Float :=
  let drained := c.drain stepBudget
  match drained.failure with
  | none => (.points drained.points, drained.curve)
  | some e => (.failed e, drained.curve)

/-- One action: what comes of it, and the session after it. -/
def step (session : Session) : Action → Result × Session
  | .define format text =>
    let engine := session.engine.define format text
    (.flag engine.hasFunction, { session with engine := engine })
  | .reset => (.done, { session with engine := session.engine.reset })
  | .has => (.flags session.engine.hasFunction session.engine.hasDerivative, session)
  | .lines format => (.texts (session.engine.lines format), session)
  | .change setting =>
    let settings := session.engine.settings.set setting
    (.done, { session with engine := { session.engine with settings := settings } })
  | .area request =>
    match session.engine.area request with
    | .ok v => (.number v, session)
    | .error e => (.failed e, session)
  | .make name projection derivative request =>
    match session.engine.curve projection derivative request with
    | .ok c => (.curve c, { session with curves := session.curves.put name c })
    | .error e => (.failed e, session)
  | .hasNext name => session.withCurve name fun c => (.flag c.hasNext, c)
  | .startsSegment name =>
    session.withCurve name fun c => (.flag (PointSource.startsSegment c), c)
  | .draw name => session.withCurve name drawPoint
  | .rewind name => session.withCurve name fun c => (.done, c.rewind)
  | .drain name => session.withCurve name drainCurve
  | .figure projection => (.figure (Figure.draw session.engine projection), session)

end Session

end GraphCalc
