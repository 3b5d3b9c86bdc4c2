import GraphCalc.Proofs.Curve.Replay
import GraphCalc.Proofs.Figure
import GraphCalc.Proofs.Session.Runs

/-!
# GraphCalc.Proofs.Session.Curves

What becomes of a curve that is kept in a session.

`Session.Keeps name c drawn session` says that the curve `c` is kept under a name, with its cursor
behind the points `drawn`, and that these are its first ones.  Only drawing from the curve and
rewinding it move the cursor:

* `takes_eq_returned` — the points that are drawn are those that come back;
* `get?_step` — what one action does to the curve kept under a name;
* `keeps_step`, `keeps_after` — one action keeps the relation, and so does a whole run;
* `Session.curve_replays` — what this says of a curve from the time it is made.
-/

namespace GraphCalc

/-! ## shelves -/

namespace Shelf

theorem lookup_filter (shelf : Shelf) {name other : String} (h : other ≠ name) :
    (shelf.filter fun kept => kept.1 != name).lookup other = shelf.lookup other := by
  induction shelf with
  | nil => rfl
  | cons kept shelf ih =>
      obtain ⟨key, c⟩ := kept
      by_cases hkey : key = name
      · have hother : (other == key) = false := by simpa [hkey] using h
        rw [List.filter_cons_of_neg (by simp [hkey]), ih, List.lookup_cons, hother]
      · rw [List.filter_cons_of_pos (by simp [hkey]), List.lookup_cons, List.lookup_cons, ih]

/-- Keeping a curve changes what is kept under its name, and nothing else. -/
theorem get?_put (shelf : Shelf) (name other : String) (c : Curve Float) :
    (shelf.put name c).get? other = if other = name then some c else shelf.get? other := by
  rw [get?, put, List.lookup_cons]
  by_cases h : other = name
  · simp [h]
  · rw [if_neg h, beq_false_of_ne h]
    exact lookup_filter shelf h

end Shelf

/-! ## curves that are made -/

namespace Engine

/-- The sweep that is asked for, at its start.  What is not asked for is taken from the settings. -/
def RangeRequest.sweep (request : RangeRequest) (s : Settings) (projection : Projection) :
    Sweep Float :=
  let start := request.start.getD (s.sweep projection).start
  ⟨start, request.stop.getD (s.sweep projection).stop,
    request.step.getD (s.sweep projection).step, start⟩

/-- A curve that is made is empty, or drawn over the range that was asked for. -/
theorem curve_eq_of_ok {engine : Engine} {projection : Projection} {derivative : Bool}
    {request : RangeRequest} {c : Curve Float}
    (h : engine.curve projection derivative request = .ok c) :
    c = match engine.pick derivative with
      | none => .empty
      | some e => .traced projection e (request.sweep engine.settings projection) := by
  cases hpick : engine.pick derivative with
  | none =>
      rw [curve, hpick] at h
      cases h
      rfl
  | some e =>
      rw [curve, hpick] at h
      dsimp only at h
      rw [Curve.make?, Sweep.make?] at h
      split at h
      · contradiction
      · cases h
        cases projection <;> rfl

/-- A curve that is made has its cursor in front of the first point. -/
theorem past_zero_of_curve {engine : Engine} {projection : Projection} {derivative : Bool}
    {request : RangeRequest} {c : Curve Float}
    (h : engine.curve projection derivative request = .ok c) : c.past 0 = c := by
  rw [curve_eq_of_ok h]
  cases engine.pick derivative <;> rfl

end Engine

/-! ## actions -/

namespace Session

/-- Drawing from a kept curve has the outcome of the next point. -/
theorem drawPoint_past (c : Curve Float) (k : Nat) : drawPoint (c.past k) =
    match c.nth k with
    | .ok p => (.point p, c.past (k + 1))
    | .error e => (.failed e, c.past k) := by
  rw [drawPoint, Curve.draw_past]
  cases c.nth k <;> rfl

theorem drainCurve_curve (c : Curve Float) : (drainCurve c).2 = (c.drain stepBudget).curve := by
  unfold drainCurve
  dsimp only
  split <;> rfl

/-- The points come back if nothing has cut the drawing short. -/
theorem drainCurve_eq_points_iff {c : Curve Float} {points : List (Point Float)} :
    (drainCurve c).1 = .points points ↔
      (c.drain stepBudget).failure = none ∧ (c.drain stepBudget).points = points := by
  unfold drainCurve
  dsimp only
  cases (c.drain stepBudget).failure <;> simp

end Session

/-- The points that come back from an action. -/
def Result.returned : Result → List (Point Float)
  | point p => [p]
  | points ps => ps
  | _ => []

namespace Action

/-- What an action makes of the curve kept under a name. -/
def moves (name : String) : Action → Curve Float → Curve Float
  | draw other, c => if other = name then (Session.drawPoint c).2 else c
  | rewind other, c => if other = name then c.rewind else c
  | drain other, c => if other = name then (Session.drainCurve c).2 else c
  | _, c => c

/-- The points that an action draws from the curve kept under a name. -/
def takes (name : String) : Action → Curve Float → List (Point Float)
  | draw other, c =>
    if other = name then
      match c.draw with
      | .ok (p, _) => [p]
      | .error _ => []
    else []
  | drain other, c => if other = name then (c.drain stepBudget).points else []
  | _, _ => []

/-- The action rewinds the curve kept under a name. -/
def rewinds (name : String) : Action → Bool
  | rewind other => other == name
  | _ => false

/-- The action draws from the curve kept under a name, or rewinds it. -/
def uses (name : String) : Action → Bool
  | draw other | rewind other | drain other => other == name
  | _ => false

variable (name : String) (c : Curve Float) (k : Nat)

/-- An action that does not rewind a curve moves its cursor past the points that it draws. -/
theorem moves_past {action : Action} (h : action.rewinds name = false) :
    c.PointsFrom k (action.takes name (c.past k)) ∧
      action.moves name (c.past k) = c.past (k + (action.takes name (c.past k)).length) := by
  cases action with
  | draw other =>
      by_cases hname : other = name
      · simp only [moves, takes, hname, if_true, Session.drawPoint_past, Curve.draw_past]
        cases hp : c.nth k with
        | error e => exact ⟨rfl, rfl⟩
        | ok p => exact ⟨Curve.pointsFrom_cons c k hp rfl, rfl⟩
      · simp only [moves, takes, hname, if_false]
        exact ⟨rfl, rfl⟩
  | drain other =>
      by_cases hname : other = name
      · simp only [moves, takes, hname, if_true, Session.drainCurve_curve]
        obtain ⟨hpoints, hcurve, -⟩ := Curve.drain_past c k stepBudget
        exact ⟨hpoints, hcurve⟩
      · simp only [moves, takes, hname, if_false]
        exact ⟨rfl, rfl⟩
  | rewind other =>
      have hname : other ≠ name := by simpa [rewinds] using h
      simp only [moves, takes, hname, if_false]
      exact ⟨rfl, rfl⟩
  | _ => exact ⟨rfl, rfl⟩

/-- An action that rewinds a curve leads back in front of its first point. -/
theorem moves_past_of_rewinds {action : Action} (h : action.rewinds name = true) :
    action.moves name (c.past k) = c.past 0 := by
  cases action with
  | rewind other =>
      have hname : other = name := by simpa [rewinds] using h
      simp only [moves, hname, if_true, Curve.rewind_past]
  | _ => contradiction

/-- Every other action leaves the curve as it is. -/
theorem moves_of_not_uses {action : Action} (h : action.uses name = false) :
    action.moves name c = c := by
  cases action with
  | draw other | rewind other | drain other => simp_all [uses, moves]
  | _ => rfl

end Action

namespace Session

/-- The action has put another curve in the place of the one kept under a name. -/
def Replaces (name : String) (entry : Action × Result) : Prop :=
  ∃ projection derivative request c,
    entry = (.make name projection derivative request, .curve c)

theorem get?_withCurve (session : Session) (name other : String)
    (act : Curve Float → Result × Curve Float) :
    (session.withCurve other act).2.curves.get? name =
      (session.curves.get? name).map fun c => if other = name then (act c).2 else c := by
  unfold withCurve
  cases hother : session.curves.get? other with
  | none =>
      by_cases h : other = name
      · subst h
        simp [hother]
      · simp [h]
  | some c =>
      dsimp only
      rw [Shelf.get?_put]
      by_cases h : other = name
      · subst h
        simp [hother]
      · simp [h, Ne.symm h]

/-- What comes of acting on a curve that is kept. -/
theorem withCurve_of_get? {session : Session} {name : String} {c : Curve Float}
    (h : session.curves.get? name = some c) (act : Curve Float → Result × Curve Float) :
    (session.withCurve name act).1 = (act c).1 := by
  simp only [withCurve, h]

/-- The points that an action takes from a kept curve are those that come back, unless it draws the
curve to its end and is cut short. -/
theorem takes_eq_returned {session : Session} {name : String} {c : Curve Float} {action : Action}
    (h : session.curves.get? name = some c)
    (hwhole : action = .drain name → ∀ e, (session.step action).1 ≠ .failed e) :
    action.takes name c =
      if action.uses name then (session.step action).1.returned else [] := by
  cases action with
  | draw other =>
      by_cases hname : other = name
      · subst hname
        have hdraw : (session.step (.draw other)).1 = (drawPoint c).1 :=
          withCurve_of_get? h drawPoint
        rw [hdraw, drawPoint]
        cases hc : c.draw <;> simp [Action.takes, Action.uses, Result.returned, hc]
      · simp [Action.takes, Action.uses, hname]
  | drain other =>
      by_cases hname : other = name
      · subst hname
        have hdrain : (session.step (.drain other)).1 = (drainCurve c).1 :=
          withCurve_of_get? h drainCurve
        have hpoints : (drainCurve c).1 = .points (c.drain stepBudget).points := by
          refine drainCurve_eq_points_iff.mpr ⟨?_, rfl⟩
          by_contra hcut
          obtain ⟨e, he⟩ := Option.ne_none_iff_exists'.mp hcut
          exact hwhole rfl e (by rw [hdrain, drainCurve, he])
        simp [Action.takes, Action.uses, Result.returned, hdrain, hpoints]
      · simp [Action.takes, Action.uses, hname]
  | rewind other =>
      by_cases hname : other = name
      · subst hname
        have hrewind : (session.step (.rewind other)).1 = .done := withCurve_of_get? h _
        simp [Action.takes, hrewind, Result.returned]
      · simp [Action.takes, Action.uses, hname]
  | _ => rfl

/-- What one action does to the curve kept under a name. -/
theorem get?_step {session : Session} {action : Action} {name : String}
    (h : ¬Replaces name (action, (session.step action).1)) :
    (session.step action).2.curves.get? name =
      (session.curves.get? name).map (action.moves name) := by
  have hsame : (session.curves.get? name).map (fun c => c) = session.curves.get? name :=
    Option.map_id'
  cases action with
  | define | reset | has | lines | change | figure => exact hsame.symm
  | area request =>
      simp only [step]
      split <;> exact hsame.symm
  | make other projection derivative request =>
      revert h
      simp only [step]
      split
      · next c hc =>
        intro h
        have hother : name ≠ other := by
          rintro rfl
          exact h ⟨_, _, _, c, rfl⟩
        dsimp only
        rw [Shelf.get?_put, if_neg hother]
        exact hsame.symm
      · exact fun _ => hsame.symm
  | hasNext other | startsSegment other =>
      refine (get?_withCurve session name other _).trans ?_
      simp only [ite_self]
      rfl
  | draw other | rewind other | drain other => exact get?_withCurve session name other _

/-! ## what is kept -/

/-- The points drawn from the curve kept under a name since it was last rewound.  Those in `drawn`
were drawn before the given actions. -/
def drawnSince (session : Session) (name : String) (drawn : List (Point Float)) :
    List Action → List (Point Float)
  | [] => drawn
  | action :: actions =>
    let taken := ((session.curves.get? name).map (action.takes name)).getD []
    (session.step action).2.drawnSince name
      (if action.rewinds name then [] else drawn ++ taken) actions

theorem drawnSince_append (session : Session) (name : String) (drawn : List (Point Float))
    (actions more : List Action) : session.drawnSince name drawn (actions ++ more) =
      (session.after actions).drawnSince name (session.drawnSince name drawn actions) more := by
  induction actions generalizing session drawn with
  | nil => rfl
  | cons action actions ih => exact ih ..

/-- The curve `c` is kept under a name, with its cursor behind the first points, which have been
drawn. -/
structure Keeps (name : String) (c : Curve Float) (drawn : List (Point Float))
    (session : Session) : Prop where
  kept : session.curves.get? name = some (c.past drawn.length)
  points : c.PointsFrom 0 drawn

variable {name : String} {c : Curve Float} {drawn : List (Point Float)} {session : Session}

/-- One action keeps the relation. -/
theorem keeps_step (h : Keeps name c drawn session) {action : Action}
    (hkept : ¬Replaces name (action, (session.step action).1)) :
    Keeps name c (if action.rewinds name then []
      else drawn ++ ((session.curves.get? name).map (action.takes name)).getD [])
      (session.step action).2 := by
  have hget := get?_step hkept
  rw [h.kept, Option.map_some] at hget
  rw [h.kept, Option.map_some, Option.getD_some]
  cases hrewinds : action.rewinds name with
  | true =>
      rw [Action.moves_past_of_rewinds name c _ hrewinds] at hget
      exact ⟨hget, rfl⟩
  | false =>
      obtain ⟨hpoints, hmoves⟩ := Action.moves_past name c drawn.length hrewinds
      rw [hmoves] at hget
      refine ⟨?_, Curve.pointsFrom_append c h.points hpoints⟩
      simpa using hget

/-- A whole run keeps the relation. -/
theorem keeps_after (h : Keeps name c drawn session) {actions : List Action}
    (hkept : ∀ entry ∈ session.log actions, ¬Replaces name entry) :
    Keeps name c (session.drawnSince name drawn actions) (session.after actions) := by
  induction actions generalizing session drawn with
  | nil => exact h
  | cons action actions ih =>
      obtain ⟨hfirst, hrest⟩ := List.forall_mem_cons.mp hkept
      exact ih (keeps_step h hfirst) hrest

/-- A curve that is made is kept as it is, with nothing drawn yet. -/
theorem keeps_made {projection : Projection} {derivative : Bool} {request : Engine.RangeRequest}
    (hmade : session.engine.curve projection derivative request = .ok c) :
    Keeps name c [] (session.step (.make name projection derivative request)).2 := by
  refine ⟨?_, rfl⟩
  simp only [step, hmade]
  rw [Shelf.get?_put, if_pos rfl, List.length_nil, Engine.past_zero_of_curve hmade]

/-! ## what is seen of it -/

/-- The points that are counted as drawn are those that came back, from the last rewind on. -/
theorem Keeps.drawnSince_eq (h : Keeps name c drawn session) {action : Action}
    (hwhole : action = .drain name → ∀ e, (session.step action).1 ≠ .failed e) :
    session.drawnSince name drawn [action] =
      if action.rewinds name then []
      else if action.uses name then drawn ++ (session.step action).1.returned
      else drawn := by
  rw [drawnSince, drawnSince, h.kept, Option.map_some, Option.getD_some,
    takes_eq_returned h.kept hwhole]
  cases action.uses name <;> simp

theorem Keeps.hasNext (h : Keeps name c drawn session) :
    (session.step (.hasNext name)).1 = .flag (c.has drawn.length) := by
  rw [← Curve.hasNext_past]
  exact withCurve_of_get? h.kept _

theorem Keeps.draw (h : Keeps name c drawn session) :
    (session.step (.draw name)).1 =
      match c.nth drawn.length with
      | .ok p => .point p
      | .error e => .failed e := by
  refine (withCurve_of_get? h.kept drawPoint).trans ?_
  rw [drawPoint_past]
  cases c.nth drawn.length <;> rfl

/-- A draw is refused for want of points exactly where there is no next one. -/
theorem Keeps.exhausted_iff (h : Keeps name c drawn session) :
    (session.step (.draw name)).1 = .failed .exhausted ↔
      (session.step (.hasNext name)).1 = .flag false := by
  rw [h.draw, h.hasNext, Result.flag.injEq, ← Curve.nth_eq_exhausted_iff]
  cases c.nth drawn.length <;> simp

/-- A draw that fails leaves every curve as it is. -/
theorem Keeps.draw_failed (h : Keeps name c drawn session) {e : NumericError Float}
    (he : c.nth drawn.length = .error e) (other : String) :
    (session.step (.draw name)).2.curves.get? other = session.curves.get? other := by
  refine (get?_withCurve session other name drawPoint).trans ?_
  by_cases hname : name = other
  · subst hname
    rw [h.kept, Option.map_some, if_pos rfl, drawPoint_past, he]
  · simp [hname]

/-- Drawn to the end, a curve gives the points that have not been drawn yet. -/
theorem Keeps.drain (h : Keeps name c drawn session) {points : List (Point Float)}
    (hpoints : (session.step (.drain name)).1 = .points points) :
    c.PointsFrom drawn.length points ∧ c.has (drawn.length + points.length) = false := by
  have hdrain := (withCurve_of_get? h.kept drainCurve).symm.trans hpoints
  obtain ⟨hwhole, rfl⟩ := drainCurve_eq_points_iff.mp hdrain
  obtain ⟨hfrom, -, hend⟩ := Curve.drain_past c drawn.length stepBudget
  exact ⟨hfrom, hend hwhole⟩

/-- A curve that is made in a session, and the session after any actions that put no other curve in
its place.  Let `k` be the number of points that have been drawn from it since it was last rewound.

* The curve is drawn over the function or derivative of the engine it was made from, in the range
  that was asked for; what was not asked for is as it stood in the settings.
* The points that have been drawn are its first `k`, and the cursor stands behind them.
* They are the points that came back: one more action adds those that come back from it, unless it
  draws the curve to its end and is cut short on the way, and a rewind leaves none.
* There is a next point as long as the `k`-th position is not beyond the end, and drawing gives that
  point.  It is refused for want of points exactly if there is no next one.
* It fails then, or at an infinite angle, and leaves the engine and every curve as they are.
* Drawing the curve to its end gives the points from the `k`-th on, up to the end.
* Nothing but drawing from the curve and rewinding it changes it.
* Rewound, it is drawn to its end as it was to begin with. -/
theorem curve_replays {projection : Projection} {derivative : Bool}
    {request : Engine.RangeRequest} {actions : List Action}
    (hmade : session.engine.curve projection derivative request = .ok c)
    (hkept : ∀ entry ∈ (session.step (.make name projection derivative request)).2.log actions,
      ¬Replaces name entry) :
    let made := (session.step (.make name projection derivative request)).2
    let later := made.after actions
    let drawn := made.drawnSince name [] actions
    let k := drawn.length
    (c = match session.engine.pick derivative with
      | none => .empty
      | some e => .traced projection e (request.sweep session.engine.settings projection)) ∧
    (drawn.map .ok = (List.range k).map c.nth ∧ later.curves.get? name = some (c.past k)) ∧
    (∀ action, (action = .drain name → ∀ e, (later.step action).1 ≠ .failed e) →
      made.drawnSince name [] (actions ++ [action]) =
        if action.rewinds name then []
        else if action.uses name then drawn ++ (later.step action).1.returned
        else drawn) ∧
    ((later.step (.hasNext name)).1 = .flag (c.has k) ∧
      (later.step (.draw name)).1 =
        (match c.nth k with
        | .ok p => .point p
        | .error e => .failed e) ∧
      ((later.step (.draw name)).1 = .failed .exhausted ↔
        (later.step (.hasNext name)).1 = .flag false)) ∧
    (∀ e, (later.step (.draw name)).1 = .failed e →
      (e = .exhausted ∨ e = .infiniteAngle) ∧
      (later.step (.draw name)).2.engine = later.engine ∧
      ∀ other, (later.step (.draw name)).2.curves.get? other = later.curves.get? other) ∧
    (∀ points, (later.step (.drain name)).1 = .points points →
      points.map .ok = (List.range' k points.length).map c.nth ∧
        c.has (k + points.length) = false) ∧
    (∀ action, action.uses name = false → ¬Replaces name (action, (later.step action).1) →
      (later.step action).2.curves.get? name = later.curves.get? name) ∧
    ((later.step (.rewind name)).2.step (.drain name)).1 = (made.step (.drain name)).1 := by
  intro made later drawn k
  have hfirst : Keeps name c [] made := keeps_made hmade
  have hlater : Keeps name c drawn later := keeps_after hfirst hkept
  refine ⟨Engine.curve_eq_of_ok hmade, ⟨?_, hlater.kept⟩, fun action hwhole => ?_,
    ⟨hlater.hasNext, hlater.draw, hlater.exhausted_iff⟩, fun e he => ?_,
    fun points hpoints => hlater.drain hpoints, fun action huses hreplaces => ?_, ?_⟩
  · rw [List.range_eq_range']
    exact hlater.points
  · rw [drawnSince_append]
    exact hlater.drawnSince_eq hwhole
  · have hnth : c.nth k = .error e := by
      rw [hlater.draw] at he
      split at he
      · contradiction
      · next hnth =>
        cases he
        exact hnth
    refine ⟨?_, withCurve_engine later name drawPoint, hlater.draw_failed hnth⟩
    exact (Curve.nth_eq_error hnth).imp And.left And.left
  · have hsame := get?_step hreplaces
    rwa [hlater.kept, Option.map_some, Action.moves_of_not_uses name _ huses,
      ← hlater.kept] at hsame
  · have hrewound : (later.step (.rewind name)).2.curves.get? name = some (c.past 0) := by
      refine (get?_withCurve later name name _).trans ?_
      rw [hlater.kept, Option.map_some, if_pos rfl, Curve.rewind_past]
    exact (withCurve_of_get? hrewound drainCurve).trans
      (withCurve_of_get? hfirst.kept drainCurve).symm

/-- A curve through two points outlives the function that it was made from. -/
theorem curve_replays_after_reset :
    let session : Session := ⟨⟨{}, some ⟨.var, .const 1⟩, none⟩, []⟩
    let request : Engine.RangeRequest := { start := some 0, stop := some 1, step := some 1 }
    let c : Curve Float := .traced .cartesian .var ⟨0, 1, 1, 0⟩
    let made := (session.step (.make "a" .cartesian false request)).2
    let actions : List Action := [.draw "a", .reset, .draw "a"]
    let later := made.after actions
    session.engine.curve .cartesian false request = .ok c ∧
      (∀ entry ∈ made.log actions, ¬Replaces "a" entry) ∧ later.engine.hasFunction = false ∧
      (made.drawnSince "a" [] actions).map .ok = [c.nth 0, c.nth 1] ∧
      (later.step (.draw "a")).1 = .failed .exhausted ∧
      ((later.step (.rewind "a")).2.step (.drain "a")).1 = (made.step (.drain "a")).1 := by
  intro session request c made actions later
  have hmade : session.engine.curve .cartesian false request = .ok c := by
    have hstep : ¬(1 : Float) ≤ 0 := by decide +kernel
    have hsweep : Sweep.make? (0 : Float) 1 1 = .ok ⟨0, 1, 1, 0⟩ := if_neg hstep
    exact congrArg (Except.map (Curve.traced .cartesian .var)) hsweep
  have hkept : ∀ entry ∈ made.log actions, ¬Replaces "a" entry := by
    simp [actions, log, Replaces]
  have hcount : (made.drawnSince "a" [] actions).length = 2 := by decide +kernel
  have hend : c.has 2 = false := by decide +kernel
  obtain ⟨-, ⟨hdrawn, -⟩, -, ⟨hhas, -, hexhausted⟩, -, -, -, hreplayed⟩ :=
    curve_replays hmade hkept
  rw [hcount] at hdrawn
  rw [hcount, hend] at hhas
  exact ⟨hmade, hkept, by decide +kernel, hdrawn, hexhausted.mpr hhas, hreplayed⟩

end Session

end GraphCalc
