import GraphCalc.Proofs.Curve.Trail

/-!
# GraphCalc.Proofs.Curve.Replay

A curve as a sequence of points with a cursor.

What a curve has as its `k`-th point is settled by the curve itself, before anything is drawn of it.
Drawing only moves the cursor along, and rewinding puts it back in front of the first point:

* `draw_past` — behind `k` points a draw has the outcome of the `k`-th point, and the cursor moves
  only if there is one;
* `nth_eq_exhausted_iff` — a draw is refused for want of points exactly where there is no next one;
* `drain_past` — what is drawn on the way to the end are the points from the `k`-th on;
* `rewind_past` — a rewound curve is the curve that was made.
-/

namespace GraphCalc

variable {α : Type} [Add α]

/-! ## the cursor -/

/-- The `k`-th position: the start, and then one step further each time. -/
def Sweep.nth (s : Sweep α) : Nat → α
  | 0 => s.start
  | k + 1 => s.nth k + s.step

namespace Curve

/-- The curve with its cursor behind the first `k` points. -/
def past : Curve α → Nat → Curve α
  | empty, _ => empty
  | traced projection e s, k => traced projection e { s with position := s.nth k }

/-- Rewinding leads back in front of the first point. -/
theorem rewind_past (c : Curve α) (k : Nat) : (c.past k).rewind = c.past 0 := by
  cases c <;> rfl

variable [LE α] [DecidableLE α] [OfScientific α]

/-- The curve has a `k`-th point to draw: the position is not beyond the end. -/
def has : Curve α → Nat → Bool
  | empty, _ => false
  | traced _ _ s, k => s.nth k ≤ s.stop + 1e-9

theorem hasNext_past (c : Curve α) (k : Nat) : (c.past k).hasNext = c.has k := by
  cases c <;> rfl

/-! ## the points -/

variable [Arithmetic α] [MaybeInfinite α]

/-- The `k`-th point, counted from `0`. -/
def nth (c : Curve α) (k : Nat) : Except (NumericError α) (Point α) :=
  match c with
  | empty => .error .exhausted
  | traced projection e s =>
    if c.has k then projection.point e (s.nth k) else .error .exhausted

/-- A point is missing where the range has ended, or where an infinite angle has no direction. -/
theorem nth_eq_error {c : Curve α} {k : Nat} {e : NumericError α} (h : c.nth k = .error e) :
    e = .exhausted ∧ c.has k = false ∨ e = .infiniteAngle ∧ c.has k = true := by
  cases c with
  | empty =>
      cases h
      exact .inl ⟨rfl, rfl⟩
  | traced projection expr s =>
      cases hk : (traced projection expr s).has k with
      | false =>
          simp only [nth, hk] at h
          cases h
          exact .inl ⟨rfl, rfl⟩
      | true =>
          simp only [nth, hk, if_true, Projection.point_eq] at h
          split at h
          · contradiction
          · cases h
            exact .inr ⟨rfl, rfl⟩

variable (c : Curve α) (k : Nat)

/-- The one way to be out of points is to have no next one. -/
theorem nth_eq_exhausted_iff : c.nth k = .error .exhausted ↔ c.has k = false := by
  constructor
  · intro h
    rcases nth_eq_error h with ⟨-, hno⟩ | ⟨hother, -⟩
    · exact hno
    · contradiction
  · intro h
    cases c with
    | empty => rfl
    | traced projection e s => simp [nth, h]

/-- A step of an iteration gives the next point, if there is one. -/
theorem next?_past : (c.past k).next? =
    if c.has k then (c.nth k).map fun p => some (p, c.past (k + 1)) else .ok none := by
  cases c with
  | empty => rfl
  | traced projection e s =>
      have hinside : { s with position := s.nth k }.isInside =
        (traced projection e s).has k := rfl
      simp only [past, next?, nth, hinside]
      cases (traced projection e s).has k <;> rfl

/-- A draw has the outcome of the next point.  If there is none the cursor stays. -/
theorem draw_past : (c.past k).draw = (c.nth k).map fun p => (p, c.past (k + 1)) := by
  rw [draw, next?_past]
  cases hk : c.has k with
  | false =>
      rw [(nth_eq_exhausted_iff c k).mpr hk]
      rfl
  | true => cases c.nth k <;> rfl

/-! ## drawing to the end -/

/-- The points are those from the `k`-th on, one after the other. -/
def PointsFrom (points : List (Point α)) : Prop :=
  points.map .ok = (List.range' k points.length).map c.nth

theorem pointsFrom_cons {p : Point α} {points : List (Point α)} (hp : c.nth k = .ok p)
    (h : c.PointsFrom (k + 1) points) : c.PointsFrom k (p :: points) := by
  rw [PointsFrom, List.length_cons, List.range'_succ, List.map_cons, List.map_cons, hp, h]

/-- More points behind some that are drawn from the start. -/
theorem pointsFrom_append {before points : List (Point α)} (hbefore : c.PointsFrom 0 before)
    (h : c.PointsFrom before.length points) : c.PointsFrom 0 (before ++ points) := by
  rw [PointsFrom, List.map_append, hbefore, h, List.length_append, ← List.map_append,
    ← List.range'_append, Nat.zero_add, Nat.one_mul]

/-- Whatever cuts a walk to the end short, it has drawn the points from the `k`-th on, and the
cursor stands behind the last of them. -/
theorem drainFrom_past (budget : Nat) (before : List (Point α)) :
    let drained := drainFrom budget before (c.past k)
    ∃ points, drained.points = before.reverse ++ points ∧ c.PointsFrom k points ∧
      drained.curve = c.past (k + points.length) ∧
      (drained.failure = none → c.has (k + points.length) = false) := by
  induction budget generalizing k before with
  | zero => exact ⟨[], by simp [drainFrom], rfl, rfl, by simp [drainFrom]⟩
  | succ budget ih =>
      rw [drainFrom, next?_past]
      cases hk : c.has k with
      | false => exact ⟨[], by simp, rfl, rfl, fun _ => hk⟩
      | true =>
          cases hp : c.nth k with
          | error e => exact ⟨[], by simp [Except.map], rfl, rfl, by simp [Except.map]⟩
          | ok p =>
              obtain ⟨points, hpoints, hfrom, hcurve, hend⟩ := ih (k + 1) (p :: before)
              have hcount : k + (p :: points).length = k + 1 + points.length := by
                rw [List.length_cons]
                omega
              refine ⟨p :: points, ?_, pointsFrom_cons c k hp hfrom, ?_, ?_⟩
              · simp only [if_true, Except.map, hpoints, List.reverse_cons, List.append_assoc,
                  List.singleton_append]
              · rwa [hcount]
              · rwa [hcount]

/-- Drawn to the end from behind `k` points, a curve gives the points from there on. -/
theorem drain_past (budget : Nat) :
    let drained := (c.past k).drain budget
    c.PointsFrom k drained.points ∧ drained.curve = c.past (k + drained.points.length) ∧
      (drained.failure = none → c.has (k + drained.points.length) = false) := by
  obtain ⟨points, hpoints, hrest⟩ := drainFrom_past c k budget []
  rw [List.reverse_nil, List.nil_append] at hpoints
  dsimp only
  rw [drain, hpoints]
  exact hrest

end Curve

end GraphCalc
