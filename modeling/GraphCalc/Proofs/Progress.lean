import GraphCalc.Proofs.Number.Sum
import GraphCalc.Proofs.Quadrature
import GraphCalc.Proofs.Curve.Grid

/-!
# GraphCalc.Proofs.Progress

Which walks among doubles come to an end.

A step that is not refused takes a walk up, from double to double, until it is behind the end of its
range.  The one thing that can keep it from there is a position so large that the sum with the step is
rounded back to it:

* `exists_outside` — a walk that does not stall leaves its range, in no more steps than there are
  doubles;
* `not_stalls_of_lt` — the steps that are large enough for any walk between two numbers;
* `rectangles_of_stalls`, `drain_of_stalls` — a rule or a curve that stalls uses up every budget;
* `ends_unless_stalls` — and no other does.
-/

namespace GraphCalc

open Number

/-! ## walks -/

/-- A walk among doubles stalls: before it leaves the range, it comes to a position that the step does
not move any more. -/
def Stalls (inside : Float → Prop) (h x : Float) : Prop :=
  ∃ n, (∀ k ≤ n, inside ((· + h)^[k] x)) ∧ (· + h)^[n] x + h = (· + h)^[n] x

section

variable {inside : Float → Prop} {h x : Float}

/-- A walk that stalls does not leave the range. -/
theorem Stalls.stays (hstalls : Stalls inside h x) (k : Nat) : inside ((· + h)^[k] x) := by
  obtain ⟨n, hinside, hfixed⟩ := hstalls
  rcases Nat.le_total k n with hk | hk
  · exact hinside k hk
  · obtain ⟨j, rfl⟩ := Nat.exists_eq_add_of_le' hk
    rw [Function.iterate_add_apply, Function.iterate_fixed hfixed]
    exact hinside n le_rfl

/-- Inside the range a walk goes up with each step, or stands still. -/
theorem eq_or_place_lt_iterate (hnumber : ∀ t, inside t → t.isNaN = false) (hh : ¬h ≤ 0) {n : Nat}
    (hinside : ∀ k ≤ n + 1, inside ((· + h)^[k] x)) :
    (· + h)^[n] x + h = (· + h)^[n] x ∨ place ((· + h)^[n] x) < place ((· + h)^[n + 1] x) := by
  have hnext := hnumber _ (hinside (n + 1) le_rfl)
  rw [Function.iterate_succ_apply'] at hnext ⊢
  exact eq_or_place_lt_add (hnumber _ (hinside n n.le_succ)) hh hnext

/-- So it does not come back behind its start. -/
theorem place_le_iterate (hnumber : ∀ t, inside t → t.isNaN = false) (hh : ¬h ≤ 0) {n : Nat}
    (hinside : ∀ k ≤ n, inside ((· + h)^[k] x)) : place x ≤ place ((· + h)^[n] x) := by
  induction n with
  | zero => exact le_rfl
  | succ n ih =>
      have hclimbed := ih fun k hk => hinside k (Nat.le_succ_of_le hk)
      rcases eq_or_place_lt_iterate hnumber hh hinside with hfixed | hlt
      · rwa [Function.iterate_succ_apply', hfixed]
      · exact hclimbed.trans hlt.le

/-- And if it does not stall, it comes past a double with each step. -/
theorem add_le_place_iterate (hnumber : ∀ t, inside t → t.isNaN = false) (hh : ¬h ≤ 0)
    (hmoves : ¬Stalls inside h x) {n : Nat} (hinside : ∀ k ≤ n, inside ((· + h)^[k] x)) :
    place x + n ≤ place ((· + h)^[n] x) := by
  induction n with
  | zero => exact (Int.add_zero _).le
  | succ n ih =>
      have hbefore : ∀ k ≤ n, inside ((· + h)^[k] x) := fun k hk => hinside k (Nat.le_succ_of_le hk)
      have hclimbed := ih hbefore
      rcases eq_or_place_lt_iterate hnumber hh hinside with hfixed | hlt
      · exact absurd ⟨n, hbefore, hfixed⟩ hmoves
      · push_cast
        omega

/-- A walk that does not stall leaves the range, within as many steps as there are doubles. -/
theorem exists_outside (hnumber : ∀ t, inside t → t.isNaN = false) (hh : ¬h ≤ 0)
    (hmoves : ¬Stalls inside h x) :
    ∃ n < stepBudget, (∀ k < n, inside ((· + h)^[k] x)) ∧ ¬inside ((· + h)^[n] x) := by
  by_contra hnone
  have hinside : ∀ n < stepBudget, inside ((· + h)^[n] x) := by
    intro n
    induction n using Nat.strong_induction_on with
    | _ n ih =>
        intro hn
        by_contra houtside
        exact hnone ⟨n, hn, fun k hk => ih k hk (hk.trans hn), houtside⟩
  have hbudget : 2 * infinityBits + 1 < stepBudget := by decide
  have hclimbed := add_le_place_iterate hnumber hh hmoves (n := 2 * infinityBits + 1)
    fun k hk => hinside k (hk.trans_lt hbudget)
  have hlow := abs_le.mp (abs_place_le (hnumber _ (hinside 0 (by decide))))
  have hhigh := abs_le.mp (abs_place_le (hnumber _ (hinside (2 * infinityBits + 1) hbudget)))
  rw [Function.iterate_zero_apply] at hlow
  push_cast at hclimbed
  omega

/-- Between two numbers, a walk does not stall if its step is more than a `2 ^ 53`-th of either. -/
theorem not_stalls_of_lt {last : Float} (hx : x.isFinite = true) (hlast : last.isFinite = true)
    (hfinite : h.isFinite = true) (hh : ¬h ≤ 0) (hinside : ∀ t, inside t → t ≤ last)
    (hxh : |value x| < 2 ^ 53 * value h) (hlasth : |value last| < 2 ^ 53 * value h) :
    ¬Stalls inside h x := by
  rintro ⟨n, hstays, hfixed⟩
  have hnumber : ∀ t, inside t → t.isNaN = false :=
    fun t ht => (isNaN_eq_false_of_le (hinside t ht)).1
  have hle := hinside _ (hstays n le_rfl)
  have hnan := isNaN_eq_false_of_le hle
  have hlow := place_le_iterate hnumber hh hstays
  have hhigh := (le_iff_place_le hnan.1 hnan.2).mp hle
  have hposition := isFinite_of_between hx hlast hnan.1 hlow hhigh
  have hlow := value_le_of_place_le hx hposition hlow
  have hhigh := value_le_of_place_le hposition hlast hhigh
  obtain ⟨m, e, hm, hu⟩ := finite_of_not_le_zero hfinite hh
  have habsorbed := absorbed_le hposition hu hfixed
  refine absurd (abs_lt.mpr ⟨?_, ?_⟩) (not_lt.mpr habsorbed)
  · linarith [(abs_lt.mp hxh).1]
  · linarith [(abs_lt.mp hlasth).2]

end

/-! ## rectangles -/

section

variable {f : Float → Float} {a b h : Float}

theorem not_le_zero_of_checkStep (hstep : Quadrature.checkStep h = .ok ()) : ¬h ≤ 0 := by
  intro hle
  rw [Quadrature.checkStep, if_pos hle] at hstep
  contradiction

/-- Where the walk stalls, the rectangles use up every budget. -/
theorem rectangles_of_stalls (hstep : Quadrature.checkStep h = .ok ())
    (hstalls : Stalls (· < b) h a) (budget : Nat) :
    Quadrature.rectangles budget f a b h = .error .endless :=
  Quadrature.rectangles_eq_endless hstep
    (Quadrature.rectanglesFrom_eq_none (fun k _ => hstalls.stays k) 0)

/-- Where it does not, they have a sum. -/
theorem rectangles_of_not_stalls (hstep : Quadrature.checkStep h = .ok ())
    (hmoves : ¬Stalls (· < b) h a) :
    ∃ total, ∀ budget, stepBudget ≤ budget → Quadrature.rectangles budget f a b h = .ok total := by
  obtain ⟨n, hn, hinside, houtside⟩ :=
    exists_outside (fun t ht => (isNaN_eq_false_of_lt ht).1) (not_le_zero_of_checkStep hstep) hmoves
  exact ⟨_, fun budget hbudget => Quadrature.rectangles_eq_ok hstep
    (Quadrature.rectanglesFrom_eq_some hinside houtside (hn.trans_le hbudget) 0)⟩

end

/-! ## curves -/

section

variable {projection : Projection} {e : Expr Float} {s : Sweep Float}

/-- A curve draws a point at the position: it is not beyond the end, and there is a point. -/
structure Draws (projection : Projection) (stop t : Float) : Prop where
  inside : t ≤ stop + 1e-9
  hasPoint : projection.hasPoint t = true

/-- A curve is made with every step that is not at most zero, and stands at its start. -/
theorem make?_eq_ok_iff {start stop step : Float} {c : Curve Float} :
    Curve.make? projection e start stop step = .ok c ↔
      ¬step ≤ 0 ∧ (Curve.traced projection e ⟨start, stop, step, start⟩).past 0 = c := by
  rw [Curve.make?, Sweep.make?]
  split
  · next hle => exact ⟨fun h => by contradiction, fun h => absurd hle h.1⟩
  · next hstep => exact ⟨fun h => ⟨hstep, Except.ok.inj h⟩, fun h => congrArg _ h.2⟩

/-- At the positions where it draws, a curve has the points of its expression. -/
theorem nth_of_draws {k : Nat} (h : Draws projection s.stop ((· + s.step)^[k] s.start)) :
    (Curve.traced projection e s).nth k = .ok (projection.pointAt e ((· + s.step)^[k] s.start)) := by
  have hhas : (Curve.traced projection e s).has k = true := Curve.has_traced_iff.mpr h.inside
  rw [Curve.nth_traced hhas, if_pos h.hasPoint]

theorem pointsFrom_of_draws {n : Nat}
    (h : ∀ k < n, Draws projection s.stop ((· + s.step)^[k] s.start)) :
    (Curve.traced projection e s).PointsFrom 0
      ((List.range n).map fun k => projection.pointAt e ((· + s.step)^[k] s.start)) :=
  Curve.pointsFrom_zero fun k hk => nth_of_draws (h k hk)

/-- Where the walk stalls, drawing uses up every budget. -/
theorem drain_of_stalls (hstalls : Stalls (Draws projection s.stop) s.step s.start) (budget : Nat) :
    (((Curve.traced projection e s).past 0).drain budget).failure = some .endless := by
  have hpoints := pointsFrom_of_draws (e := e) (n := budget) fun k _ => hstalls.stays k
  have hdrain := Curve.drainFrom_of_pointsFrom hpoints 0 []
  rw [List.length_map, List.length_range, Nat.zero_add] at hdrain
  exact congrArg Curve.Drained.failure hdrain

/-- Where it does not, the curve is drawn to its end or to an infinite angle. -/
theorem drain_of_not_stalls (hstep : ¬s.step ≤ 0)
    (hmoves : ¬Stalls (Draws projection s.stop) s.step s.start) :
    ∃ drained, (∀ budget, stepBudget ≤ budget →
        ((Curve.traced projection e s).past 0).drain budget = drained) ∧
      (drained.failure = none ∧ drained.curve.hasNext = false ∨
        drained.failure = some .infiniteAngle) := by
  obtain ⟨n, hn, hinside, houtside⟩ :=
    exists_outside (fun t ht => (isNaN_eq_false_of_le ht.inside).1) hstep hmoves
  obtain ⟨points, hpoints, hlength⟩ :
      ∃ points, (Curve.traced projection e s).PointsFrom 0 points ∧ points.length = n :=
    ⟨_, pointsFrom_of_draws hinside, by simp⟩
  have hbudget : ∀ budget, stepBudget ≤ budget → points.length < budget :=
    fun budget hle => hlength ▸ hn.trans_le hle
  have hcount : 0 + points.length = n := by rw [hlength, Nat.zero_add]
  cases hhas : (Curve.traced projection e s).has n with
  | false =>
      have hend : (Curve.traced projection e s).has (0 + points.length) = false := hcount ▸ hhas
      refine ⟨_, fun budget hle => Curve.drain_of_pointsFrom hpoints hend (hbudget budget hle), ?_⟩
      exact .inl ⟨rfl, (Curve.hasNext_past _ _).trans hend⟩
  | true =>
      have hnowhere : projection.hasPoint ((· + s.step)^[n] s.start) ≠ true := fun hpoint =>
        houtside ⟨Curve.has_traced_iff.mp hhas, hpoint⟩
      have hfailed := Curve.nth_traced hhas
      rw [if_neg hnowhere] at hfailed
      refine ⟨_, fun budget hle =>
        Curve.drain_of_failure hpoints ?_ ?_ (hbudget budget hle), .inr rfl⟩
      · rw [hcount, hhas]
      · rw [hcount, hfailed]

end

/-! ## the walks of the program -/

/-- Which walks of the program come to an end, for all doubles and every step that is not refused.

* The left-endpoint rule has a sum, and a curve is drawn to its end or to an infinite angle, unless
  the walk stalls inside of its range.
* If it stalls there, no budget of steps is enough.
* Neither stalls if the step is more than a `2 ^ 53`-th of the start, and of a number that the end is
  not behind. -/
theorem ends_unless_stalls (e : Expr Float) (a b h : Float) :
    (Quadrature.checkStep h = .ok () →
      (¬Stalls (· < b) h a → ∃ total, ∀ budget, stepBudget ≤ budget →
        Quadrature.rectangles budget e.eval a b h = .ok total) ∧
      (Stalls (· < b) h a → ∀ budget,
        Quadrature.rectangles budget e.eval a b h = .error .endless)) ∧
    (∀ projection c, Curve.make? projection e a b h = .ok c →
      (¬Stalls (Draws projection b) h a →
        ∃ drained, (∀ budget, stepBudget ≤ budget → c.drain budget = drained) ∧
          (drained.failure = none ∧ drained.curve.hasNext = false ∨
            drained.failure = some .infiniteAngle)) ∧
      (Stalls (Draws projection b) h a → ∀ budget, (c.drain budget).failure = some .endless)) ∧
    ∀ last : Float, b ≤ last → b + 1e-9 ≤ last → last.isFinite = true → a.isFinite = true →
      h.isFinite = true → ¬h ≤ 0 → |value a| < 2 ^ 53 * value h →
      |value last| < 2 ^ 53 * value h →
      ¬Stalls (· < b) h a ∧ ∀ projection, ¬Stalls (Draws projection b) h a := by
  refine ⟨fun hstep => ⟨rectangles_of_not_stalls hstep, rectangles_of_stalls hstep⟩, ?_, ?_⟩
  · intro projection c hmake
    obtain ⟨hstep, rfl⟩ := make?_eq_ok_iff.mp hmake
    exact ⟨drain_of_not_stalls (s := ⟨a, b, h, a⟩) hstep, drain_of_stalls (s := ⟨a, b, h, a⟩)⟩
  · intro last hb hb' hlast ha hfinite hh hah hlasth
    have hmoves : ∀ inside : Float → Prop, (∀ t, inside t → t ≤ last) → ¬Stalls inside h a :=
      fun _ hinside => not_stalls_of_lt ha hlast hfinite hh hinside hah hlasth
    exact ⟨hmoves _ fun t ht => double_le_trans (double_le_of_lt ht) hb,
      fun projection => hmoves _ fun t ht => double_le_trans ht.inside hb'⟩

/-- Steps of one lead from `0` to `4`, but not from the negative infinity. -/
theorem ends_unless_stalls_at_four :
    (∃ total, ∀ budget, stepBudget ≤ budget →
      Quadrature.rectangles budget (Expr.var : Expr Float).eval 0 4 1 = .ok total) ∧
    (∃ c, Curve.make? .cartesian .var (0 : Float) 4 1 = .ok c ∧
      ∃ drained, (∀ budget, stepBudget ≤ budget → c.drain budget = drained) ∧
        (drained.failure = none ∧ drained.curve.hasNext = false ∨
          drained.failure = some .infiniteAngle)) ∧
    (∀ budget,
      Quadrature.rectangles budget (Expr.var : Expr Float).eval (-1 / 0) 4 1 = .error .endless) ∧
    ∃ c, Curve.make? .cartesian .var (-1 / 0 : Float) 4 1 = .ok c ∧
      ∀ budget, (c.drain budget).failure = some .endless := by
  obtain ⟨hrectangles, hcurves, hlarge⟩ := ends_unless_stalls .var 0 4 1
  obtain ⟨hrectangles', hcurves', -⟩ := ends_unless_stalls .var (-1 / 0) 4 1
  have hstep : Quadrature.checkStep (1 : Float) = .ok () := by decide +kernel
  have hmake : ∀ start : Float, ∃ c, Curve.make? .cartesian .var start 4 1 = .ok c :=
    fun start => ⟨_, make?_eq_ok_iff.mpr ⟨not_le_zero_of_checkStep hstep, rfl⟩⟩
  have hzero : value 0 = 0 := value_of_zero (s := .positive) rfl
  have hone : value 1 = 1 := by
    have hunpack : (1 : Float).toModel.unpack = .finite .positive (2 ^ 52) (-52) (by decide) := rfl
    rw [value_of_finite hunpack]
    norm_num [Float.Model.UnpackedFloat.Sign.apply]
  have hfive : value 5 = 5 := by
    have hunpack : (5 : Float).toModel.unpack =
        .finite .positive (5 * 2 ^ 50) (-50) (by decide) := rfl
    rw [value_of_finite hunpack]
    norm_num [Float.Model.UnpackedFloat.Sign.apply]
  obtain ⟨hmoves, hmoves'⟩ := hlarge 5 (by decide +kernel) (by decide +kernel) (by decide +kernel)
    (by decide +kernel) (by decide +kernel) (not_le_zero_of_checkStep hstep)
    (by rw [hzero, hone]; norm_num) (by rw [hfive, hone]; norm_num)
  have hstalls : ∀ inside : Float → Prop, inside (-1 / 0) → Stalls inside 1 (-1 / 0) :=
    fun inside h => ⟨0, fun k hk => Nat.le_zero.mp hk ▸ h, by decide +kernel⟩
  obtain ⟨c, hc⟩ := hmake 0
  obtain ⟨c', hc'⟩ := hmake (-1 / 0)
  exact ⟨(hrectangles hstep).1 hmoves, ⟨c, hc, (hcurves _ c hc).1 (hmoves' _)⟩,
    (hrectangles' hstep).2 (hstalls _ (by decide +kernel)),
    ⟨c', hc', (hcurves' _ c' hc').2 (hstalls _ ⟨by decide +kernel, rfl⟩)⟩⟩

/-- At `1e16` doubles are two apart, and a step of one is absorbed.  The left-endpoint rule from there
to `1e16 + 4` does not come to an end, and neither does a curve whose range is this one position. -/
theorem endless_at_1e16 :
    (Quadrature.checkStep (1 : Float) = .ok () ∧ ∀ budget,
      Quadrature.rectangles budget (Expr.var : Expr Float).eval 1e16 (1e16 + 4) 1 = .error .endless) ∧
    ∀ projection, ∃ c, Curve.make? projection .var (1e16 : Float) 1e16 1 = .ok c ∧
      ∀ budget, (c.drain budget).failure = some .endless := by
  have habsorbed : (1e16 : Float) + 1 = 1e16 := by decide +kernel
  have hbelow : (1e16 : Float) < 1e16 + 4 := by decide +kernel
  have hinside : (1e16 : Float) ≤ 1e16 + 1e-9 := by decide +kernel
  have hstep : Quadrature.checkStep (1 : Float) = .ok () := by decide +kernel
  have hpoint : ∀ projection : Projection, projection.hasPoint (1e16 : Float) = true := by
    intro projection
    cases projection <;> decide +kernel
  have hfirst : ∀ {inside : Float → Prop}, inside 1e16 → Stalls inside 1 1e16 := fun h =>
    ⟨0, fun k hk => Nat.le_zero.mp hk ▸ h, habsorbed⟩
  refine ⟨⟨hstep, rectangles_of_stalls hstep (hfirst hbelow)⟩, fun projection => ?_⟩
  refine ⟨_, make?_eq_ok_iff.mpr ⟨not_le_zero_of_checkStep hstep, rfl⟩, ?_⟩
  exact drain_of_stalls (s := ⟨1e16, 1e16, 1, 1e16⟩) (hfirst ⟨hinside, hpoint projection⟩)

end GraphCalc
