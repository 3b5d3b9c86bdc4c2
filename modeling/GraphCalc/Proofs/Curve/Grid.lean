import GraphCalc.Proofs.Curve.Replay
import GraphCalc.Proofs.Sampling

/-!
# GraphCalc.Proofs.Curve.Grid

The points of a curve when nothing is rounded.

Over rational numbers the positions of a sweep are a grid, and a curve has a point at each of them up
to the end of its range:

* `drain_of_pointsFrom` — a curve that has so many points and no more is drawn to its end;
* `drain_grid` — how many points that are, and where they stand.
-/

namespace GraphCalc

section

variable {α : Type} [Add α]

/-- The positions of a sweep are those of a walk from its start. -/
theorem Sweep.nth_eq_iterate (s : Sweep α) (k : Nat) : s.nth k = (· + s.step)^[k] s.start := by
  induction k with
  | zero => rfl
  | succ k ih => rw [nth, ih, Function.iterate_succ_apply']

theorem Curve.has_traced_iff [LE α] [DecidableLE α] [OfScientific α] {projection : Projection}
    {e : Expr α} {s : Sweep α} {k : Nat} :
    (traced projection e s).has k = true ↔ (· + s.step)^[k] s.start ≤ s.stop + 1e-9 := by
  rw [has, decide_eq_true_iff, Sweep.nth_eq_iterate]

namespace Curve

variable [LE α] [DecidableLE α] [OfScientific α] [Arithmetic α] [MaybeInfinite α]
  {c : Curve α} {k : Nat} {points : List (Point α)}

/-- Inside its range a curve has a point at each position that has one. -/
theorem nth_traced {projection : Projection} {e : Expr α} {s : Sweep α}
    (h : (traced projection e s).has k = true) : (traced projection e s).nth k =
      if projection.hasPoint ((· + s.step)^[k] s.start) then
        .ok (projection.pointAt e ((· + s.step)^[k] s.start))
      else .error .infiniteAngle := by
  rw [nth, if_pos h, Sweep.nth_eq_iterate, Projection.point_eq]

theorem has_of_nth_eq_ok {p : Point α} (h : c.nth k = .ok p) : c.has k = true := by
  cases hk : c.has k with
  | false =>
      rw [(nth_eq_exhausted_iff c k).mpr hk] at h
      contradiction
  | true => rfl

theorem PointsFrom.uncons {p : Point α} (h : c.PointsFrom k (p :: points)) :
    c.nth k = .ok p ∧ c.PointsFrom (k + 1) points := by
  rw [PointsFrom, List.length_cons, List.range'_succ, List.map_cons, List.map_cons] at h
  obtain ⟨hp, hpoints⟩ := List.cons.inj h
  exact ⟨hp.symm, hpoints⟩

/-- The first `n` points, one by one. -/
theorem pointsFrom_zero {n : Nat} {p : Nat → Point α} (h : ∀ k < n, c.nth k = .ok (p k)) :
    c.PointsFrom 0 ((List.range n).map p) := by
  rw [PointsFrom, List.length_map, List.length_range, List.map_map, List.range_eq_range']
  refine List.map_congr_left fun k hk => (h k ?_).symm
  simpa using hk

/-- A draw for each of the points that follow takes the cursor past them. -/
theorem drainFrom_of_pointsFrom (h : c.PointsFrom k points) (budget : Nat)
    (before : List (Point α)) : drainFrom (budget + points.length) before (c.past k) =
      drainFrom budget (points.reverse ++ before) (c.past (k + points.length)) := by
  induction points generalizing k before with
  | nil => rfl
  | cons p points ih =>
      obtain ⟨hp, hpoints⟩ := h.uncons
      have hrest := ih hpoints (p :: before)
      rw [Nat.add_right_comm] at hrest
      rw [List.length_cons, ← Nat.add_assoc, drainFrom, next?_past, has_of_nth_eq_ok hp, hp,
        List.reverse_cons, List.append_assoc]
      exact hrest

/-- Drawn to its end, a curve gives its points, if it has no more than these. -/
theorem drain_of_pointsFrom (h : c.PointsFrom k points) (hend : c.has (k + points.length) = false)
    {budget : Nat} (hbudget : points.length < budget) :
    (c.past k).drain budget = ⟨points, c.past (k + points.length), none⟩ := by
  obtain ⟨rest, hrest⟩ := Nat.exists_eq_add_of_lt hbudget
  obtain rfl : budget = rest + 1 + points.length := by omega
  rw [drain, drainFrom_of_pointsFrom h, drainFrom, next?_past, hend, List.append_nil]
  exact congrArg (Drained.mk · _ _) points.reverse_reverse

/-- A curve whose next point fails is not drawn to its end. -/
theorem drain_of_failure (h : c.PointsFrom k points) {e : NumericError α}
    (hnext : c.has (k + points.length) = true) (hfailed : c.nth (k + points.length) = .error e)
    {budget : Nat} (hbudget : points.length < budget) :
    (c.past k).drain budget = ⟨points, c.past (k + points.length), some e⟩ := by
  obtain ⟨rest, hrest⟩ := Nat.exists_eq_add_of_lt hbudget
  obtain rfl : budget = rest + 1 + points.length := by omega
  rw [drain, drainFrom_of_pointsFrom h, drainFrom, next?_past, hnext, hfailed, List.append_nil]
  exact congrArg (Drained.mk · _ _) points.reverse_reverse

end Curve

end

/-! ## rational numbers -/

/-- No rational number is infinite. -/
instance : MaybeInfinite ℚ := ⟨fun _ => false⟩

theorem Projection.hasPoint_rat (projection : Projection) (t : ℚ) :
    projection.hasPoint t = true := by
  cases projection <;> rfl

/-- A curve over rational numbers, drawn to its end with any step above zero.  Let `last` be the end
of its range together with the tolerance there.

* It has no points if `last` is before the start, and one more than whole steps fit in between
  otherwise.
* The points stand at the start and so many steps behind it, for either projection.
* No point is outside of the range, and one more would be behind it. -/
theorem Curve.drain_grid [Arithmetic ℚ] (e : Expr ℚ) (start stop : ℚ) {step : ℚ}
    (hstep : 0 < step) :
    let last := stop + 1e-9
    let count : Nat := if last < start then 0 else (⌊(last - start) / step⌋ + 1).toNat
    let ts : List ℚ := (List.range count).map fun k : Nat => start + k * step
    (∀ projection : Projection, ∃ c, make? projection e start stop step = .ok c ∧
      ∀ budget, count < budget →
        ∃ ended, c.drain budget = ⟨ts.map (projection.pointAt e), ended, none⟩ ∧
          ended.hasNext = false) ∧
    (∀ t ∈ ts, start ≤ t ∧ t ≤ last) ∧ last < start + count * step := by
  intro last count ts
  refine ⟨fun projection => ?_, fun t ht => ?_, ?_⟩
  · let c : Curve ℚ := .traced projection e ⟨start, stop, step, start⟩
    have hmake : Sweep.make? start stop step = .ok ⟨start, stop, step, start⟩ :=
      if_neg (not_le.mpr hstep)
    have hhas : ∀ k, c.has k = true ↔ k < count :=
      fun k => has_traced_iff.trans (iterate_add_le_iff hstep)
    have hlength : (ts.map (projection.pointAt e)).length = count := by simp [ts]
    have hpoints : c.PointsFrom 0 (ts.map (projection.pointAt e)) := by
      rw [List.map_map]
      refine pointsFrom_zero fun k hk => ?_
      rw [nth_traced ((hhas k).mpr hk), if_pos (projection.hasPoint_rat _), iterate_add_eq]
      rfl
    have hend : c.has (0 + (ts.map (projection.pointAt e)).length) = false := by
      rw [Nat.zero_add, hlength, ← Bool.not_eq_true, hhas]
      exact Nat.lt_irrefl _
    refine ⟨c, by rw [make?, hmake]; rfl, fun budget hbudget => ?_⟩
    refine ⟨_, drain_of_pointsFrom hpoints hend (hlength.trans_lt hbudget), ?_⟩
    rw [hasNext_past, hend]
  · obtain ⟨k, hk, rfl⟩ := List.mem_map.mp ht
    refine ⟨le_add_of_nonneg_right (mul_nonneg k.cast_nonneg hstep.le), ?_⟩
    rw [← iterate_add_eq]
    exact (iterate_add_le_iff hstep).mpr (List.mem_range.mp hk)
  · rw [← iterate_add_eq]
    exact not_le.mp fun hle => Nat.lt_irrefl _ ((iterate_add_le_iff hstep).mp hle)

/-- Four steps of a quarter lead from `0` to `1`, and the curve of `2 * x` has five points there. -/
theorem Curve.drain_grid_doubled :
    let arithmetic : Arithmetic ℚ :=
      { apply := fun
          | .add, a, b => a + b
          | .sub, a, b => a - b
          | .mul, a, b => a * b
          | .div, a, b => a / b
          | .pow, a, b => a ^ b.num
        call := fun _ a => a
        ofInt := fun n => n
        same := fun a b => a == b }
    0 < (1 / 4 : ℚ) ∧
      ∃ c, make? .cartesian (.binary .mul (.const 2) .var) 0 1 (1 / 4 : ℚ) = .ok c ∧
        ∃ ended, @drain ℚ arithmetic _ _ _ _ _ 6 c =
          ⟨[⟨0, 0⟩, ⟨1 / 4, 1 / 2⟩, ⟨1 / 2, 1⟩, ⟨3 / 4, 3 / 2⟩, ⟨1, 2⟩], ended, none⟩ := by
  intro arithmetic
  have hcount : (if (1 : ℚ) + 1e-9 < 0 then 0
      else (⌊((1 : ℚ) + 1e-9 - 0) / (1 / 4)⌋ + 1).toNat) = 5 := by
    norm_num
    rfl
  obtain ⟨hdrain, -⟩ := @drain_grid arithmetic (.binary .mul (.const 2) .var) 0 1 (1 / 4) (by norm_num)
  obtain ⟨c, hmake, hpoints⟩ := hdrain .cartesian
  rw [hcount] at hpoints
  obtain ⟨ended, hended, -⟩ := hpoints 6 (by decide)
  refine ⟨by norm_num, c, hmake, ended, hended.trans (congrArg (Drained.mk · ended none) ?_)⟩
  simp [List.range_succ, Projection.pointAt, Expr.eval, Arithmetic.apply, arithmetic]
  norm_num

end GraphCalc
