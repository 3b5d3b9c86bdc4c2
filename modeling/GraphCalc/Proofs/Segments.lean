import GraphCalc.Proofs.Curve.Trail

/-!
# GraphCalc.Proofs.Segments

The segments of a source are a partition of its points.

A source is anything that draws points and answers, after each draw, whether the point begins a new
segment; the answer may depend on all that the source keeps.  What is drawn up to the end is a list of
points with these answers, and the segments are read off that list:

* `collectFrom_of_draws` — collecting from a source is cutting the list of what it draws;
* `flatten_cut`, `ne_nil_of_mem_cut` — no point is lost and no segment is empty;
* `beginsAt_cut_iff` — a point behind the first begins a segment exactly if the answer was yes;
* `collect_partition` — the segments of a source that ends, wherever it stood before.
-/

namespace GraphCalc

/-! ## what is drawn -/

/-- The source draws these points up to its end, each with the answer it gives right after. -/
inductive PointSource.Draws {σ α : Type} [PointSource σ α] : σ → List (Point α × Bool) → Prop
  | ended {source : σ} (h : next? source = .ok none) : Draws source []
  | drawn {source source' : σ} {p : Point α} {drawn : List (Point α × Bool)}
      (h : next? source = .ok (some (p, source'))) (rest : Draws source' drawn) :
      Draws source ((p, startsSegment source') :: drawn)

namespace Segments

/-! ## cutting a list -/

variable {β : Type}

/-- The segments of points with answers, given the points of the segment that has been begun. -/
def cut (begun : List β) : List (β × Bool) → List (List β)
  | [] => if begun.isEmpty then [] else [begun]
  | (p, starts) :: rest =>
    if starts && !begun.isEmpty then begun :: cut [p] rest else cut (begun ++ [p]) rest

variable {begun : List β} {drawn : List (β × Bool)} {segments : List (List β)}

/-- No point is lost, and none is drawn twice. -/
theorem flatten_cut (begun : List β) (drawn : List (β × Bool)) :
    (cut begun drawn).flatten = begun ++ drawn.map Prod.fst := by
  induction drawn generalizing begun with
  | nil => cases begun <;> simp [cut]
  | cons marked rest ih =>
      obtain ⟨p, starts⟩ := marked
      rw [cut]
      split
      · rw [List.flatten_cons, ih]
        rfl
      · rw [ih, List.append_assoc]
        rfl

theorem ne_nil_of_mem_cut {segment : List β} (h : segment ∈ cut begun drawn) : segment ≠ [] := by
  induction drawn generalizing begun with
  | nil =>
      rw [cut] at h
      split at h
      · contradiction
      · next hbegun =>
        obtain rfl := List.mem_singleton.mp h
        simpa using hbegun
  | cons marked rest ih =>
      obtain ⟨p, starts⟩ := marked
      rw [cut] at h
      split at h
      · next hcut =>
        cases h with
        | head => simpa using (Bool.and_eq_true_iff.mp hcut).2
        | tail _ h => exact ih h
      · exact ih h

/-- The first segment has in it what has been begun. -/
theorem exists_cut_eq_cons (hbegun : begun ≠ []) (drawn : List (β × Bool)) :
    ∃ more rest, cut begun drawn = (begun ++ more) :: rest := by
  induction drawn generalizing begun with
  | nil => exact ⟨[], [], by simp [cut, hbegun]⟩
  | cons marked rest ih =>
      obtain ⟨p, starts⟩ := marked
      rw [cut]
      split
      · exact ⟨[], cut [p] rest, by simp⟩
      · obtain ⟨more, rest, hcut⟩ := @ih (begun ++ [p]) (by simp)
        exact ⟨p :: more, rest, by rw [hcut, List.append_assoc, List.singleton_append]⟩

/-- Points that begin no segment are left together. -/
theorem cut_of_no_starts (h : ∀ marked ∈ drawn, marked.2 = false) :
    cut begun drawn =
      if begun ++ drawn.map Prod.fst = [] then [] else [begun ++ drawn.map Prod.fst] := by
  induction drawn generalizing begun with
  | nil => cases begun <;> simp [cut]
  | cons marked rest ih =>
      obtain ⟨p, starts⟩ := marked
      obtain ⟨hstarts, hrest⟩ := List.forall_mem_cons.mp h
      obtain rfl : starts = false := hstarts
      have hsame : begun ++ [p] ++ rest.map Prod.fst =
          begun ++ ((p, false) :: rest).map Prod.fst := by simp
      rw [cut, Bool.false_and, if_neg Bool.false_ne_true, ih hrest, hsame]

/-! ## where segments begin -/

/-- The point with the given number, counted from zero through all segments, is the first one of its
segment. -/
def BeginsAt (segments : List (List β)) (i : Nat) : Prop :=
  ∃ before segment after, segments = before ++ segment :: after ∧ before.flatten.length = i

theorem beginsAt_cons {segment : List β} {i : Nat} :
    BeginsAt (segment :: segments) i ↔
      i = 0 ∨ segment.length ≤ i ∧ BeginsAt segments (i - segment.length) := by
  constructor
  · rintro ⟨before, found, after, hsegments, rfl⟩
    cases before with
    | nil => exact .inl rfl
    | cons first before =>
        obtain ⟨rfl, rfl⟩ := List.cons.inj hsegments
        refine .inr ⟨by simp, before, found, after, rfl, by simp⟩
  · rintro (rfl | ⟨hle, before, found, after, rfl, hlength⟩)
    · exact ⟨[], segment, segments, rfl, rfl⟩
    · refine ⟨segment :: before, found, after, rfl, ?_⟩
      rw [List.flatten_cons, List.length_append, hlength]
      omega

/-- What has been begun is not begun again: the first segment goes on behind it. -/
theorem length_le_of_beginsAt {i : Nat} (hi : 0 < i) (h : BeginsAt (cut begun drawn) i) :
    begun.length ≤ i := by
  by_cases hbegun : begun = []
  · simp [hbegun]
  · obtain ⟨more, rest, hcut⟩ := exists_cut_eq_cons hbegun drawn
    rw [hcut, beginsAt_cons, List.length_append] at h
    omega

/-- Behind what has been begun, a point begins a segment exactly if the answer was yes.  The very
first point of all, which needs no answer, is left out by `hi`. -/
theorem beginsAt_cut_iff {i : Nat} (hi : 0 < begun.length + i) :
    BeginsAt (cut begun drawn) (begun.length + i) ↔ ∃ p, drawn[i]? = some (p, true) := by
  induction drawn generalizing begun i with
  | nil =>
      have hnone : ¬∃ p : β, ([] : List (β × Bool))[i]? = some (p, true) := by simp
      refine iff_of_false ?_ hnone
      rintro ⟨before, segment, after, hcut, hlength⟩
      rw [cut] at hcut
      split at hcut
      · simp at hcut
      · obtain ⟨rfl, -⟩ | ⟨-, hnil⟩ := List.singleton_eq_append_iff.mp hcut
        · rw [List.flatten_nil, List.length_nil] at hlength
          omega
        · contradiction
  | cons marked rest ih =>
      obtain ⟨p, starts⟩ := marked
      rw [cut]
      split
      · next hcut =>
        rw [beginsAt_cons, or_iff_right hi.ne', Nat.add_sub_cancel_left,
          and_iff_right (Nat.le_add_right _ _)]
        cases i with
        | zero =>
            obtain ⟨more, after, hfirst⟩ := exists_cut_eq_cons (List.cons_ne_nil p []) rest
            rw [hfirst, beginsAt_cons]
            simpa using (Bool.and_eq_true_iff.mp hcut).1
        | succ j =>
            have hrest := @ih [p] j (by simp)
            rwa [List.length_singleton, Nat.add_comm] at hrest
      · next hcut =>
        cases i with
        | zero =>
            have hbegun : begun ≠ [] := by
              rintro rfl
              simp at hi
            obtain rfl : starts = false := by simpa [hbegun] using hcut
            refine iff_of_false (fun hbegins => ?_) (by simp)
            have hle := length_le_of_beginsAt hi hbegins
            rw [List.length_append, List.length_singleton] at hle
            omega
        | succ j =>
            have hrest := @ih (begun ++ [p]) j (by simp)
            rwa [List.length_append, List.length_singleton, Nat.add_assoc, Nat.add_comm 1] at hrest

/-! ## collecting -/

variable {σ α : Type} [PointSource σ α]

/-- Collecting within a budget that has a step for each point and one more. -/
theorem collectFrom_of_draws {source : σ} {drawn : List (Point α × Bool)}
    (h : PointSource.Draws source drawn) {budget : Nat} (hbudget : drawn.length < budget)
    (current : List (Point α)) (done : List (List (Point α))) :
    collectFrom budget current done source = .ok (done.reverse ++ cut current.reverse drawn) := by
  induction h generalizing budget current done with
  | ended hnext =>
      obtain ⟨budget, rfl⟩ := Nat.exists_eq_succ_of_ne_zero (Nat.ne_of_gt hbudget)
      rw [collectFrom, hnext]
      cases current <;> simp [cut]
  | drawn hnext rest ih =>
      obtain ⟨budget, rfl⟩ :=
        Nat.exists_eq_succ_of_ne_zero (Nat.ne_of_gt (Nat.zero_lt_of_lt hbudget))
      rw [collectFrom, hnext, cut, List.isEmpty_reverse]
      dsimp only
      split
      · rw [ih (Nat.lt_of_succ_lt_succ hbudget)]
        simp
      · rw [ih (Nat.lt_of_succ_lt_succ hbudget), List.reverse_cons]

/-- The segments of a source that ends when it is drawn from its start, whatever it answers and
wherever it stood before.

* Put together they are the points, in the order in which they are drawn.
* None of them is empty.
* A point behind the first begins a segment exactly if the source said so right after drawing it.
* If it never does there is one segment, or none where there are no points. -/
theorem collect_partition {source : σ} {drawn : List (Point α × Bool)}
    (h : PointSource.Draws (PointSource.rewind source) drawn) :
    ∃ segments, (∀ budget, drawn.length < budget → collect budget source = .ok segments) ∧
      segments.flatten = drawn.map Prod.fst ∧ (∀ segment ∈ segments, segment ≠ []) ∧
      (∀ i, 0 < i → (BeginsAt segments i ↔ ∃ p, drawn[i]? = some (p, true))) ∧
      ((∀ marked ∈ drawn, marked.2 = false) →
        segments = if drawn = [] then [] else [drawn.map Prod.fst]) := by
  refine ⟨cut [] drawn, fun budget hbudget => collectFrom_of_draws h hbudget [] [],
    flatten_cut [] drawn, fun _ => ne_nil_of_mem_cut, fun i hi => ?_, fun hnone => ?_⟩
  · have hbegins := @beginsAt_cut_iff _ [] drawn i (by simpa using hi)
    rwa [List.length_nil, Nat.zero_add] at hbegins
  · rw [cut_of_no_starts hnone]
    simp

/-- A curve through five points, of which two have been drawn before, with breaks at the first point,
at the last one and at two in a row. -/
theorem collect_partition_breaks_in_a_row :
    let source : BrokenCurve Float := ⟨.traced .cartesian .var ⟨0, 2, 0.5, 1⟩, [0, 2, 3, 4], 2⟩
    let drawn : List (Point Float × Bool) :=
      [(⟨0, 0⟩, true), (⟨0.5, 0.5⟩, false), (⟨1, 1⟩, true), (⟨1.5, 1.5⟩, true), (⟨2, 2⟩, true)]
    PointSource.Draws (PointSource.rewind source) drawn ∧
      ∃ segments, collect stepBudget source = .ok segments ∧
        segments.flatten = drawn.map Prod.fst ∧ BeginsAt segments 3 ∧ ¬BeginsAt segments 1 := by
  intro source drawn
  have hstep : ∀ {t t' : Float} {n : Nat} {rest : List (Point Float × Bool)},
      t ≤ 2 + 1e-9 → t + 0.5 = t' →
      PointSource.Draws (σ := BrokenCurve Float)
        ⟨.traced .cartesian .var ⟨0, 2, 0.5, t'⟩, [0, 2, 3, 4], n + 1⟩ rest →
      PointSource.Draws (σ := BrokenCurve Float)
        ⟨.traced .cartesian .var ⟨0, 2, 0.5, t⟩, [0, 2, 3, 4], n⟩
        ((⟨t, t⟩, [0, 2, 3, 4].contains (((n + 1 : Nat) : Int) - 1)) :: rest) := by
    rintro t t' n rest hinside rfl hrest
    refine .drawn ?_ hrest
    have hinside' : (⟨0, 2, 0.5, t⟩ : Sweep Float).isInside = true := decide_eq_true hinside
    show (Curve.next? _).map _ = _
    rw [Curve.next?_traced, if_pos hinside']
    rfl
  have hdraws : PointSource.Draws (PointSource.rewind source) drawn := by
    refine @hstep 0 0.5 0 _ (by decide +kernel) (by decide +kernel) ?_
    refine @hstep 0.5 1 1 _ (by decide +kernel) (by decide +kernel) ?_
    refine @hstep 1 1.5 2 _ (by decide +kernel) (by decide +kernel) ?_
    refine @hstep 1.5 2 3 _ (by decide +kernel) (by decide +kernel) ?_
    refine @hstep 2 2.5 4 _ (by decide +kernel) (by decide +kernel) (.ended ?_)
    have houtside : (⟨0, 2, 0.5, 2.5⟩ : Sweep Float).isInside = false := by decide +kernel
    show (Curve.next? _).map _ = _
    rw [Curve.next?_traced, houtside]
    rfl
  obtain ⟨segments, hcollect, hflatten, -, hbegins, -⟩ := collect_partition hdraws
  refine ⟨hdraws, segments, hcollect _ (by decide), hflatten, ?_, ?_⟩
  · exact (hbegins 3 (by decide)).mpr ⟨_, rfl⟩
  · simp [hbegins 1 (by decide), drawn]

end Segments

end GraphCalc
