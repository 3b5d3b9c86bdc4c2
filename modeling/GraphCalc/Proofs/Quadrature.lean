import GraphCalc.Expr.Basic
import GraphCalc.Proofs.Outcome
import GraphCalc.Proofs.Sampling
import GraphCalc.Quadrature

/-!
# GraphCalc.Proofs.Quadrature

What the two rules of integration compute.

Either rule adds its terms from left to right.  Which terms these are is settled without a law of
the arithmetic; over rational numbers the terms stand on a grid, and a sum is a sum in any order.

* `rectanglesFrom_eq_some` — the rectangles over the positions that a walk passes below the end;
* `trapezoidsFrom_eq` — the trapezoids, each with both its heights computed anew;
* `trapezoids_share_heights` — so the height that two of them share is the same for both;
* `exact_sums` — both rules over rational numbers, and the difference between them.
-/

namespace GraphCalc.Quadrature

section

variable {α : Type} {f : α → α} {b h : α}

/-! ## rectangles -/

/-- The rectangles over the positions that a walk passes below the end, from left to right. -/
theorem rectanglesFrom_eq_some [Add α] [Mul α] [LT α] [DecidableLT α] {n budget : Nat} {x : α}
    (hinside : ∀ k < n, (· + h)^[k] x < b) (houtside : ¬(· + h)^[n] x < b) (hbudget : n < budget)
    (total : α) : rectanglesFrom f b h budget x total =
      some ((List.range n).foldl (fun total k => total + f ((· + h)^[k] x) * h) total) := by
  induction n generalizing budget x total with
  | zero =>
      obtain ⟨budget, rfl⟩ := Nat.exists_eq_succ_of_ne_zero hbudget.ne'
      rw [rectanglesFrom]
      exact if_neg houtside
  | succ n ih =>
      obtain ⟨budget, rfl⟩ := Nat.exists_eq_succ_of_ne_zero (Nat.zero_lt_of_lt hbudget).ne'
      have hrest := @ih budget (x + h) (fun k hk => hinside (k + 1) (Nat.succ_lt_succ hk)) houtside
        (Nat.lt_of_succ_lt_succ hbudget) (total + f x * h)
      have hx : x < b := hinside 0 n.zero_lt_succ
      rw [rectanglesFrom, if_pos hx, hrest, List.range_succ_eq_map, List.foldl_cons, List.foldl_map]
      rfl

/-- A walk that stays below the end uses up every budget. -/
theorem rectanglesFrom_eq_none [Add α] [Mul α] [LT α] [DecidableLT α] {budget : Nat} {x : α}
    (hinside : ∀ k < budget, (· + h)^[k] x < b) (total : α) :
    rectanglesFrom f b h budget x total = none := by
  induction budget generalizing x total with
  | zero => rfl
  | succ budget ih =>
      have hx : x < b := hinside 0 budget.zero_lt_succ
      rw [rectanglesFrom, if_pos hx]
      exact ih (fun k hk => hinside (k + 1) (Nat.succ_lt_succ hk)) _

section

variable [Add α] [Mul α] [LT α] [DecidableLT α] [LE α] [DecidableLE α] [OfNat α 0]
  {budget : Nat} {a : α} (hstep : checkStep h = .ok ())
include hstep

/-- With a step that is not refused, the rule gives the sum of its rectangles. -/
theorem rectangles_eq_ok {total : α} (hsum : rectanglesFrom f b h budget a 0 = some total) :
    rectangles budget f a b h = .ok total := by
  rw [rectangles, hstep, hsum]
  rfl

/-- Or it runs out of steps. -/
theorem rectangles_eq_endless (hsum : rectanglesFrom f b h budget a 0 = none) :
    rectangles budget f a b h = .error .endless := by
  rw [rectangles, hstep, hsum]
  rfl

end

/-! ## trapezoids -/

/-- The height between two trapezoids, at the point with the given number. -/
def height [Add α] [Mul α] [Whole α] (f : α → α) (a h : α) : Nat → α
  | 0 => f a
  | j + 1 => f (a + Whole.ofNat (j + 1) * h)

/-- The trapezoids from the `i`-th on, from left to right.  The height that one of them leaves to
the next is the one that the next would compute. -/
theorem trapezoidsFrom_eq [Add α] [Mul α] [Div α] [OfNat α 2] [Whole α] (f : α → α) (a h : α)
    (count i : Nat) (total : α) : trapezoidsFrom f a h count i (height f a h i) total =
      (List.range' i count).foldl
        (fun total j => total + (height f a h j + height f a h (j + 1)) / 2 * h) total := by
  induction count generalizing i total with
  | zero => rfl
  | succ count ih => exact ih (i + 1) _

/-- The left height and the total with which the rule comes to the `i`-th trapezoid. -/
def carried [Add α] [Mul α] [Div α] [OfNat α 0] [OfNat α 2] [Whole α] (f : α → α) (a h : α) :
    Nat → α × α
  | 0 => (f a, 0)
  | i + 1 =>
    let (left, total) := carried f a h i
    let right := f (a + Whole.ofNat (i + 1) * h)
    (right, total + (left + right) / 2 * h)

theorem trapezoidsFrom_carried [Add α] [Mul α] [Div α] [OfNat α 0] [OfNat α 2] [Whole α]
    (f : α → α) (a h : α) (i count : Nat) :
    trapezoidsFrom f a h (i + count) 0 (f a) 0 =
      trapezoidsFrom f a h count i (carried f a h i).1 (carried f a h i).2 := by
  induction i generalizing count with
  | zero =>
      rw [Nat.zero_add]
      rfl
  | succ i ih =>
      rw [Nat.succ_add_eq_add_succ, ih]
      rfl

/-- The rule fails with its step or with the number of its trapezoids. -/
theorem trapezoids_eq_ok_iff [Add α] [Sub α] [Mul α] [Div α] [LE α] [DecidableLE α] [OfNat α 0]
    [OfNat α 2] [Whole α] {a total : α} : trapezoids f a b h = .ok total ↔
      checkStep h = .ok () ∧ ∃ count, Whole.floor ((b - a) / h) = .ok count ∧
        total = trapezoidsFrom f a h count.toNat 0 (f a) 0 := by
  have hsum : ∀ count : Int,
      (if count ≤ 0 then (.ok 0 : Except (NumericError α) α)
        else .ok (trapezoidsFrom f a h count.toNat 0 (f a) 0)) =
      .ok (trapezoidsFrom f a h count.toNat 0 (f a) 0) := by
    intro count
    split
    · next hcount =>
      rw [Int.toNat_of_nonpos hcount]
      rfl
    · rfl
  rw [trapezoids, bind_eq_ok]
  simp only [bind_eq_ok, pure, Except.pure, hsum, Except.ok.injEq, eq_comm (a := total)]
  exact ⟨fun ⟨_, hsteps⟩ => hsteps, fun hsteps => ⟨(), hsteps⟩⟩

/-- What the trapezoidal rule computes, for any expression and whatever the operations are.

* Unless the step or the number of trapezoids is refused, it gives the sum of the trapezoids from
  left to right, each with both its heights computed anew.
* With however many trapezoids, the left height that is carried on to one of them is the height that
  would be computed at its left end. -/
theorem trapezoids_share_heights [Arithmetic α] [Add α] [Sub α] [Mul α] [Div α] [LE α]
    [DecidableLE α] [OfNat α 0] [OfNat α 2] [Whole α] (e : Expr α) (a b h : α) :
    (∀ total, trapezoids e.eval a b h = .ok total ↔
      checkStep h = .ok () ∧ ∃ count, Whole.floor ((b - a) / h) = .ok count ∧
        total = (List.range count.toNat).foldl (fun total i =>
          total + (height e.eval a h i + height e.eval a h (i + 1)) / 2 * h) 0) ∧
    ∀ i count,
      trapezoidsFrom e.eval a h (i + count) 0 (e.eval a) 0 =
        trapezoidsFrom e.eval a h count i (carried e.eval a h i).1 (carried e.eval a h i).2 ∧
      (carried e.eval a h i).1 = height e.eval a h i := by
  refine ⟨fun total => ?_, fun i count => ⟨trapezoidsFrom_carried e.eval a h i count, ?_⟩⟩
  · rw [trapezoids_eq_ok_iff]
    simp only [List.range_eq_range', ← trapezoidsFrom_eq]
    rfl
  · cases i <;> rfl

/-- The reciprocal is infinite at zero, and so are the two trapezoids that share this height. -/
example :
    trapezoids (Expr.binary .div (.const 1) .var : Expr Float).eval (-1) 1 1 = .ok (1 / 0) := by
  decide +kernel

end

/-! ## rational numbers -/

variable {f : ℚ → ℚ} {a b h : ℚ}

theorem foldl_add_eq_sum (term : Nat → ℚ) (n : Nat) (total : ℚ) :
    (List.range n).foldl (fun total k => total + term k) total =
      total + ∑ k ∈ Finset.range n, term k := by
  induction n with
  | zero => simp
  | succ n ih =>
      rw [List.range_succ, List.foldl_append, ih, Finset.sum_range_succ, ← add_assoc]
      rfl

theorem height_eq (f : ℚ → ℚ) (a h : ℚ) (j : Nat) : height f a h j = f (a + j * h) := by
  cases j with
  | zero => simp [height]
  | succ j => rfl

theorem checkStep_of_pos (hh : 0 < h) : checkStep h = .ok () := if_neg (not_le.mpr hh)

/-- The left-endpoint rule ends, and gives the sum over the grid points below the end. -/
theorem rectangles_eq_sum (f : ℚ → ℚ) (a b : ℚ) (hh : 0 < h) {budget : Nat}
    (hbudget : ⌈(b - a) / h⌉.toNat < budget) : rectangles budget f a b h =
      .ok (∑ i ∈ Finset.range ⌈(b - a) / h⌉.toNat, f (a + i * h) * h) := by
  have hsum := rectanglesFrom_eq_some (f := f) (x := a)
    (fun k hk => (iterate_add_lt_iff hh).mpr hk)
    (fun hinside => absurd ((iterate_add_lt_iff hh).mp hinside) (Nat.lt_irrefl _)) hbudget 0
  simp only [iterate_add_eq, foldl_add_eq_sum, zero_add] at hsum
  exact rectangles_eq_ok (checkStep_of_pos hh) hsum

/-- The trapezoidal rule gives the sum over the whole steps. -/
theorem trapezoids_eq_sum (f : ℚ → ℚ) (a b : ℚ) (hh : 0 < h) : trapezoids f a b h =
      .ok (∑ i ∈ Finset.range ⌊(b - a) / h⌋.toNat,
        (f (a + i * h) + f (a + (i + 1) * h)) / 2 * h) := by
  have hfirst : f a = height f a h 0 := rfl
  refine trapezoids_eq_ok_iff.mpr ⟨checkStep_of_pos hh, ⌊(b - a) / h⌋, rfl, ?_⟩
  rw [hfirst, trapezoidsFrom_eq, ← List.range_eq_range', foldl_add_eq_sum, zero_add]
  simp only [height_eq, Nat.cast_add, Nat.cast_one]

/-- Where whole steps lead from one end to the other, the terms of the two rules differ by half the
rise over each step, and the rises add up to the one from end to end. -/
theorem sum_trapezoids_sub_sum_rectangles (f : ℚ → ℚ) (a h : ℚ) (n : Nat) :
    ∑ i ∈ Finset.range n, (f (a + i * h) + f (a + (i + 1) * h)) / 2 * h -
        ∑ i ∈ Finset.range n, f (a + i * h) * h =
      h * (f (a + n * h) - f a) / 2 := by
  calc
    _ = ∑ i ∈ Finset.range n, (f (a + (i + 1 : Nat) * h) - f (a + i * h)) * (h / 2) := by
        rw [← Finset.sum_sub_distrib]
        refine Finset.sum_congr rfl fun i _ => ?_
        push_cast
        ring
    _ = (f (a + n * h) - f (a + (0 : Nat) * h)) * (h / 2) := by
        rw [← Finset.sum_mul, Finset.sum_range_sub fun i : Nat => f (a + i * h)]
    _ = h * (f (a + n * h) - f a) / 2 := by
        rw [Nat.cast_zero, zero_mul, add_zero]
        ring

/-- What the two rules compute over rational numbers, for any function and any bounds, with a step
above zero.

* The left-endpoint rule ends, after one step for each grid point below the end.
* Either rule gives the sum over its terms.
* If whole steps lead from the start to an end that is not before it, the rules differ by half the
  step times the rise of the function. -/
theorem exact_sums (f : ℚ → ℚ) (a b : ℚ) (hh : 0 < h) :
    ∃ left middle,
      (∀ budget, (max 0 ⌈(b - a) / h⌉).toNat < budget →
        rectangles budget f a b h = .ok left) ∧
      left = ∑ i ∈ Finset.range (max 0 ⌈(b - a) / h⌉).toNat, f (a + i * h) * h ∧
      trapezoids f a b h = .ok middle ∧
      middle = ∑ i ∈ Finset.range (max 0 ⌊(b - a) / h⌋).toNat,
        (f (a + i * h) + f (a + (i + 1) * h)) / 2 * h ∧
      (a ≤ b → (∃ n : ℤ, b - a = n * h) → middle - left = h * (f b - f a) / 2) := by
  have hnat : ∀ n : ℤ, (max 0 n).toNat = n.toNat := by omega
  simp only [hnat]
  refine ⟨_, _, fun budget hbudget => rectangles_eq_sum f a b hh hbudget, rfl,
    trapezoids_eq_sum f a b hh, rfl, ?_⟩
  rintro hab ⟨n, hn⟩
  have hquotient : (b - a) / h = n := by rw [hn, mul_div_cancel_right₀ _ hh.ne']
  have hnonneg : 0 ≤ n := by
    have hdiv := div_nonneg (sub_nonneg.mpr hab) hh.le
    rw [hquotient] at hdiv
    exact_mod_cast hdiv
  have hend : a + (n.toNat : ℚ) * h = b := by
    have hcast : ((n.toNat : ℤ) : ℚ) = n := by rw [Int.toNat_of_nonneg hnonneg]
    rw [← Int.cast_natCast, hcast, ← hn, add_sub_cancel]
  rw [hquotient, Int.ceil_intCast, Int.floor_intCast, sum_trapezoids_sub_sum_rectangles, hend]

/-- Two steps from `0` to `1` below a parabola, whose rise is `1`. -/
theorem exact_sums_parabola :
    0 < (1 / 2 : ℚ) ∧ (0 : ℚ) ≤ 1 ∧ (∃ n : ℤ, (1 : ℚ) - 0 = n * (1 / 2)) ∧
      ∃ left middle, rectangles 3 (fun x : ℚ => x * x) 0 1 (1 / 2) = .ok left ∧
        trapezoids (fun x : ℚ => x * x) 0 1 (1 / 2) = .ok middle ∧ middle - left = 1 / 4 := by
  have hwhole : ∃ n : ℤ, (1 : ℚ) - 0 = n * (1 / 2) := ⟨2, by norm_num⟩
  obtain ⟨left, middle, hleft, -, hmiddle, -, hdifference⟩ :=
    exact_sums (h := 1 / 2) (fun x : ℚ => x * x) 0 1 (by norm_num)
  refine ⟨by norm_num, by norm_num, hwhole, left, middle, hleft 3 ?_, hmiddle, ?_⟩
  · have hceil : ⌈((1 : ℚ) - 0) / (1 / 2)⌉ = 2 := by norm_num
    rw [hceil]
    decide
  · rw [hdifference (by norm_num) hwhole]
    norm_num

end GraphCalc.Quadrature
