import GraphCalc.Proofs.Number.Rounding

/-!
# GraphCalc.Proofs.Number.Place

The places of doubles.

All doubles but a NaN stand in a row, from one infinity to the other, and their bits say where: the
place of a double is how many steps it is above zero, or below it.

* `place_eq` — a finite double stands at the place of its value;
* `compare_eq_some` — doubles are compared by their places;
* `value_le_of_place_le` — and the finite ones stand in the order of their values.
-/

namespace GraphCalc.Number

open Float.Model (Format UnpackedFloat)
open Float.Model.UnpackedFloat hiding pack unpack

/-! ## places and values -/

/-- The place of a double among all of them, counted from zero upwards or downwards. -/
def place (v : Float) : Int := if isNegative v then -magnitudeBits v else magnitudeBits v

/-- The place of the double nearest to a number. -/
def nearestPlace (r : ℚ) : Int := if 0 ≤ r then nearest r else -nearest (-r)

/-- The value of a finite double.  An infinity or a NaN has none, and is given zero. -/
def valueOf : UnpackedFloat → ℚ
  | .finite s m e _ => s.apply m * 2 ^ e
  | _ => 0

@[inherit_doc valueOf]
def value (v : Float) : ℚ := valueOf v.toModel.unpack

/-- A greater number is not rounded to a smaller double. -/
theorem nearestPlace_mono {r s : ℚ} (h : r ≤ s) : nearestPlace r ≤ nearestPlace s := by
  unfold nearestPlace
  split_ifs with hr hs hs
  · exact_mod_cast nearest_mono hr h
  · exact absurd (hr.trans h) hs
  · omega
  · have hneg := nearest_mono (neg_nonneg.mpr (not_le.mp hs).le) (neg_le_neg h)
    omega

/-- Numbers of either sign are rounded alike. -/
theorem nearestPlace_apply (s : Sign) (m : Nat) (e : Int) :
    nearestPlace (s.apply m * 2 ^ e) = s.apply (nearest (m * 2 ^ e)) := by
  have hnonneg : (0 : ℚ) ≤ m * 2 ^ e := mul_nonneg m.cast_nonneg (two_zpow_pos e).le
  cases s with
  | positive => exact if_pos hnonneg
  | negative =>
      show nearestPlace (((-(m : Int) : Int) : ℚ) * 2 ^ e) = -nearest (m * 2 ^ e)
      rw [Int.cast_neg, Int.cast_natCast, neg_mul, nearestPlace, neg_neg]
      split_ifs with h
      · have hzero : (m : ℚ) * 2 ^ e = 0 := le_antisymm (neg_nonneg.mp h) hnonneg
        simp [hzero, nearest]
      · rfl

theorem place_ofMagnitude {bits : Nat} (h : bits ≤ infinityBits) (s : Sign) :
    place (ofMagnitude (s == .negative) bits) = s.apply bits := by
  rw [place, isNegative_ofMagnitude h, magnitudeBits_ofMagnitude h]
  cases s <;> rfl

/-- Only the two zeros share a place. -/
theorem eq_of_place_eq {a b : Float} (h : place a = place b) (hne : place a ≠ 0) : a = b := by
  have hsign : isNegative a = isNegative b := by
    cases ha : isNegative a <;> cases hb : isNegative b <;>
      simp only [place, ha, hb, if_true, Bool.false_eq_true, if_false] at h hne ⊢ <;> omega
  have hmagnitude : magnitudeBits a = magnitudeBits b := by
    simp only [place, hsign] at h
    split at h <;> omega
  rw [← ofMagnitude_eq a, ← ofMagnitude_eq b, hsign, hmagnitude]

/-! ## the kinds of doubles -/

section

variable {v : Float} {s : Sign} {m : Nat} {e : Int} {hm : 0 < m}

theorem isFinite_of_finite (h : v.toModel.unpack = .finite s m e hm) : v.isFinite = true := by
  show v.toModel.unpack.isFinite = true
  rw [h]
  rfl

theorem isFinite_of_zero (h : v.toModel.unpack = .zero s) : v.isFinite = true := by
  show v.toModel.unpack.isFinite = true
  rw [h]
  rfl

theorem place_of_infinity (h : v.toModel.unpack = .infinity s) :
    place v = s.apply infinityBits := by
  rw [← ofModel_unpack v, h, ofModel_pack_infinity, place_ofMagnitude le_rfl]

theorem place_of_zero (h : v.toModel.unpack = .zero s) : place v = 0 := by
  rw [← ofModel_unpack v, h, ofModel_pack_zero, place_ofMagnitude (Nat.zero_le _)]
  cases s <;> rfl

theorem value_of_zero (h : v.toModel.unpack = .zero s) : value v = 0 := by
  rw [value, h]
  rfl

theorem value_of_finite (h : v.toModel.unpack = .finite s m e hm) : value v = s.apply m * 2 ^ e := by
  rw [value, h]
  rfl

/-- The mantissa and the exponent of a number give bits below an infinity's. -/
theorem bits_lt_infinityBits (h : v.toModel.unpack = .finite s m e hm) :
    (e + 1074).toNat * 2 ^ 52 + m < infinityBits := by
  have hbits := (isFinite_iff v).mp (isFinite_of_finite h)
  rw [← ofModel_unpack v, h, ofModel_pack_finite hm (onGrid_of_unpack h),
    magnitudeBits_ofMagnitude (min_le_right _ _)] at hbits
  exact (min_lt_iff.mp hbits).resolve_right (lt_irrefl _)

theorem place_of_finite (h : v.toModel.unpack = .finite s m e hm) :
    place v = s.apply ((e + 1074).toNat * 2 ^ 52 + m : Nat) := by
  rw [← ofModel_unpack v, h, ofModel_pack_finite hm (onGrid_of_unpack h),
    place_ofMagnitude (min_le_right _ _), min_eq_left (bits_lt_infinityBits h).le]

theorem place_ne_zero (h : v.toModel.unpack = .finite s m e hm) : place v ≠ 0 := by
  rw [place_of_finite h]
  cases s <;> simp only [Sign.apply] <;> omega

/-- The mantissa and the exponent of a number are canonical. -/
theorem canonical_of_unpack (h : v.toModel.unpack = .finite s m e hm) :
    Binary.Canonical ⟨s == .negative, m, e⟩ := by
  obtain ⟨hlt, hlow, hfull⟩ := (onGrid_iff hm).mp (onGrid_of_unpack h)
  have hbits := bits_lt_infinityBits h
  have hinfinity := infinityBits_eq
  have hhigh : e ≤ 971 := by omega
  exact ⟨hlt, hlow, hhigh, hfull⟩

end

/-- A finite double stands at the place of its value. -/
theorem place_eq {v : Float} (hv : v.isFinite = true) : place v = nearestPlace (value v) := by
  rcases finite_cases hv with ⟨s, hs⟩ | ⟨s, m, e, hm, hs, -⟩
  · rw [place_of_zero hs, value_of_zero hs]
    rfl
  · rw [place_of_finite hs, value_of_finite hs, nearestPlace_apply]
    exact congrArg (fun bits : Nat => s.apply bits) (canonical_of_unpack hs).nearest_magnitude.symm

/-- Nothing but a zero stands at the place of zero. -/
theorem value_eq_zero {v : Float} (hv : v.isFinite = true) (h : place v = 0) : value v = 0 := by
  rcases finite_cases hv with ⟨s, hs⟩ | ⟨s, m, e, hm, hs, -⟩
  · exact value_of_zero hs
  · exact absurd h (place_ne_zero hs)

/-- A double that is no NaN is an infinity or finite. -/
theorem infinity_or_finite {v : Float} (hv : v.isNaN = false) :
    (∃ s, v.toModel.unpack = .infinity s) ∨ v.isFinite = true := by
  replace hv : v.toModel.unpack.isNaN = false := hv
  cases hu : v.toModel.unpack with
  | notANumber =>
      rw [hu] at hv
      contradiction
  | infinity s => exact .inl ⟨s, rfl⟩
  | zero => exact .inr (isFinite_of_zero hu)
  | finite => exact .inr (isFinite_of_finite hu)

/-- The finite doubles stand between the infinities. -/
theorem abs_place_lt {v : Float} (hv : v.isFinite = true) : |place v| < infinityBits := by
  have hlt := (isFinite_iff v).mp hv
  rw [place]
  split <;> simpa using hlt

/-- No double but a NaN stands beyond an infinity. -/
theorem abs_place_le {v : Float} (hv : v.isNaN = false) : |place v| ≤ infinityBits := by
  rcases infinity_or_finite hv with ⟨s, hs⟩ | hfinite
  · rw [place_of_infinity hs]
    cases s <;> simp [Sign.apply]
  · exact (abs_place_lt hfinite).le

/-- What stands between finite doubles is finite. -/
theorem isFinite_of_between {a b v : Float} (ha : a.isFinite = true) (hb : b.isFinite = true)
    (hv : v.isNaN = false) (hlow : place a ≤ place v) (hhigh : place v ≤ place b) :
    v.isFinite = true := by
  rcases infinity_or_finite hv with ⟨s, hs⟩ | hfinite
  · have ha := abs_lt.mp (abs_place_lt ha)
    have hb := abs_lt.mp (abs_place_lt hb)
    rw [place_of_infinity hs] at hlow hhigh
    cases s <;> simp only [Sign.apply] at hlow hhigh <;> omega
  · exact hfinite

/-! ## comparisons -/

section

variable {α : Type} [LinearOrder α] {x y : α}

theorem lt_eq_compare (h : x < y) : Ordering.lt = compare x y := (compare_lt_iff_lt.mpr h).symm

theorem eq_eq_compare (x : α) : Ordering.eq = compare x x := (compare_eq_iff_eq.mpr rfl).symm

theorem gt_eq_compare (h : y < x) : Ordering.gt = compare x y := (compare_gt_iff_gt.mpr h).symm

end

/-- Mantissas on the grid are compared by their exponents first. -/
theorem compare_bits {m n : Nat} {e d : Int} (hm : 0 < m) (hn : 0 < n) (he : OnGrid m e)
    (hd : OnGrid n d) : (compare e d).then (compare m n) =
      compare (((e + 1074).toNat * 2 ^ 52 + m : Nat) : Int) ((d + 1074).toNat * 2 ^ 52 + n : Nat) := by
  obtain ⟨hlt, hle, hfull⟩ := (onGrid_iff hm).mp he
  obtain ⟨hlt', hle', hfull'⟩ := (onGrid_iff hn).mp hd
  rcases lt_trichotomy e d with h | rfl | h
  · rw [← lt_eq_compare h]
    exact lt_eq_compare (by omega)
  · rw [← eq_eq_compare e]
    rcases lt_trichotomy m n with h | rfl | h
    · rw [← lt_eq_compare h]
      exact lt_eq_compare (by omega)
    · rw [← eq_eq_compare m]
      exact eq_eq_compare _
    · rw [← gt_eq_compare h]
      exact gt_eq_compare (by omega)
  · rw [← gt_eq_compare h]
    exact gt_eq_compare (by omega)

theorem compare_neg_neg (x y : Int) : compare (-x) (-y) = (compare x y).swap := by
  rcases lt_trichotomy x y with h | rfl | h
  · rw [← lt_eq_compare h, ← gt_eq_compare (neg_lt_neg h)]
    rfl
  · rw [← eq_eq_compare x, ← eq_eq_compare (-x)]
    rfl
  · rw [← gt_eq_compare h, ← lt_eq_compare (neg_lt_neg h)]
    rfl

/-- Finite doubles are compared by their places. -/
theorem compare_eq_some_of_finite {a b : Float} (ha : a.isFinite = true) (hb : b.isFinite = true) :
    a.toModel.unpack.compare b.toModel.unpack = some (compare (place a) (place b)) := by
  rcases finite_cases ha with ⟨s, hs⟩ | ⟨s, m, e, hm, hs, hgrid⟩ <;>
    rcases finite_cases hb with ⟨t, ht⟩ | ⟨t, n, d, hn, ht, hgrid'⟩
  · rw [place_of_zero hs, place_of_zero ht, hs, ht]
    rfl
  · rw [place_of_zero hs, place_of_finite ht, hs, ht]
    cases t with
    | negative => exact congrArg some (gt_eq_compare (by simp only [Sign.apply]; omega))
    | positive => exact congrArg some (lt_eq_compare (by simp only [Sign.apply]; omega))
  · rw [place_of_finite hs, place_of_zero ht, hs, ht]
    cases s with
    | negative => exact congrArg some (lt_eq_compare (by simp only [Sign.apply]; omega))
    | positive => exact congrArg some (gt_eq_compare (by simp only [Sign.apply]; omega))
  · have hbits := compare_bits hm hn hgrid hgrid'
    rw [place_of_finite hs, place_of_finite ht, hs, ht]
    cases s <;> cases t
    · exact congrArg some ((congrArg Ordering.swap hbits).trans (compare_neg_neg _ _).symm)
    · exact congrArg some (lt_eq_compare (by simp only [Sign.apply]; omega))
    · exact congrArg some (gt_eq_compare (by simp only [Sign.apply]; omega))
    · exact congrArg some hbits

/-- All doubles but a NaN are compared by their places. -/
theorem compare_eq_some {a b : Float} (ha : a.isNaN = false) (hb : b.isNaN = false) :
    a.toModel.unpack.compare b.toModel.unpack = some (compare (place a) (place b)) := by
  rcases infinity_or_finite ha with ⟨s, hs⟩ | hfinite <;>
    rcases infinity_or_finite hb with ⟨t, ht⟩ | hfinite'
  · rw [place_of_infinity hs, place_of_infinity ht, hs, ht]
    cases s <;> cases t <;> rfl
  · obtain ⟨hlow, hhigh⟩ := abs_lt.mp (abs_place_lt hfinite')
    rw [place_of_infinity hs, hs]
    rcases finite_cases hfinite' with ⟨t, ht⟩ | ⟨t, n, d, hn, ht, -⟩ <;> rw [ht] <;> cases s
    all_goals first
      | exact congrArg some (lt_eq_compare hlow)
      | exact congrArg some (gt_eq_compare hhigh)
  · obtain ⟨hlow, hhigh⟩ := abs_lt.mp (abs_place_lt hfinite)
    rw [place_of_infinity ht, ht]
    rcases finite_cases hfinite with ⟨s, hs⟩ | ⟨s, m, e, hm, hs, -⟩ <;> rw [hs] <;> cases t
    all_goals first
      | exact congrArg some (lt_eq_compare hhigh)
      | exact congrArg some (gt_eq_compare hlow)
  · exact compare_eq_some_of_finite hfinite hfinite'

theorem lt_iff_place_lt {a b : Float} (ha : a.isNaN = false) (hb : b.isNaN = false) :
    a < b ↔ place a < place b := by
  have hlt : a < b ↔ UnpackedFloat.lt a.toModel.unpack b.toModel.unpack = true :=
    decide_eq_true_iff
  rw [hlt, UnpackedFloat.lt, compare_eq_some ha hb, beq_iff_eq, Option.some_inj]
  exact compare_lt_iff_lt

theorem le_iff_place_le {a b : Float} (ha : a.isNaN = false) (hb : b.isNaN = false) :
    a ≤ b ↔ place a ≤ place b := by
  have hle : a ≤ b ↔ UnpackedFloat.le a.toModel.unpack b.toModel.unpack = true :=
    decide_eq_true_iff
  rw [hle, UnpackedFloat.le, compare_eq_some ha hb]
  exact Int.isLE_compare

/-- Only a NaN cannot be compared. -/
theorem isNaN_eq_false_of_compare {a b : Float} {o : Ordering}
    (h : a.toModel.unpack.compare b.toModel.unpack = some o) :
    a.isNaN = false ∧ b.isNaN = false := by
  show a.toModel.unpack.isNaN = false ∧ b.toModel.unpack.isNaN = false
  cases hu : a.toModel.unpack with
  | notANumber =>
      rw [hu] at h
      contradiction
  | infinity | zero | finite =>
      cases hv : b.toModel.unpack with
      | notANumber =>
          rw [hu, hv] at h
          contradiction
      | infinity | zero | finite => exact ⟨rfl, rfl⟩

theorem isNaN_eq_false_of_lt {a b : Float} (h : a < b) : a.isNaN = false ∧ b.isNaN = false :=
  isNaN_eq_false_of_compare (beq_iff_eq.mp (of_decide_eq_true h))

theorem isNaN_eq_false_of_le {a b : Float} (h : a ≤ b) : a.isNaN = false ∧ b.isNaN = false := by
  obtain ⟨o, ho, -⟩ := (Option.any_eq_true _ _).mp (of_decide_eq_true h)
  exact isNaN_eq_false_of_compare ho

theorem double_le_of_lt {a b : Float} (h : a < b) : a ≤ b := by
  obtain ⟨ha, hb⟩ := isNaN_eq_false_of_lt h
  exact (le_iff_place_le ha hb).mpr ((lt_iff_place_lt ha hb).mp h).le

theorem double_le_trans {a b c : Float} (h : a ≤ b) (h' : b ≤ c) : a ≤ c := by
  obtain ⟨ha, hb⟩ := isNaN_eq_false_of_le h
  obtain ⟨-, hc⟩ := isNaN_eq_false_of_le h'
  have hab := (le_iff_place_le ha hb).mp h
  have hbc := (le_iff_place_le hb hc).mp h'
  exact (le_iff_place_le ha hc).mpr (hab.trans hbc)

/-- Finite doubles stand in the order of their values. -/
theorem value_le_of_place_le {a b : Float} (ha : a.isFinite = true) (hb : b.isFinite = true)
    (h : place a ≤ place b) : value a ≤ value b := by
  by_contra hlt
  have hplace : place b ≤ place a := by
    rw [place_eq ha, place_eq hb]
    exact nearestPlace_mono (not_le.mp hlt).le
  have heq := le_antisymm h hplace
  by_cases hzero : place a = 0
  · exact hlt (value_eq_zero ha hzero ▸ value_eq_zero hb (heq ▸ hzero) ▸ le_rfl)
  · exact hlt (eq_of_place_eq heq hzero ▸ le_rfl)

end GraphCalc.Number
