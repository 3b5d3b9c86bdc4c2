import GraphCalc.Proofs.Number.Place

/-!
# GraphCalc.Proofs.Number.Sum

Sums of doubles, and steps from one double to the next.

* `place_add` — a sum of finite doubles is the double nearest to the sum of their values;
* `eq_or_place_lt_add` — a step that is not at most zero moves a double up, unless it is absorbed;
* `absorbed_le` — which happens only to steps far below the double.
-/

namespace GraphCalc.Number

open Float.Model (Format UnpackedFloat)
open Float.Model.UnpackedFloat hiding pack unpack

/-! ## sums -/

/-- A finite sum of parts is packed at the place of the double nearest to it. -/
theorem place_pack_normalize (m : Int) (e : Int) (s : Sign) :
    place (.ofModel (.pack (UnpackedFloat.normalize .binary64 m e s))) =
      nearestPlace (m * 2 ^ e) := by
  have hround : ∀ (s : Sign) {n : Nat}, 0 < n → s.apply n = m →
      place (.ofModel (.pack (UnpackedFloat.round .binary64 s n e))) = nearestPlace (m * 2 ^ e) := by
    intro s n hn hm
    rw [ofModel_pack_round s hn, place_ofMagnitude (nearest_le _), ← nearestPlace_apply, hm]
  rw [UnpackedFloat.normalize]
  rcases lt_trichotomy m 0 with hm | rfl | hm
  · rw [compare_lt_iff_lt.mpr hm]
    refine hround .negative (by omega) ?_
    show -((-m).toNat : Int) = m
    omega
  · rw [compare_eq_iff_eq.mpr rfl, Int.cast_zero, zero_mul]
    show place (.ofModel (.pack (.zero s))) = nearestPlace 0
    rw [ofModel_pack_zero, place_ofMagnitude (Nat.zero_le _)]
    cases s <;> rfl
  · rw [compare_gt_iff_gt.mpr hm]
    refine hround .positive (by omega) ?_
    show (m.toNat : Int) = m
    omega

/-- A mantissa is brought to a smaller exponent without a change of value. -/
theorem apply_decreaseExponent (s : Sign) (m : Nat) {e q : Int} (hq : q ≤ e) :
    ((s.apply ((decreaseExponent m e q).1 : Int) : Int) : ℚ) * 2 ^ q = s.apply m * 2 ^ e := by
  obtain ⟨k, hk⟩ := Int.le.dest hq
  have hamount : (e - q).toNat = k := by omega
  have hscale : ((m * 2 ^ k : Nat) : ℚ) * 2 ^ q = m * 2 ^ e := by
    rw [← hk, zpow_add₀ two_ne_zero, zpow_natCast, Nat.cast_mul, Nat.cast_pow, Nat.cast_ofNat]
    ring
  have hdecrease : (decreaseExponent m e q).1 = m * 2 ^ k := by
    rw [decreaseExponent, hamount, Nat.shiftLeft_eq]
  rw [hdecrease]
  cases s <;> simp only [Sign.apply, Int.cast_neg, Int.cast_natCast, neg_mul, hscale]

/-- A sum of finite doubles is rounded to the nearest double. -/
theorem place_add {a b : Float} (ha : a.isFinite = true) (hb : b.isFinite = true) :
    place (a + b) = nearestPlace (value a + value b) := by
  have hadd : a + b = .ofModel (.pack (add .binary64 a.toModel.unpack b.toModel.unpack)) := rfl
  rcases finite_cases ha with ⟨s, hs⟩ | ⟨s, m, e, hm, hs, -⟩
  · rw [value_of_zero hs, zero_add, hadd, hs]
    rcases finite_cases hb with ⟨t, ht⟩ | ⟨t, n, d, hn, ht, -⟩
    · rw [ht, value_of_zero ht]
      cases s <;> cases t <;> rfl
    · rw [ht, ← place_eq hb]
      show place (.ofModel (.pack (.finite t n d hn))) = place b
      rw [← ht, ofModel_unpack]
  · rcases finite_cases hb with ⟨t, ht⟩ | ⟨t, n, d, hn, ht, -⟩
    · rw [value_of_zero ht, add_zero, ← place_eq ha, hadd, hs, ht]
      show place (.ofModel (.pack (.finite s m e hm))) = place a
      rw [← hs, ofModel_unpack]
    · rw [value_of_finite hs, value_of_finite ht, hadd, hs, ht, add, place_pack_normalize,
        Int.cast_add, add_mul, apply_decreaseExponent s m (min_le_left e d),
        apply_decreaseExponent t n (min_le_right e d)]

/-! ## steps -/

/-- A double that is not at most zero is a positive number, an infinity or a NaN. -/
theorem unpack_of_not_le_zero {h : Float} (hh : ¬h ≤ 0) :
    h.toModel.unpack = .notANumber ∨ h.toModel.unpack = .infinity .positive ∨
      ∃ m e hm, h.toModel.unpack = .finite .positive m e hm := by
  have hle : UnpackedFloat.le h.toModel.unpack (.zero .positive) = false :=
    Bool.eq_false_iff.mpr fun hle => hh (decide_eq_true hle)
  cases hu : h.toModel.unpack with
  | notANumber => exact .inl rfl
  | zero s =>
      rw [hu] at hle
      contradiction
  | infinity s =>
      cases s with
      | positive => exact .inr (.inl rfl)
      | negative =>
          rw [hu] at hle
          contradiction
  | finite s m e hm =>
      cases s with
      | positive => exact .inr (.inr ⟨m, e, hm, rfl⟩)
      | negative =>
          rw [hu] at hle
          contradiction

theorem finite_of_not_le_zero {h : Float} (hfinite : h.isFinite = true) (hh : ¬h ≤ 0) :
    ∃ m e hm, h.toModel.unpack = .finite .positive m e hm := by
  replace hfinite : h.toModel.unpack.isFinite = true := hfinite
  rcases unpack_of_not_le_zero hh with hu | hu | hu
  · rw [hu] at hfinite
    contradiction
  · rw [hu] at hfinite
    contradiction
  · exact hu

/-- No positive number is below the smallest one. -/
theorem two_zpow_le_value {h : Float} {m : Nat} {e : Int} {hm : 0 < m}
    (hh : h.toModel.unpack = .finite .positive m e hm) : (2 : ℚ) ^ (-1074 : Int) ≤ value h := by
  have hone : (1 : ℚ) ≤ m := by exact_mod_cast hm
  calc
    (2 : ℚ) ^ (-1074 : Int) ≤ 2 ^ e := zpow_le_zpow_right₀ one_le_two (canonical_of_unpack hh).low
    _ ≤ m * 2 ^ e := le_mul_of_one_le_left (two_zpow_pos e).le hone
    _ = value h := (value_of_finite hh).symm

/-- A positive step moves a number up, unless the sum is rounded back to it. -/
theorem eq_or_place_lt {x h : Float} {m : Nat} {e : Int} {hm : 0 < m} (hx : x.isFinite = true)
    (hh : h.toModel.unpack = .finite .positive m e hm) :
    x + h = x ∨ place x < place (x + h) := by
  have hfinite := isFinite_of_finite hh
  have hpos : 0 ≤ value h := (two_zpow_pos _).le.trans (two_zpow_le_value hh)
  have hle : place x ≤ place (x + h) := by
    rw [place_eq hx, place_add hx hfinite]
    exact nearestPlace_mono (le_add_of_nonneg_right hpos)
  rcases hle.eq_or_lt with heq | hlt
  · by_cases hzero : place x = 0
    · -- a zero is moved to the step itself
      rw [hzero, place_add hx hfinite, value_eq_zero hx hzero, zero_add, ← place_eq hfinite] at heq
      exact absurd heq.symm (place_ne_zero hh)
    · exact .inl (eq_of_place_eq heq.symm (heq ▸ hzero))
  · exact .inr hlt

theorem isNaN_ne_false {v : Float} (h : v = .ofModel (.pack .notANumber)) : v.isNaN ≠ false := by
  rw [h]
  decide +kernel

/-- A step that is not at most zero moves a double up or leaves it where it is, unless it leads to a
NaN, as does one from an infinity to the other. -/
theorem eq_or_place_lt_add {x h : Float} (hx : x.isNaN = false) (hh : ¬h ≤ 0)
    (hsum : (x + h).isNaN = false) : x + h = x ∨ place x < place (x + h) := by
  have hadd : x + h = .ofModel (.pack (add .binary64 x.toModel.unpack h.toModel.unpack)) := rfl
  rcases infinity_or_finite hx with ⟨s, hs⟩ | hfinite
  · have hself := ofModel_unpack x
    rw [hs] at hadd hself
    rcases unpack_of_not_le_zero hh with hu | hu | ⟨m, e, hm, hu⟩ <;> rw [hu] at hadd
    · exact absurd hsum (isNaN_ne_false hadd)
    · cases s with
      | negative => exact absurd hsum (isNaN_ne_false hadd)
      | positive => exact .inl (hadd.trans hself)
    · exact .inl (hadd.trans hself)
  · rcases unpack_of_not_le_zero hh with hu | hu | ⟨m, e, hm, hu⟩
    · have hnan : x + h = .ofModel (.pack .notANumber) := by
        rw [hadd, hu]
        cases x.toModel.unpack <;> rfl
      exact absurd hsum (isNaN_ne_false hnan)
    · have hinfinity : x + h = h := by
        rw [hadd, ← ofModel_unpack h, hu]
        rcases finite_cases hfinite with ⟨s, hs⟩ | ⟨s, n, d, hn, hs, -⟩ <;> rw [hs] <;> rfl
      refine .inr ?_
      rw [hinfinity, place_of_infinity hu]
      exact (abs_lt.mp (abs_place_lt hfinite)).2
    · exact eq_or_place_lt hfinite hu

/-! ## absorbed steps -/

theorem lt_halfEven {n : Nat} {r : ℚ} (h : n + 1 / 2 < r) : n < halfEven r := by
  have hfloor : n ≤ ⌊r⌋₊ := Nat.le_floor (by linarith)
  rcases hfloor.eq_or_lt with rfl | hlt
  · rw [halfEven, if_neg (by linarith), if_pos (by linarith)]
    exact Nat.lt_succ_self _
  · exact hlt.trans_le (le_halfEven_floor r)

theorem halfEven_lt {n : Nat} {r : ℚ} (hr : 0 ≤ r) (h : r < n - 1 / 2) : halfEven r < n := by
  have hfloor : ⌊r⌋₊ < n := (Nat.floor_lt hr).mpr (by linarith)
  rcases (Nat.succ_le_of_lt hfloor).eq_or_lt with heq | hlt
  · have hcast : (n : ℚ) = ⌊r⌋₊ + 1 := by
      rw [← heq, Nat.cast_succ]
    rw [halfEven, if_pos (by linarith)]
    exact hfloor
  · exact (halfEven_le_floor r).trans_lt hlt

/-- More than half of the grid above a double there is a greater one. -/
theorem lt_nearest {b : Binary} (hb : b.Canonical) (hpos : 0 < b.mantissa) {r : ℚ}
    (h : (b.mantissa + 1 / 2) * 2 ^ b.exponent < r) : b.bits < nearest r := by
  have hle : b.magnitude ≤ r := by
    refine le_trans ?_ h.le
    exact mul_le_mul_of_nonneg_right (by norm_num) (two_zpow_pos _).le
  have hmagnitude : 0 < b.magnitude := mul_pos (by exact_mod_cast hpos) (two_zpow_pos _)
  have hr : 0 < r := hmagnitude.trans_le hle
  have hgrid : b.exponent ≤ grid r := hb.grid_magnitude hpos ▸ grid_mono hmagnitude hle
  have hlow := hb.low
  have hlt := hb.lt
  rw [nearest, if_neg hr.ne']
  refine lt_min ?_ hb.bits_lt
  rw [Binary.bits]
  rcases hgrid.eq_or_lt with heq | hgrid
  · have hround := lt_halfEven ((lt_div_iff₀ (two_zpow_pos _)).mpr h)
    rw [← heq]
    omega
  · have hround := le_halfEven (le_scaled_of_grid hr (by omega))
    omega

/-- More than half of the grid below a double there is a smaller one. -/
theorem nearest_lt {b : Binary} (hb : b.Canonical) (hpos : 0 < b.mantissa) {r : ℚ} (hr : 0 ≤ r)
    (h : r < (b.mantissa - 1 / 2) * 2 ^ b.exponent) : nearest r < b.bits := by
  rcases hr.eq_or_lt with rfl | hr
  · rw [nearest, if_pos rfl, Binary.bits]
    omega
  have hle : r ≤ b.magnitude := by
    refine h.le.trans ?_
    exact mul_le_mul_of_nonneg_right (by norm_num) (two_zpow_pos _).le
  have hgrid : grid r ≤ b.exponent := hb.grid_magnitude hpos ▸ grid_mono hr hle
  have hscaled : 0 ≤ r / 2 ^ grid r := div_nonneg hr.le (two_zpow_pos _).le
  have hround := halfEven_le hscaled (scaled_lt hr)
  have hlow : -1074 ≤ grid r := le_max_right _ _
  have hfull := hb.full
  rw [nearest, if_neg hr.ne']
  refine (min_le_left _ _).trans_lt ?_
  rw [Binary.bits]
  rcases hgrid.eq_or_lt with heq | hgrid
  · have hless := halfEven_lt hscaled (heq ▸ (div_lt_iff₀ (two_zpow_pos _)).mpr h)
    rw [heq] at hless ⊢
    omega
  · -- only the next finer grid comes close, where the numbers below have one bit more
    rcases (Int.add_one_le_of_lt hgrid).eq_or_lt with hnext | hfiner
    · have hless : halfEven (r / 2 ^ grid r) < 2 * b.mantissa := by
        refine halfEven_lt hscaled ?_
        rw [div_lt_iff₀ (two_zpow_pos _)]
        rw [← hnext, zpow_add₀ two_ne_zero, zpow_one] at h
        have hpower := two_zpow_pos (grid r)
        push_cast
        linarith
      omega
    · omega

/-- More than half of the grid moves a number up, on either side of zero. -/
theorem lt_nearestPlace {s : Sign} {n : Nat} {d : Int} {t : ℚ}
    (hb : Binary.Canonical ⟨s == .negative, n, d⟩) (hn : 0 < n) (ht : 1 / 2 * 2 ^ d < t) :
    s.apply ((d + 1074).toNat * 2 ^ 52 + n : Nat) < nearestPlace (s.apply n * 2 ^ d + t) := by
  have hpower := two_zpow_pos d
  cases s with
  | positive =>
      have hsum : ((n : ℚ) + 1 / 2) * 2 ^ d < ((n : Int) : ℚ) * 2 ^ d + t := by
        rw [Int.cast_natCast]
        linarith
      have hpos : 0 < ((n : ℚ) + 1 / 2) * 2 ^ d := by positivity
      show (((d + 1074).toNat * 2 ^ 52 + n : Nat) : Int) < nearestPlace (((n : Int) : ℚ) * 2 ^ d + t)
      rw [nearestPlace, if_pos (hpos.trans hsum).le]
      exact_mod_cast lt_nearest hb hn hsum
  | negative =>
      have hsum : ((-(n : Int) : Int) : ℚ) * 2 ^ d + t = -(n * 2 ^ d - t) := by
        rw [Int.cast_neg, Int.cast_natCast]
        ring
      show -(((d + 1074).toNat * 2 ^ 52 + n : Nat) : Int) <
        nearestPlace (((-(n : Int) : Int) : ℚ) * 2 ^ d + t)
      rw [hsum, nearestPlace, neg_neg]
      split_ifs with hsign
      · omega
      · have hless : nearest (n * 2 ^ d - t) < (d + 1074).toNat * 2 ^ 52 + n :=
          nearest_lt hb hn (by linarith) (by linarith)
        omega

/-- A step is absorbed only by a number `2 ^ 53` times its size, or more. -/
theorem absorbed_le {x h : Float} {m : Nat} {e : Int} {hm : 0 < m} (hx : x.isFinite = true)
    (hh : h.toModel.unpack = .finite .positive m e hm) (habsorbed : x + h = x) :
    2 ^ 53 * value h ≤ |value x| := by
  have hfinite := isFinite_of_finite hh
  have hplace := place_add hx hfinite
  rw [habsorbed] at hplace
  rcases finite_cases hx with ⟨s, hs⟩ | ⟨s, n, d, hn, hs, -⟩
  · rw [place_of_zero hs, value_of_zero hs, zero_add, ← place_eq hfinite] at hplace
    exact absurd hplace.symm (place_ne_zero hh)
  · have hcanonical := canonical_of_unpack hs
    have hstep : value h ≤ 1 / 2 * 2 ^ d := by
      by_contra hlt
      refine (lt_nearestPlace hcanonical hn (not_le.mp hlt)).ne ?_
      rw [← value_of_finite hs, ← hplace, place_of_finite hs]
    have hvalue : |value x| = n * 2 ^ d := by
      rw [value_of_finite hs, abs_mul, abs_of_pos (two_zpow_pos d)]
      cases s <;> simp [Sign.apply]
    rw [hvalue]
    rcases hcanonical.full with hfull | hfull
    · have hscaled : ((2 ^ 52 : Nat) : ℚ) * 2 ^ d ≤ n * 2 ^ d :=
        mul_le_mul_of_nonneg_right (by exact_mod_cast hfull) (two_zpow_pos d).le
      push_cast at hscaled
      linarith
    · -- on the finest grid there are no smaller steps
      obtain rfl : d = -1074 := hfull
      have hpower := two_zpow_pos (-1074)
      linarith [two_zpow_le_value hh]

end GraphCalc.Number
