import GraphCalc.Proofs.Number.Nearest
import GraphCalc.Proofs.Number.Neutral

/-!
# GraphCalc.Proofs.Number.Rounding

Rounding to the nearest double.

The operations on doubles compute with a mantissa of as many bits as it takes, and shift it to the
right at the end.  Two residual bits remember what was shifted out, and that is enough to find the
nearest double:

* `nearest_mono` — a greater number is not rounded to a smaller double;
* `ofModel_pack_finite` — the bits that a mantissa on the grid is packed into;
* `shiftRight_eq` — what the residual bits say;
* `ofModel_pack_round` — whatever is rounded is rounded to the nearest double.
-/

namespace GraphCalc.Number

open Float.Model (Format UnpackedFloat totalExponent)
open Float.Model.UnpackedFloat hiding pack unpack

/-! ## order -/

theorem le_halfEven_floor (r : ℚ) : ⌊r⌋₊ ≤ halfEven r := by
  unfold halfEven
  split_ifs <;> omega

theorem halfEven_le_floor (r : ℚ) : halfEven r ≤ ⌊r⌋₊ + 1 := by
  unfold halfEven
  split_ifs <;> omega

/-- A greater number is not rounded to a smaller one. -/
theorem halfEven_mono {r s : ℚ} (h : r ≤ s) : halfEven r ≤ halfEven s := by
  rcases Nat.eq_or_lt_of_le (Nat.floor_le_floor h) with hfloor | hfloor
  · unfold halfEven
    rw [hfloor]
    split_ifs <;> first | omega | linarith
  · exact (halfEven_le_floor r).trans (Nat.succ_le_of_lt hfloor |>.trans (le_halfEven_floor s))

theorem grid_mono {r s : ℚ} (hr : 0 < r) (h : r ≤ s) : grid r ≤ grid s := by
  have hlog := Int.log_mono_right (b := 2) hr h
  simp only [grid]
  omega

/-- On the grid around it, a number has at most fifty-three bits. -/
theorem scaled_lt {r : ℚ} (hr : 0 < r) : r / 2 ^ grid r < (2 ^ 53 : Nat) := by
  have hlt := (Int.lt_zpow_iff_log_lt (b := 2) one_lt_two hr).mpr (Int.lt_add_one_of_le le_rfl)
  have hgrid : Int.log 2 r + 1 ≤ 53 + grid r := by
    simp only [grid]
    omega
  rw [div_lt_iff₀ (two_zpow_pos _), Nat.cast_pow, Nat.cast_ofNat, ← zpow_natCast,
    ← zpow_add₀ two_ne_zero]
  refine lt_of_lt_of_le (by exact_mod_cast hlt) ?_
  exact zpow_le_zpow_right₀ one_le_two hgrid

/-- And at least so many, unless it is the finest one. -/
theorem le_scaled_of_grid {r : ℚ} (hr : 0 < r) (h : -1074 < grid r) :
    ((2 ^ 52 : Nat) : ℚ) ≤ r / 2 ^ grid r := by
  have hlog : grid r = Int.log 2 r - 52 := by
    simp only [grid] at h ⊢
    omega
  have hself := Int.zpow_log_le_self (b := 2) one_lt_two hr
  exact (le_scaled (n := Int.log 2 r) (by omega) (by exact_mod_cast hself)).2

/-- A greater number is not rounded to a smaller double. -/
theorem nearest_mono {r s : ℚ} (hr : 0 ≤ r) (h : r ≤ s) : nearest r ≤ nearest s := by
  rcases hr.eq_or_lt with rfl | hr
  · simp [nearest]
  have hs := hr.trans_le h
  rw [nearest, if_neg hr.ne', nearest, if_neg hs.ne']
  refine min_le_min_right _ ?_
  rcases (grid_mono hr h).eq_or_lt with hgrid | hgrid
  · rw [hgrid]
    have hround := halfEven_mono (div_le_div_of_nonneg_right h (two_zpow_pos (grid s)).le)
    omega
  · have hlow : -1074 ≤ grid r := le_max_right _ _
    have hup := halfEven_le (n := 2 ^ 53) (div_nonneg hr.le (two_zpow_pos (grid r)).le) (scaled_lt hr)
    have hdown := le_halfEven (le_scaled_of_grid hs (by omega))
    omega

theorem nearest_le (r : ℚ) : nearest r ≤ infinityBits := by
  unfold nearest
  split
  · exact Nat.zero_le _
  · exact min_le_right _ _

/-! ## packing -/

/-- The three fields of a double, put together. -/
theorem packComponents_toNat (s : Sign) (x : BitVec 11) (y : BitVec 52) :
    (packComponents .binary64 s x y).toNat =
      (if s == .negative then 2 ^ 63 else 0) + (x.toNat * 2 ^ 52 + y.toNat) := by
  have hsign : s.toBitVec.toNat = if s == .negative then 1 else 0 := by cases s <;> rfl
  have hx := x.isLt
  have hxy : (s.toBitVec ++ x).toNat = s.toBitVec.toNat * 2 ^ 11 + x.toNat := by
    rw [BitVec.toNat_append, ← Nat.shiftLeft_add_eq_or_of_lt hx, Nat.shiftLeft_eq]
  show (s.toBitVec ++ x ++ y).toNat = _
  rw [BitVec.toNat_append, ← Nat.shiftLeft_add_eq_or_of_lt y.isLt, Nat.shiftLeft_eq, hxy, hsign]
  split <;> ring

/-- A double is known by its bits. -/
theorem ofModel_pack_eq {u : UnpackedFloat} {s : Sign} {bits : Nat} (hbits : bits < 2 ^ 63)
    (h : (UnpackedFloat.pack .binary64 u).toNat = (if s == .negative then 2 ^ 63 else 0) + bits) :
    Float.ofModel (.pack u) = ofMagnitude (s == .negative) bits := by
  have htoNat : (Float.ofModel (.pack u)).toBits.toNat =
      (if s == .negative then 2 ^ 63 else 0) + bits := h
  rw [← ofMagnitude_eq (Float.ofModel (.pack u))]
  have hshift : 1 <<< 63 = 2 ^ 63 := rfl
  congr 1
  · rw [isNegative, htoNat, hshift]
    cases s == .negative with
    | false => simpa using hbits
    | true => simp
  · rw [magnitudeBits, htoNat, hshift]
    cases s == .negative with
    | false => simpa using hbits
    | true => simpa using hbits

theorem ofModel_pack_infinity (s : Sign) :
    Float.ofModel (.pack (.infinity s)) = ofMagnitude (s == .negative) infinityBits := by
  refine ofModel_pack_eq infinityBits_lt ?_
  rw [infinityBits_eq]
  exact packComponents_toNat s (-1#11) 0

theorem ofModel_pack_zero (s : Sign) :
    Float.ofModel (.pack (.zero s)) = ofMagnitude (s == .negative) 0 :=
  ofModel_pack_eq (Nat.two_pow_pos 63) (packComponents_toNat s 0 0)

/-- A mantissa is on the grid with fifty-three bits, or with fewer on the finest grid. -/
theorem onGrid_iff {m : Nat} {e : Int} (hm : 0 < m) :
    OnGrid m e ↔ m < 2 ^ 53 ∧ -1074 ≤ e ∧ (2 ^ 52 ≤ m ∨ e = -1074) := by
  have hlow : 2 ^ 52 ≤ m ↔ 52 ≤ m.log2 := (Nat.le_log2 hm.ne').symm
  have hhigh : m < 2 ^ 53 ↔ m.log2 < 53 := (Nat.log2_lt hm.ne').symm
  have htarget : Format.binary64.targetExponent (totalExponent m e) =
    max (m.log2 + 1 + e - 53) (-1074) := rfl
  rw [OnGrid, htarget, hlow, hhigh]
  omega

/-- A mantissa on the grid, with its exponent, is packed into the bits of a double; beyond the finite
doubles, into an infinity. -/
theorem ofModel_pack_finite {m : Nat} {e : Int} (hm : 0 < m) (h : OnGrid m e) (s : Sign) :
    Float.ofModel (.pack (.finite s m e hm)) =
      ofMagnitude (s == .negative) (min ((e + 1074).toNat * 2 ^ 52 + m) infinityBits) := by
  obtain ⟨hlt, hle, hfull⟩ := (onGrid_iff hm).mp h
  have hinfinity := infinityBits_eq
  have hlog : m.log2 = 52 ↔ 2 ^ 52 ≤ m := by
    rw [Nat.log2_eq_iff hm.ne']
    omega
  have hbiased : e + Format.binary64.exponentBias + Format.binary64.mantissaBitsWithoutImplicit =
    e + 1075 := by show e + 1023 + 52 = _; omega
  have hpack : UnpackedFloat.pack .binary64 (.finite s m e hm) =
      if 2 ^ 11 ≤ (e + 1075).toNat + 1 then packComponents .binary64 s (-1#11) 0#52
      else if m.log2 + 1 = 53 then
        packComponents .binary64 s (BitVec.ofNat 11 (e + 1075).toNat) (BitVec.ofNat 52 m)
      else packComponents .binary64 s 0#11 (BitVec.ofNat 52 m) := by
    rw [← hbiased]
    rfl
  refine ofModel_pack_eq (lt_of_le_of_lt (min_le_right _ _) infinityBits_lt) ?_
  rw [hpack]
  by_cases hover : 2 ^ 11 ≤ (e + 1075).toNat + 1
  · rw [if_pos hover, packComponents_toNat, toNat_neg_one, BitVec.toNat_ofNat]
    rw [Nat.add_left_cancel_iff]
    omega
  · rw [if_neg hover]
    by_cases hnormal : m.log2 + 1 = 53
    · rw [if_pos hnormal, packComponents_toNat, BitVec.toNat_ofNat, BitVec.toNat_ofNat]
      rw [Nat.add_left_cancel_iff]
      omega
    · rw [if_neg hnormal, packComponents_toNat, BitVec.toNat_ofNat, BitVec.toNat_ofNat,
        Nat.zero_mod, Nat.zero_mul, Nat.zero_add, Nat.add_left_cancel_iff]
      omega


/-! ## shifting -/

/-- After a shift to the right, the residual bits compare what was shifted out to zero and a half. -/
theorem shiftRight_eq (m k : Nat) : ExtendedMantissa.ofMantissaAndAccuracy m .exact >>> k =
    ⟨m / 2 ^ k, decide (2 ^ k ≤ 2 * (m % 2 ^ k)),
      decide (m % 2 ^ k ≠ 0 ∧ 2 * (m % 2 ^ k) ≠ 2 ^ k)⟩ := by
  show k.repeat ExtendedMantissa.shiftRightOne _ = _
  induction k with
  | zero => simp [Nat.repeat, ExtendedMantissa.ofMantissaAndAccuracy, Nat.mod_one]
  | succ k ih =>
      have hdiv : m / 2 ^ (k + 1) = m / 2 ^ k / 2 := by rw [Nat.pow_succ, Nat.div_div_eq_div_mul]
      have hmod : m % 2 ^ (k + 1) = m % 2 ^ k + 2 ^ k * (m / 2 ^ k % 2) := by
        rw [Nat.pow_succ, Nat.mod_mul]
      have hrest := Nat.mod_lt m (Nat.two_pow_pos k)
      rw [Nat.repeat, ih, ExtendedMantissa.shiftRightOne, hdiv, hmod, Nat.pow_succ]
      rcases Nat.mod_two_eq_zero_or_one (m / 2 ^ k) with hbit | hbit
      · simp only [hbit, ExtendedMantissa.mk.injEq, true_and, ← Bool.decide_or]
        refine ⟨(decide_eq_false ?_).symm, decide_eq_decide.mpr ?_⟩ <;> omega
      · simp only [hbit, ExtendedMantissa.mk.injEq, true_and, ← Bool.decide_or]
        refine ⟨(decide_eq_true ?_).symm, decide_eq_decide.mpr ?_⟩ <;> omega

/-- So an exact mantissa is rounded to the nearest integer. -/
theorem roundedMantissa_shiftRight (m k : Nat) :
    (ExtendedMantissa.ofMantissaAndAccuracy m .exact >>> k).roundedMantissa =
      roundHalfEven m (2 ^ k) := by
  have hpos := Nat.two_pow_pos k
  rw [shiftRight_eq, roundHalfEven]
  rcases Nat.lt_trichotomy (2 * (m % 2 ^ k)) (2 ^ k) with hrest | hrest | hrest
  · rw [decide_eq_false (by omega), if_pos hrest]
    cases decide (m % 2 ^ k ≠ 0 ∧ 2 * (m % 2 ^ k) ≠ 2 ^ k) <;> rfl
  · rw [decide_eq_true (by omega), decide_eq_false (by omega), if_neg (by omega), if_neg (by omega)]
    rfl
  · rw [decide_eq_true (by omega), decide_eq_true (by omega), if_neg (by omega), if_pos hrest]
    rfl

/-- The grid that rounding chooses is the one around the value. -/
theorem targetExponent_eq {m : Nat} (hm : 0 < m) (e : Int) :
    Format.binary64.targetExponent (totalExponent m e) = grid (m * 2 ^ e) := by
  have hlow : (2 : ℚ) ^ ((m.log2 : Int) + e) ≤ m * 2 ^ e := by
    rw [zpow_add₀ two_ne_zero, zpow_natCast]
    refine mul_le_mul_of_nonneg_right ?_ (two_zpow_pos e).le
    exact_mod_cast Nat.log2_self_le hm.ne'
  have hhigh : (m : ℚ) * 2 ^ e < 2 ^ ((m.log2 : Int) + e + 1) := by
    rw [add_right_comm, zpow_add₀ two_ne_zero]
    refine mul_lt_mul_of_pos_right ?_ (two_zpow_pos e)
    exact_mod_cast Nat.lt_log2_self
  have htarget : Format.binary64.targetExponent (totalExponent m e) =
    max (m.log2 + 1 + e - 53) (-1074) := rfl
  rw [htarget, grid, log_eq hlow hhigh]
  congr 1
  omega

/-- A rounded mantissa with its exponent.  One that was rounded up to a power of two may have to be
shifted once more. -/
def settle (s : Sign) (n : Nat) (q : Int) : UnpackedFloat :=
  let shifted := shiftToTargetExponent .binary64 n q .exact
  if h : shifted.1.mantissa = 0 then .zero s
  else .finite s shifted.1.mantissa shifted.2 (Nat.pos_of_ne_zero h)

/-- What is on the grid up to zeros behind it settles there. -/
theorem settle_exact {m : Nat} {e : Int} (hm : 0 < m) (h : OnGrid m e) (s : Sign) (k : Nat) :
    settle s (m * 2 ^ k) (e - k) = .finite s m e hm := by
  simp only [settle, shiftToTargetExponent_exact hm h k]
  exact dif_neg hm.ne'

/-- The bits of a rounded mantissa do not depend on whether it is shifted once more. -/
theorem ofModel_pack_settle (s : Sign) {n : Nat} {q : Int} (hn : n ≤ 2 ^ 53) (hq : -1074 ≤ q)
    (hfull : 2 ^ 52 ≤ n ∨ q = -1074) : Float.ofModel (.pack (settle s n q)) =
      ofMagnitude (s == .negative) (min ((q + 1074).toNat * 2 ^ 52 + n) infinityBits) := by
  rcases Nat.eq_zero_or_pos n with rfl | hpos
  · obtain rfl : q = -1074 := by omega
    exact ofModel_pack_zero s
  rcases hn.eq_or_lt with rfl | hlt
  · have hgrid : OnGrid (2 ^ 52) (q + 1) :=
      (onGrid_iff (Nat.two_pow_pos 52)).mpr ⟨by decide, by omega, .inl le_rfl⟩
    have hsettle := settle_exact (Nat.two_pow_pos 52) hgrid s 1
    rw [Nat.cast_one, add_sub_cancel_right, ← Nat.pow_add] at hsettle
    have hbits : (q + 1 + 1074).toNat * 2 ^ 52 + 2 ^ 52 = (q + 1074).toNat * 2 ^ 52 + 2 ^ 53 := by
      omega
    rw [hsettle, ofModel_pack_finite (Nat.two_pow_pos 52) hgrid, hbits]
  · have hgrid : OnGrid n q := (onGrid_iff hpos).mpr ⟨hlt, hq, hfull⟩
    have hsettle := settle_exact hpos hgrid s 0
    rw [Nat.pow_zero, Nat.mul_one, Nat.cast_zero, sub_zero] at hsettle
    rw [hsettle, ofModel_pack_finite hpos hgrid]

/-- A mantissa with bits enough is rounded to the nearest double. -/
theorem ofModel_pack_roundWithAccuracy (s : Sign) {m : Nat} {e : Int} {r : ℚ} (hm : 0 < m)
    (hr : m * 2 ^ e = r) (he : e ≤ grid r) :
    Float.ofModel (.pack (roundWithAccuracy .binary64 s m e .exact)) =
      ofMagnitude (s == .negative) (nearest r) := by
  have hpos : 0 < r := hr ▸ mul_pos (by exact_mod_cast hm) (two_zpow_pos e)
  obtain ⟨k, hk⟩ := Int.le.dest he
  have hshift : shiftToTargetExponent .binary64 m e .exact =
      (ExtendedMantissa.ofMantissaAndAccuracy m .exact >>> k, grid r) := by
    have hamount : (grid r - e).toNat = k := by omega
    rw [shiftToTargetExponent, targetExponent_eq hm, hr, shiftToExponent, hamount, hk]
  have hround : roundHalfEven m (2 ^ k) = halfEven (r / 2 ^ grid r) := by
    rw [roundHalfEven_eq m (Nat.two_pow_pos k), ← hk, zpow_add₀ two_ne_zero, zpow_natCast, ← hr,
      mul_comm (m : ℚ), mul_div_mul_left _ _ (two_zpow_pos e).ne', Nat.cast_pow, Nat.cast_ofNat]
  have hn : halfEven (r / 2 ^ grid r) ≤ 2 ^ 53 :=
    halfEven_le (div_nonneg hpos.le (two_zpow_pos _).le) (scaled_lt hpos)
  have hq : -1074 ≤ grid r := le_max_right _ _
  have hfull : 2 ^ 52 ≤ halfEven (r / 2 ^ grid r) ∨ grid r = -1074 := by
    rcases hq.eq_or_lt with hq | hq
    · exact .inr hq.symm
    · exact .inl (le_halfEven (le_scaled_of_grid hpos hq))
  have hsettle : roundWithAccuracy .binary64 s m e .exact =
      settle s (halfEven (r / 2 ^ grid r)) (grid r) := by
    simp only [roundWithAccuracy, hshift, roundedMantissa_shiftRight, hround]
    rfl
  rw [hsettle, ofModel_pack_settle s hn hq hfull, nearest, if_neg hpos.ne']

/-- What the operations on doubles round to is the nearest double. -/
theorem ofModel_pack_round (s : Sign) {m : Nat} (hm : 0 < m) (e : Int) :
    Float.ofModel (.pack (UnpackedFloat.round .binary64 s m e)) =
      ofMagnitude (s == .negative) (nearest (m * 2 ^ e)) := by
  let k := (e - grid (m * 2 ^ e)).toNat
  have hround : UnpackedFloat.round .binary64 s m e =
      roundWithAccuracy .binary64 s (m * 2 ^ k) (e - k) .exact := by
    simp only [UnpackedFloat.round, targetExponent_eq hm, decreaseExponent, Nat.shiftLeft_eq]
    rfl
  rw [hround]
  refine ofModel_pack_roundWithAccuracy s (Nat.mul_pos hm (Nat.two_pow_pos k)) ?_ (by omega)
  rw [Nat.cast_mul, Nat.cast_pow, Nat.cast_ofNat, mul_assoc, ← zpow_natCast,
    ← zpow_add₀ two_ne_zero, add_sub_cancel]

end GraphCalc.Number
