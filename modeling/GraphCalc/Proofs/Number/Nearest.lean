import GraphCalc.Proofs.Number.Bits

/-!
# GraphCalc.Proofs.Number.Nearest

The double nearest to a number.

Which double a fraction is rounded to depends on its value only, so rounding is stated here as a
function of a rational number:

* `nearestBits_eq` — a fraction reads as the double nearest to its value;
* `nearest_of_overflow`, `nearest_of_underflow` — where the doubles end;
* `Binary.ofFloat?_eq_some_iff` — the mantissas and exponents of doubles;
* `Binary.Canonical.nearest_magnitude` — every double is the one nearest to its own value.
-/

namespace GraphCalc.Number

/-! ## the nearest integer -/

/-- A number rounded to the nearest natural number, a half to the even neighbour. -/
def halfEven (r : ℚ) : Nat :=
  if r - ⌊r⌋₊ < 1 / 2 then ⌊r⌋₊
  else if 1 / 2 < r - ⌊r⌋₊ then ⌊r⌋₊ + 1
  else ⌊r⌋₊ + ⌊r⌋₊ % 2

/-- A fraction is rounded by its value. -/
theorem roundHalfEven_eq (num : Nat) {den : Nat} (hden : 0 < den) :
    roundHalfEven num den = halfEven ((num : ℚ) / den) := by
  have hden' : (0 : ℚ) < den := by exact_mod_cast hden
  have hfloor : ⌊(num : ℚ) / den⌋₊ = num / den := Nat.floor_div_eq_div num den
  have hrest : (num : ℚ) / den - ((num / den : Nat) : ℚ) = ((num % den : Nat) : ℚ) / den := by
    rw [sub_eq_iff_eq_add, div_add' _ _ _ hden'.ne', div_left_inj' hden'.ne']
    exact_mod_cast (Nat.mod_add_div' num den).symm
  have hlow : ((num % den : Nat) : ℚ) / den < 1 / 2 ↔ 2 * (num % den) < den := by
    rw [div_lt_div_iff₀ hden' two_pos, one_mul, mul_comm]
    exact_mod_cast Iff.rfl
  have hhigh : 1 / 2 < ((num % den : Nat) : ℚ) / den ↔ den < 2 * (num % den) := by
    rw [div_lt_div_iff₀ two_pos hden', one_mul, mul_comm]
    exact_mod_cast Iff.rfl
  simp only [roundHalfEven, halfEven, hfloor, hrest, hlow, hhigh]

theorem halfEven_natCast (n : Nat) : halfEven n = n := by
  simp [halfEven]

/-- Rounding does not pass an integer below. -/
theorem le_halfEven {n : Nat} {r : ℚ} (h : (n : ℚ) ≤ r) : n ≤ halfEven r := by
  have hfloor : n ≤ ⌊r⌋₊ := Nat.le_floor h
  unfold halfEven
  split_ifs <;> omega

/-- Rounding does not pass an integer above. -/
theorem halfEven_le {n : Nat} {r : ℚ} (hr : 0 ≤ r) (h : r < n) : halfEven r ≤ n := by
  have hfloor : ⌊r⌋₊ < n := (Nat.floor_lt hr).mpr h
  unfold halfEven
  split_ifs <;> omega

/-- Less than a half is rounded to zero. -/
theorem halfEven_eq_zero {r : ℚ} (h : r < 1 / 2) : halfEven r = 0 := by
  have hfloor : ⌊r⌋₊ = 0 := Nat.floor_eq_zero.mpr (by linarith)
  rw [halfEven, hfloor, if_pos (by simpa using h)]

/-! ## the grid -/

/-- The exponent of the grid of doubles around a number. -/
def grid (r : ℚ) : Int := max (Int.log 2 r - 52) (-1074)

theorem two_zpow_pos (q : Int) : (0 : ℚ) < 2 ^ q := zpow_pos two_pos q

/-- A power with an integer exponent is a fraction of two with natural exponents. -/
theorem zpow_eq_div {b : ℚ} (hb : b ≠ 0) (e : Int) : b ^ e = b ^ e.toNat / b ^ (-e).toNat := by
  rw [← zpow_natCast_sub_natCast₀ hb, Int.toNat_sub_toNat_neg]

/-- Scaling a fraction down divides its value. -/
theorem scaleDown_eq (num den : Nat) (q : Int) :
    ((scaleDown num den q).1 : ℚ) / (scaleDown num den q).2 = (num : ℚ) / den / 2 ^ q := by
  simp only [scaleDown, Nat.shiftLeft_eq, zpow_eq_div two_ne_zero q]
  push_cast
  field_simp

theorem scaleDown_pos (num : Nat) {den : Nat} (hden : 0 < den) (q : Int) :
    0 < (scaleDown num den q).2 := by
  simp only [scaleDown, Nat.shiftLeft_eq]
  positivity

/-- The logarithm of a number between two powers of two. -/
theorem log_eq {r : ℚ} {n : Int} (hle : (2 : ℚ) ^ n ≤ r) (hlt : r < 2 ^ (n + 1)) :
    Int.log 2 r = n := by
  have hr : 0 < r := lt_of_lt_of_le (two_zpow_pos n) hle
  have hn := (Int.zpow_le_iff_le_log (b := 2) one_lt_two hr).mp (by exact_mod_cast hle)
  have hn' := (Int.lt_zpow_iff_log_lt (b := 2) one_lt_two hr).mp (by exact_mod_cast hlt)
  omega

/-- A fraction lies around the power of two that the logarithms of its parts give. -/
theorem fraction_bounds {num den : Nat} (hnum : 0 < num) (hden : 0 < den) :
    (2 : ℚ) ^ ((num.log2 : Int) - den.log2 - 1) ≤ (num : ℚ) / den ∧
      (num : ℚ) / den < 2 ^ ((num.log2 : Int) - den.log2 + 1) := by
  have hnumLow : ((2 ^ num.log2 : Nat) : ℚ) ≤ num := by
    exact_mod_cast Nat.log2_self_le (Nat.ne_of_gt hnum)
  have hnumHigh : (num : ℚ) < ((2 ^ (num.log2 + 1) : Nat) : ℚ) := by
    exact_mod_cast Nat.lt_log2_self
  have hdenLow : ((2 ^ den.log2 : Nat) : ℚ) ≤ den := by
    exact_mod_cast Nat.log2_self_le (Nat.ne_of_gt hden)
  have hdenHigh : (den : ℚ) < ((2 ^ (den.log2 + 1) : Nat) : ℚ) := by
    exact_mod_cast Nat.lt_log2_self
  push_cast at hnumLow hnumHigh hdenLow hdenHigh
  have hden' : (0 : ℚ) < den := by exact_mod_cast hden
  have hlow : (2 : ℚ) ^ ((num.log2 : Int) - den.log2 - 1) = 2 ^ num.log2 / 2 ^ (den.log2 + 1) := by
    rw [← zpow_natCast_sub_natCast₀ two_ne_zero, Nat.cast_succ, sub_sub]
  have hhigh : (2 : ℚ) ^ ((num.log2 : Int) - den.log2 + 1) = 2 ^ (num.log2 + 1) / 2 ^ den.log2 := by
    rw [← zpow_natCast_sub_natCast₀ two_ne_zero, Nat.cast_succ, sub_add_eq_add_sub]
  rw [hlow, hhigh]
  constructor
  · exact div_le_div₀ (by positivity) hnumLow hden' (le_of_lt hdenHigh)
  · exact div_lt_div₀ hnumHigh hdenLow (by positivity) (by positivity)

/-- The grid of a fraction is that of its value. -/
theorem gridExponent_eq {num den : Nat} (hnum : 0 < num) (hden : 0 < den) :
    gridExponent num den = grid ((num : ℚ) / den) := by
  obtain ⟨hlow, hhigh⟩ := fraction_bounds hnum hden
  have hpos := scaleDown_pos num hden ((num.log2 : Int) - den.log2 - 53)
  have hvalue := scaleDown_eq num den ((num.log2 : Int) - den.log2 - 53)
  have hpos' : (0 : ℚ) < (scaleDown num den ((num.log2 : Int) - den.log2 - 53)).2 := by
    exact_mod_cast hpos
  have hshort : (scaleDown num den ((num.log2 : Int) - den.log2 - 53)).1 /
      (scaleDown num den ((num.log2 : Int) - den.log2 - 53)).2 < 1 <<< 53 ↔
        (num : ℚ) / den < 2 ^ ((num.log2 : Int) - den.log2) := by
    rw [Nat.div_lt_iff_lt_mul hpos, ← Nat.cast_lt (α := ℚ), Nat.cast_mul, ← div_lt_iff₀ hpos',
      hvalue, div_lt_iff₀ (two_zpow_pos _)]
    have hsplit : (2 : ℚ) ^ ((num.log2 : Int) - den.log2) =
        ((1 <<< 53 : Nat) : ℚ) * 2 ^ ((num.log2 : Int) - den.log2 - 53) := by
      rw [Nat.one_shiftLeft, Nat.cast_pow, Nat.cast_ofNat, ← zpow_natCast,
        ← zpow_add₀ two_ne_zero]
      congr 1
      omega
    rw [hsplit]
  simp only [gridExponent, grid]
  congr 1
  by_cases h : (num : ℚ) / den < 2 ^ ((num.log2 : Int) - den.log2)
  · rw [if_pos (hshort.mpr h), log_eq hlow (by rwa [sub_add_cancel])]
    omega
  · rw [if_neg (fun hs => h (hshort.mp hs)), log_eq (not_lt.mp h) hhigh]
    omega

/-! ## the nearest double -/

/-- The magnitude bits of the double nearest to a number that is not negative. -/
def nearest (r : ℚ) : Nat :=
  if r = 0 then 0
  else min ((grid r + 1074).toNat * 2 ^ 52 + halfEven (r / 2 ^ grid r)) infinityBits

/-- A fraction reads as the double nearest to its value. -/
theorem nearestBits_eq (num : Nat) {den : Nat} (hden : 0 < den) :
    nearestBits num den = nearest ((num : ℚ) / den) := by
  by_cases hzero : num = 0
  · simp [nearestBits, nearest, hzero]
  · have hnum := Nat.pos_of_ne_zero hzero
    have hne : (num : ℚ) / den ≠ 0 := by positivity
    have hpos := scaleDown_pos num hden (grid ((num : ℚ) / den))
    have hround := roundHalfEven_eq (scaleDown num den (grid ((num : ℚ) / den))).1 hpos
    rw [scaleDown_eq] at hround
    simp only [nearestBits, nearest, if_neg hzero, if_neg hne, gridExponent_eq hnum hden, hround,
      Nat.shiftLeft_eq]

/-- From a power of two on that is not below the grid of the subnormal doubles, there are at least
fifty-three bits. -/
theorem le_scaled {r : ℚ} {n : Int} (hn : -1022 ≤ n) (h : (2 : ℚ) ^ n ≤ r) :
    n - 52 ≤ grid r ∧ ((2 ^ 52 : Nat) : ℚ) ≤ r / 2 ^ grid r := by
  have hr : 0 < r := lt_of_lt_of_le (two_zpow_pos n) h
  have hlog := (Int.zpow_le_iff_le_log (b := 2) one_lt_two hr).mp (by exact_mod_cast h)
  have hgrid : grid r = Int.log 2 r - 52 := max_eq_left (by omega)
  refine ⟨by omega, ?_⟩
  have hself : (2 : ℚ) ^ Int.log 2 r ≤ r := by
    exact_mod_cast Int.zpow_log_le_self (b := 2) one_lt_two hr
  rw [le_div_iff₀ (two_zpow_pos _), Nat.cast_pow, Nat.cast_ofNat, ← zpow_natCast,
    ← zpow_add₀ two_ne_zero, hgrid]
  rwa [Nat.cast_ofNat, add_sub_cancel]

/-- From `2 ^ 1024` on, everything is an infinity. -/
theorem nearest_of_overflow {r : ℚ} (h : (2 : ℚ) ^ (1024 : Int) ≤ r) :
    nearest r = infinityBits := by
  have hr : 0 < r := lt_of_lt_of_le (two_zpow_pos _) h
  obtain ⟨hgrid, hscaled⟩ := le_scaled (by omega) h
  have hround := le_halfEven hscaled
  have hinfinity := infinityBits_eq
  rw [nearest, if_neg hr.ne']
  refine min_eq_right ?_
  rw [hinfinity]
  omega

/-- Below half of the smallest double, everything is zero. -/
theorem nearest_of_underflow {r : ℚ} (hr : 0 < r) (h : r < (2 : ℚ) ^ (-1075 : Int)) :
    nearest r = 0 := by
  have hlog := (Int.lt_zpow_iff_log_lt (b := 2) one_lt_two hr).mp (by exact_mod_cast h)
  have hgrid : grid r = -1074 := max_eq_right (by omega)
  have hsmall : r / 2 ^ grid r < 1 / 2 := by
    have hhalf : (2 : ℚ) ^ (-1075 : Int) = 1 / 2 * 2 ^ (-1074 : Int) := by
      rw [show (-1075 : Int) = -1 + -1074 by rfl, zpow_add₀ two_ne_zero, zpow_neg_one, one_div]
    rw [hgrid, div_lt_iff₀ (two_zpow_pos _), ← hhalf]
    exact h
  rw [nearest, if_neg hr.ne', halfEven_eq_zero hsmall, hgrid]
  rfl

/-! ## the mantissas of doubles -/

namespace Binary

/-- The mantissa and the exponent of a double: fifty-three bits, or fewer on the finest grid. -/
structure Canonical (b : Binary) : Prop where
  lt : b.mantissa < 2 ^ 53
  low : -1074 ≤ b.exponent
  high : b.exponent ≤ 971
  full : 2 ^ 52 ≤ b.mantissa ∨ b.exponent = -1074

/-- The magnitude bits of a double by its mantissa and exponent. -/
def bits (b : Binary) : Nat := (b.exponent + 1074).toNat * 2 ^ 52 + b.mantissa

/-- The value of a double without its sign. -/
def magnitude (b : Binary) : ℚ := b.mantissa * 2 ^ b.exponent

theorem Canonical.bits_lt {b : Binary} (h : b.Canonical) : b.bits < infinityBits := by
  have hinfinity := infinityBits_eq
  have hlt := h.lt
  have hhigh := h.high
  rw [hinfinity, bits]
  omega

/-- A mantissa and an exponent are found in the bits again. -/
theorem Canonical.ofFloat?_eq {b : Binary} (h : b.Canonical) :
    ofFloat? (ofMagnitude b.negative b.bits) = some b := by
  have hbits := h.bits_lt
  have hlt := h.lt
  have hlow := h.low
  have hinfinity := infinityBits_eq
  obtain ⟨negative, mantissa, exponent⟩ := b
  simp only [ofFloat?, magnitudeBits_ofMagnitude hbits.le, isNegative_ofMagnitude hbits.le,
    Nat.shiftRight_eq_div_pow, if_neg (Nat.not_le.mpr hbits), Nat.one_shiftLeft]
  by_cases hfield : bits ⟨negative, mantissa, exponent⟩ / 2 ^ 52 = 0
  · have hexponent : exponent = -1074 := by
      rcases h.full with hfull | hfull
      · simp only [bits] at hfield hfull
        omega
      · exact hfull
    rw [if_pos hfield]
    simp [bits, hexponent]
  · rw [if_neg hfield]
    have hfull : 2 ^ 52 ≤ mantissa := by
      rcases h.full with hfull | hfull
      · exact hfull
      · simp only [bits] at hfield hfull
        omega
    simp only [bits] at hlt hlow ⊢
    congr 2
    · omega
    · omega

/-- The mantissa and the exponent of a finite double are canonical, and give its bits. -/
theorem canonical_of_ofFloat? {v : Float} {b : Binary} (h : ofFloat? v = some b) :
    b.Canonical ∧ b.negative = isNegative v ∧ b.bits = magnitudeBits v := by
  have hinfinity := infinityBits_eq
  simp only [ofFloat?, Nat.shiftRight_eq_div_pow, Nat.one_shiftLeft] at h
  split_ifs at h with hfinite hfield
  · obtain rfl := Option.some.inj h
    refine ⟨⟨?_, ?_, ?_, .inr rfl⟩, rfl, ?_⟩
    all_goals
      simp only [bits]
      omega
  · obtain rfl := Option.some.inj h
    refine ⟨⟨?_, ?_, ?_, .inl ?_⟩, rfl, ?_⟩
    all_goals
      simp only [bits]
      omega

/-- The doubles with a mantissa and an exponent. -/
theorem ofFloat?_eq_some_iff {v : Float} {b : Binary} :
    ofFloat? v = some b ↔ b.Canonical ∧ v = ofMagnitude b.negative b.bits := by
  constructor
  · intro h
    obtain ⟨hcanonical, hnegative, hbits⟩ := canonical_of_ofFloat? h
    rw [hnegative, hbits, ofMagnitude_eq]
    exact ⟨hcanonical, rfl⟩
  · rintro ⟨hcanonical, rfl⟩
    exact hcanonical.ofFloat?_eq

/-- Exactly the finite doubles have a mantissa and an exponent. -/
theorem ofFloat?_eq_none_iff {v : Float} : ofFloat? v = none ↔ v.isFinite = false := by
  rw [← Bool.not_eq_true, isFinite_iff, Nat.not_lt]
  simp only [ofFloat?]
  split_ifs with h <;> simp [h]

/-- The grid around the value of a double is its exponent. -/
theorem Canonical.grid_magnitude {b : Binary} (h : b.Canonical) (hpos : 0 < b.mantissa) :
    grid b.magnitude = b.exponent := by
  have hpos' : (0 : ℚ) < b.mantissa := by exact_mod_cast hpos
  have hr : 0 < b.magnitude := mul_pos hpos' (two_zpow_pos _)
  have hlow := h.low
  have hhigh : Int.log 2 b.magnitude < b.exponent + 53 := by
    refine (Int.lt_zpow_iff_log_lt (b := 2) one_lt_two hr).mp ?_
    rw [Nat.cast_ofNat, add_comm, zpow_add₀ two_ne_zero]
    refine mul_lt_mul_of_pos_right ?_ (two_zpow_pos _)
    exact_mod_cast h.lt
  rcases h.full with hfull | hfull
  · have hle : b.exponent + 52 ≤ Int.log 2 b.magnitude := by
      refine (Int.zpow_le_iff_le_log (b := 2) one_lt_two hr).mp ?_
      rw [Nat.cast_ofNat, add_comm, zpow_add₀ two_ne_zero]
      refine mul_le_mul_of_nonneg_right ?_ (two_zpow_pos _).le
      exact_mod_cast hfull
    rw [grid]
    omega
  · rw [grid]
    omega

/-- Every double is the one nearest to its own value. -/
theorem Canonical.nearest_magnitude {b : Binary} (h : b.Canonical) :
    nearest b.magnitude = b.bits := by
  by_cases hzero : b.mantissa = 0
  · have hexponent : b.exponent = -1074 := by
      rcases h.full with hfull | hfull
      · omega
      · exact hfull
    simp [nearest, magnitude, bits, hzero, hexponent]
  · have hpos := Nat.pos_of_ne_zero hzero
    have hpos' : (0 : ℚ) < b.mantissa := by exact_mod_cast hpos
    have hr : 0 < b.magnitude := mul_pos hpos' (two_zpow_pos _)
    have hscaled : b.magnitude / 2 ^ b.exponent = b.mantissa :=
      mul_div_cancel_right₀ _ (two_zpow_pos _).ne'
    rw [nearest, if_neg hr.ne', h.grid_magnitude hpos, hscaled, halfEven_natCast]
    exact min_eq_left h.bits_lt.le

end Binary

end GraphCalc.Number
