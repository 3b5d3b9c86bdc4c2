import GraphCalc.Number.Decimal
import GraphCalc.Proofs.Number.Nearest

/-!
# GraphCalc.Proofs.Number.Decimal

Decimals and the doubles they read as.

* `Decimal.nearestBits_eq` — a decimal reads as the double nearest to its value, however large or
  small its exponent is;
* `Binary.toDecimal_value` — a double is equal to the decimal it is turned into;
* `Decimal.nearest_shortest` — a decimal with fewer digits still reads as the same double.
-/

namespace GraphCalc.Number

namespace Decimal

/-- The value of a decimal. -/
def value (d : Decimal) : ℚ := d.digits * 10 ^ d.exponent

theorem ten_zpow_pos (e : Int) : (0 : ℚ) < 10 ^ e := zpow_pos (by norm_num) e

/-! ## reading -/

/-- The number of digits bounds a number from both sides. -/
theorem digitCount_bounds {n : Nat} (h : 0 < n) :
    (10 : ℚ) ^ ((digitCount n : Int) - 1) ≤ n ∧ (n : ℚ) < 10 ^ (digitCount n : Int) := by
  have hpos : 0 < digitCount n := Nat.length_toDigits_pos
  constructor
  · have hle : 10 ^ (digitCount n - 1) ≤ n := by
      rcases Nat.eq_zero_or_pos (digitCount n - 1) with hone | hmore
      · rw [hone]
        exact h
      · have hiff := Nat.length_toDigits_le_iff (b := 10) (n := n) (by decide) hmore
        have hmany := Nat.not_le.mpr (Nat.sub_one_lt_of_lt hpos)
        exact Nat.not_lt.mp fun hlt => absurd (hiff.mpr hlt) hmany
    rw [← Nat.cast_one, ← Nat.cast_sub hpos, zpow_natCast]
    exact_mod_cast hle
  · rw [zpow_natCast]
    exact_mod_cast (Nat.length_toDigits_le_iff (by decide) hpos).mp (Nat.le_refl (digitCount n))

/-- A decimal lies below the power of ten that its digits reach up to, and not below the one
before. -/
theorem value_bounds {d : Decimal} (h : 0 < d.digits) :
    (10 : ℚ) ^ ((digitCount d.digits : Int) + d.exponent - 1) ≤ d.value ∧
      d.value < 10 ^ ((digitCount d.digits : Int) + d.exponent) := by
  obtain ⟨hlow, hhigh⟩ := digitCount_bounds h
  have hexponent := ten_zpow_pos d.exponent
  constructor
  · rw [add_sub_right_comm, zpow_add₀ (by norm_num)]
    exact mul_le_mul_of_nonneg_right hlow hexponent.le
  · rw [zpow_add₀ (by norm_num)]
    exact mul_lt_mul_of_pos_right hhigh hexponent

/-- A decimal is a fraction of two natural numbers. -/
theorem value_eq_div (d : Decimal) :
    d.value = ((d.digits * 10 ^ d.exponent.toNat : Nat) : ℚ) /
      ((10 ^ (-d.exponent).toNat : Nat) : ℚ) := by
  push_cast
  rw [value, zpow_eq_div (by norm_num), mul_div_assoc]

/-- A decimal reads as the double nearest to its value. -/
theorem nearestBits_eq (d : Decimal) : d.nearestBits = nearest d.value := by
  simp only [nearestBits, Nat.pow_eq]
  by_cases hzero : d.digits = 0
  · simp [value, nearest, hzero]
  have hpos := Nat.pos_of_ne_zero hzero
  obtain ⟨hlow, hhigh⟩ := value_bounds hpos
  rw [if_neg hzero]
  split_ifs with htop hbottom
  · have hpower : (2 : ℚ) ^ (1024 : Int) ≤ 10 ^ (309 : Int) := by
      have hnat : 2 ^ 1024 ≤ 10 ^ 309 := by decide +kernel
      exact_mod_cast hnat
    refine (nearest_of_overflow ?_).symm
    calc (2 : ℚ) ^ (1024 : Int) ≤ 10 ^ (309 : Int) := hpower
      _ ≤ 10 ^ ((digitCount d.digits : Int) + d.exponent - 1) :=
        zpow_le_zpow_right₀ (by norm_num) (by omega)
      _ ≤ d.value := hlow
  · have hpower : (10 : ℚ) ^ (-324 : Int) < 2 ^ (-1075 : Int) := by
      have hnat : 2 ^ 1075 < 10 ^ 324 := by decide +kernel
      rw [zpow_neg, zpow_neg]
      refine inv_strictAnti₀ (by positivity) ?_
      exact_mod_cast hnat
    have hvalue : 0 < d.value := lt_of_lt_of_le (ten_zpow_pos _) hlow
    refine (nearest_of_underflow hvalue ?_).symm
    calc d.value < 10 ^ ((digitCount d.digits : Int) + d.exponent) := hhigh
      _ ≤ 10 ^ (-324 : Int) := zpow_le_zpow_right₀ (by norm_num) hbottom
      _ < 2 ^ (-1075 : Int) := hpower
  · rw [Number.nearestBits_eq _ (Nat.pow_pos (by decide)), value_eq_div]

/-! ## fewer digits -/

/-- A number ends in as many zeros as its digits do. -/
theorem pow_zeros_dvd (n : Nat) :
    10 ^ ((Nat.toDigits 10 n).reverse.takeWhile (· == '0')).length ∣ n := by
  have hall : (Nat.toDigits 10 n).reverse.takeWhile (· == '0') =
      List.replicate ((Nat.toDigits 10 n).reverse.takeWhile (· == '0')).length '0' := by
    refine List.eq_replicate_of_mem fun c hc => ?_
    simpa using List.mem_takeWhile_imp hc
  have hsplit : Nat.toDigits 10 n =
      ((Nat.toDigits 10 n).reverse.dropWhile (· == '0')).reverse ++
        List.replicate ((Nat.toDigits 10 n).reverse.takeWhile (· == '0')).length '0' := by
    conv =>
      lhs
      rw [← (Nat.toDigits 10 n).reverse_reverse,
        ← List.takeWhile_append_dropWhile (p := (· == '0')) (l := (Nat.toDigits 10 n).reverse),
        hall, List.reverse_append, List.reverse_replicate]
  have hvalue := Nat.ofDigitChars_ten_toDigits (n := n)
  rw [hsplit, Nat.ofDigitChars_append, Nat.ofDigitChars_replicate_zero] at hvalue
  exact ⟨_, hvalue.symm⟩

/-- Zeros at the end do not change the value. -/
theorem trim_value (d : Decimal) : d.trim.value = d.value := by
  simp only [trim, Nat.pow_eq]
  split_ifs with hzero
  · simp [value, hzero]
  · have hdvd := pow_zeros_dvd d.digits
    have hten : (10 : ℚ) ≠ 0 := by norm_num
    simp only [value]
    rw [Nat.cast_div hdvd (by positivity), zpow_add₀ hten, zpow_natCast, Nat.cast_pow]
    push_cast
    field_simp

/-- A decimal with fewer digits is taken only if it reads as the same double. -/
theorem nearest_shortest {bits : Nat} {d : Decimal} (h : nearest d.value = bits) :
    nearest (d.shortest bits).value = bits := by
  simp only [shortest, trim_value]
  cases hfound : (List.range' 1 17).findSome? fun kept =>
      if kept < digitCount d.digits then
        (d.neighbours (digitCount d.digits - kept)).find? fun c => c.nearestBits == bits
      else none with
  | none => exact h
  | some c =>
      obtain ⟨kept, -, hkept⟩ := List.exists_of_findSome?_eq_some hfound
      split_ifs at hkept
      have hc := List.find?_some hkept
      rw [beq_iff_eq, nearestBits_eq] at hc
      exact hc

end Decimal

/-! ## doubles as decimals -/

/-- A double is equal to the decimal it is turned into. -/
theorem Binary.toDecimal_value (b : Binary) : b.toDecimal.value = b.magnitude := by
  simp only [toDecimal, Nat.pow_eq]
  split_ifs with h
  · have hexponent : (2 : ℚ) ^ b.exponent = 2 ^ b.exponent.toNat := by
      rw [← zpow_natCast, Int.toNat_of_nonneg h]
    simp [Decimal.value, magnitude, Nat.shiftLeft_eq, hexponent]
  · have hten : (10 : ℚ) ^ b.exponent = 2 ^ b.exponent * 5 ^ b.exponent := by
      rw [← mul_zpow]
      norm_num
    have hfive : ((5 ^ (-b.exponent).toNat : Nat) : ℚ) * 5 ^ b.exponent = 1 := by
      rw [Nat.cast_pow, Nat.cast_ofNat, ← zpow_natCast, ← zpow_add₀ (by norm_num),
        Int.toNat_of_nonneg (by omega), neg_add_cancel, zpow_zero]
    simp only [Decimal.value, magnitude, hten, Nat.cast_mul]
    rw [mul_assoc, mul_left_comm _ (2 ^ b.exponent), hfive, mul_one]

/-- The decimal with the fewest digits reads as the double it was made for. -/
theorem Binary.nearest_shortest {b : Binary} (h : b.Canonical) :
    nearest (b.toDecimal.shortest b.bits).value = b.bits := by
  refine Decimal.nearest_shortest ?_
  rw [toDecimal_value]
  exact h.nearest_magnitude

end GraphCalc.Number
