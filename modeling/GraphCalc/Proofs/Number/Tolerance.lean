import GraphCalc.Proofs.Expr.Readable
import GraphCalc.Proofs.Number.Sum

/-!
# GraphCalc.Proofs.Number.Tolerance

Written tidily, a number is moved to the integer next to it, if there is one within the tolerance.

* `Binary.value_eq` — the mantissa and the exponent of a double give its value;
* `Binary.nearInteger?_eq_some_iff` — an integer is written where the value is below `2 ^ 63` and
  lies within the tolerance of it;
* `exists_settles` — what is written is read again, as that integer or as the double itself, so that
  the value is moved by less than the tolerance and only once.
-/

namespace GraphCalc.Number

/-! ## natural numbers -/

theorem one_shiftLeft_pos (k : Nat) : (0 : ℚ) < ((1 <<< k : Nat) : ℚ) := by
  rw [Nat.one_shiftLeft]
  positivity

/-- Of two natural numbers, one subtracted from the other leaves the distance, and the other way
round nothing. -/
theorem cast_distance (m n : Nat) : ((m - n + (n - m) : Nat) : ℚ) = |(m : ℚ) - n| := by
  rcases Nat.le_total m n with h | h
  · have hle : (m : ℚ) ≤ n := by exact_mod_cast h
    rw [Nat.sub_eq_zero_of_le h, Nat.zero_add, Nat.cast_sub h, abs_sub_comm,
      abs_of_nonneg (sub_nonneg.mpr hle)]
  · have hle : (n : ℚ) ≤ m := by exact_mod_cast h
    rw [Nat.sub_eq_zero_of_le h, Nat.add_zero, Nat.cast_sub h, abs_of_nonneg (sub_nonneg.mpr hle)]

/-- A number closer to an integer than a half is rounded to it. -/
theorem halfEven_of_near {n : Nat} {r : ℚ} (hr : 0 ≤ r) (h : |r - n| < 1 / 2) : halfEven r = n := by
  obtain ⟨hlow, hhigh⟩ := abs_lt.mp h
  have hup : halfEven r < n + 1 := halfEven_lt hr (by push_cast; linarith)
  have hdown : n ≤ halfEven r := by
    cases n with
    | zero => exact Nat.zero_le _
    | succ n =>
        push_cast at hlow
        exact lt_halfEven (by linarith)
  omega

/-! ## values -/

namespace Binary

variable {b : Binary} {v : Float} {n : Nat}

/-- The value, with its sign. -/
def signed (b : Binary) : ℚ := if b.negative then -b.magnitude else b.magnitude

theorem magnitude_nonneg (b : Binary) : 0 ≤ b.magnitude :=
  mul_nonneg b.mantissa.cast_nonneg (two_zpow_pos _).le

theorem abs_signed (b : Binary) : |b.signed| = b.magnitude := by
  rw [signed]
  split
  · rw [abs_neg, abs_of_nonneg b.magnitude_nonneg]
  · rw [abs_of_nonneg b.magnitude_nonneg]

theorem exists_ofFloat? (h : v.isFinite = true) : ∃ b, ofFloat? v = some b := by
  cases hb : ofFloat? v with
  | some b => exact ⟨b, rfl⟩
  | none =>
      rw [ofFloat?_eq_none_iff.mp hb] at h
      contradiction

theorem isFinite_of_ofFloat? (h : ofFloat? v = some b) : v.isFinite = true := by
  by_contra hnot
  rw [ofFloat?_eq_none_iff.mpr (Bool.eq_false_of_not_eq_true hnot)] at h
  contradiction

/-- The mantissa and the exponent of a double give its value. -/
theorem value_eq (h : ofFloat? v = some b) : value v = b.signed := by
  rcases finite_cases (isFinite_of_ofFloat? h) with ⟨s, hs⟩ | ⟨s, m, e, hm, hs, -⟩
  · obtain ⟨-, -, hbits⟩ := canonical_of_ofFloat? h
    rw [← ofModel_unpack v, hs, ofModel_pack_zero, magnitudeBits_ofMagnitude (Nat.zero_le _),
      bits] at hbits
    have hmantissa : b.mantissa = 0 := by omega
    rw [value_of_zero hs, signed, magnitude, hmantissa]
    simp
  · have hcanonical := canonical_of_unpack hs
    have hfound := hcanonical.ofFloat?_eq
    have hv : ofMagnitude (s == .negative) (bits ⟨s == .negative, m, e⟩) = v := by
      rw [← ofModel_unpack v, hs, ofModel_pack_finite hm (onGrid_of_unpack hs),
        min_eq_left (bits_lt_infinityBits hs).le]
      rfl
    rw [hv, h, Option.some.injEq] at hfound
    rw [value_of_finite hs, hfound, signed, magnitude]
    cases s
    · show (((-(m : Int) : Int) : ℚ) * 2 ^ e) = _
      push_cast
      simp
    · show (((m : Int) : ℚ) * 2 ^ e) = _
      simp

/-! ## near an integer -/

/-- A magnitude as a fraction whose denominator is a power of two. -/
theorem magnitude_eq_div (b : Binary) :
    b.magnitude = ((b.mantissa <<< b.exponent.toNat : Nat) : ℚ) /
      ((1 <<< (-b.exponent).toNat : Nat) : ℚ) := by
  rw [magnitude, zpow_eq_div two_ne_zero, Nat.shiftLeft_eq, Nat.one_shiftLeft]
  push_cast
  rw [mul_div_assoc]

/-- The magnitude is near an integer if it is closer to it than the tolerance. -/
theorem isNear_iff : b.isNear n = true ↔ |b.magnitude - n| < integerTolerance.magnitude := by
  have hfine := one_shiftLeft_pos (-b.exponent).toNat
  have hdistance : |b.magnitude - n| =
      (((b.mantissa <<< b.exponent.toNat - n * 1 <<< (-b.exponent).toNat) +
        (n * 1 <<< (-b.exponent).toNat - b.mantissa <<< b.exponent.toNat) : Nat) : ℚ) /
          ((1 <<< (-b.exponent).toNat : Nat) : ℚ) := by
    rw [cast_distance, magnitude_eq_div, Nat.cast_mul, ← abs_of_pos hfine, ← abs_div,
      abs_of_pos hfine, sub_div, mul_div_cancel_right₀ _ hfine.ne']
  have htolerance := integerTolerance.magnitude_eq_div
  rw [isNear, decide_eq_true_eq, hdistance, htolerance,
    div_lt_div_iff₀ hfine (one_shiftLeft_pos _), ← Nat.cast_mul, ← Nat.cast_mul, Nat.cast_lt,
    Nat.shiftLeft_eq _ (-integerTolerance.exponent).toNat, Nat.one_shiftLeft]
  rfl

/-- The magnitude is below `2 ^ 63` if its numerator is below so many denominators. -/
theorem small_iff : b.mantissa <<< b.exponent.toNat < 1 <<< (63 + (-b.exponent).toNat) ↔
    b.magnitude < 2 ^ 63 := by
  rw [magnitude_eq_div, div_lt_iff₀ (one_shiftLeft_pos _), Nat.one_shiftLeft, Nat.one_shiftLeft,
    Nat.pow_add]
  exact_mod_cast Iff.rfl

theorem integerTolerance_pos : 0 < integerTolerance.magnitude := by
  rw [magnitude, integerTolerance]
  positivity

theorem near_self (r : ℚ) : |r - r| < integerTolerance.magnitude := by
  rw [sub_self, abs_zero]
  exact integerTolerance_pos

/-- The tolerance is less than a half, by far. -/
theorem integerTolerance_lt : integerTolerance.magnitude < 1 / 2 := by
  rw [magnitude, integerTolerance]
  norm_num

/-- An integer is written where the magnitude is below `2 ^ 63` and lies within the tolerance of
it. -/
theorem nearInteger?_eq_some_iff : b.nearInteger? = some n ↔
    b.magnitude < 2 ^ 63 ∧ |b.magnitude - n| < integerTolerance.magnitude := by
  simp only [nearInteger?, Bool.and_eq_true, decide_eq_true_eq, small_iff, isNear_iff,
    Option.ite_none_right_eq_some, Option.some.injEq]
  constructor
  · rintro ⟨⟨hsmall, hnear⟩, rfl⟩
    exact ⟨hsmall, hnear⟩
  · rintro ⟨hsmall, hnear⟩
    have hround : b.roundMagnitude = n := by
      rw [roundMagnitude_eq]
      exact halfEven_of_near b.magnitude_nonneg (hnear.trans integerTolerance_lt)
    rw [hround]
    exact ⟨⟨hsmall, hnear⟩, rfl⟩

/-- A double that is written as an integer is that integer, unless it has fifty-three bits at
most. -/
theorem Canonical.exact_or_small (h : b.Canonical) (hn : b.nearInteger? = some n) :
    n < 2 ^ 53 ∨ b.magnitude = n := by
  obtain ⟨-, hnear⟩ := nearInteger?_eq_some_iff.mp hn
  have hround := halfEven_of_near b.magnitude_nonneg (hnear.trans integerTolerance_lt)
  rw [← roundMagnitude_eq] at hround
  rw [← hround]
  exact h.roundMagnitude_lt

/-- From `2 ^ 63` on, every double is an integer. -/
theorem Canonical.magnitude_eq_natCast (h : b.Canonical) (hlarge : 2 ^ 63 ≤ b.magnitude) :
    ∃ n : Nat, b.magnitude = n := by
  have hround : 2 ^ 63 ≤ b.roundMagnitude := by
    rw [roundMagnitude_eq]
    exact le_halfEven (by exact_mod_cast hlarge)
  exact ⟨_, h.roundMagnitude_lt.resolve_left (by omega)⟩

/-- The integer that a double is written as is again a double, which is written in the same way.  It
has no sign if it is zero. -/
theorem exists_integer (hb : ofFloat? v = some b) (hn : b.nearInteger? = some n) :
    ∃ c, ofFloat? (ofMagnitude (b.negative && n != 0) (nearest n)) = some c ∧
      c.negative = (b.negative && n != 0) ∧ c.magnitude = n ∧ c.nearInteger? = some n := by
  have hcanonical := (canonical_of_ofFloat? hb).1
  by_cases hsmall : n < 2 ^ 53
  · obtain ⟨c, hc, hnegative, -, -, hmagnitude⟩ :=
      canonical_natCast (b.negative && n != 0) hsmall
    have hfound := hc.ofFloat?_eq
    rw [← hc.nearest_magnitude, hnegative, hmagnitude] at hfound
    refine ⟨c, hfound, hnegative, hmagnitude, nearInteger?_eq_some_iff.mpr ?_⟩
    have hbound : n < 2 ^ 63 := hsmall.trans (by norm_num)
    rw [hmagnitude]
    exact ⟨by exact_mod_cast hbound, near_self _⟩
  · have hmagnitude := (hcanonical.exact_or_small hn).resolve_left hsmall
    have hsign : (b.negative && n != 0) = b.negative := by
      rw [bne_iff_ne.mpr (by omega), Bool.and_true]
    rw [hsign, ← hmagnitude, hcanonical.nearest_magnitude]
    exact ⟨b, hcanonical.ofFloat?_eq, rfl, rfl, hn⟩

end Binary

/-! ## what is read again -/

/-- What `v` is written as is read as `w`.  The value is moved by less than the tolerance: to the
integer that it lies within the tolerance of, or not at all.  And it is moved only once, as both are
written in the same way. -/
structure Settles (write : Float → List Char) (v w : Float) : Prop where
  reads : read? (write v) = some w
  finite : w.isFinite = true
  near : |value w - value v| < integerTolerance.magnitude
  kept : (¬∃ n : ℤ, value v ≠ n ∧ |value v - n| < integerTolerance.magnitude) → value w = value v
  integer : ∀ n : ℤ, |value v - n| < integerTolerance.magnitude → value w = n
  same : write w = write v

/-- Two integers that a number is near to are the same. -/
theorem eq_of_near {j k : ℤ} {r : ℚ} (hj : |(j : ℚ) - r| < integerTolerance.magnitude)
    (hk : |r - k| < integerTolerance.magnitude) : j = k := by
  have hhalf := Binary.integerTolerance_lt
  have hlt : |((j - k : ℤ) : ℚ)| < ((1 : ℤ) : ℚ) := by
    have htriangle := abs_sub_le (j : ℚ) r k
    push_cast
    linarith
  have hzero := abs_lt.mp (by exact_mod_cast hlt : |j - k| < 1)
  omega

/-- What is read as an integer within the tolerance of a number, and written as the number is,
settles it. -/
theorem Settles.of_integer {write : Float → List Char} {v w : Float} {j : ℤ}
    (reads : read? (write v) = some w) (finite : w.isFinite = true) (hj : value w = j)
    (near : |value w - value v| < integerTolerance.magnitude) (same : write w = write v) :
    Settles write v w := by
  have hinteger : ∀ n : ℤ, |value v - n| < integerTolerance.magnitude → value w = n := by
    intro n hn
    rw [hj] at near ⊢
    rw [eq_of_near near hn]
  refine ⟨reads, finite, near, fun hnone => ?_, hinteger, same⟩
  by_contra hne
  rw [abs_sub_comm, hj] at near
  exact hnone ⟨j, fun heq => hne (hj.trans heq.symm), near⟩

section

variable {shown : Float → List Char} {v : Float} {b : Binary}

theorem tidyWith_of_near (hb : Binary.ofFloat? v = some b) {n : Nat}
    (hn : b.nearInteger? = some n) :
    tidyWith shown v = sign (b.negative && n != 0) ++ Nat.toDigits 10 n := by
  simp only [tidyWith, hb, hn]

theorem tidyWith_of_not_near (hb : Binary.ofFloat? v = some b) (hn : b.nearInteger? = none) :
    tidyWith shown v = shown v := by
  simp only [tidyWith, hb, hn]

/-- The integer that a double is written as. -/
theorem settles_of_near (hb : Binary.ofFloat? v = some b) {n : Nat}
    (hn : b.nearInteger? = some n) : ∃ w, Settles (tidyWith shown) v w := by
  obtain ⟨c, hc, hnegative, hmagnitude, hagain⟩ := Binary.exists_integer hb hn
  obtain ⟨-, hnear⟩ := Binary.nearInteger?_eq_some_iff.mp hn
  have htext : tidyWith shown v = sign (b.negative && n != 0) ++ Nat.toDigits 10 n :=
    tidyWith_of_near hb hn
  have hread := (writes_toDigits n).read?_eq (b.negative && n != 0)
  rw [← htext] at hread
  -- a zero has no sign, and its value is none the less the one with the sign of the double
  have hvalue : value (ofMagnitude (b.negative && n != 0) (nearest n)) =
      ((if b.negative then -(n : ℤ) else n : ℤ) : ℚ) := by
    rw [Binary.value_eq hc, Binary.signed, hnegative, hmagnitude]
    by_cases hzero : n = 0
    · simp [hzero]
    · cases b.negative <;> simp [hzero]
  refine ⟨_, .of_integer hread (Binary.isFinite_of_ofFloat? hc) hvalue ?_ ?_⟩
  · rw [hvalue, Binary.value_eq hb, Binary.signed]
    cases b.negative with
    | false =>
        rw [abs_sub_comm]
        simpa using hnear
    | true =>
        rw [abs_sub_comm] at hnear
        simpa [abs_sub_comm, ← sub_eq_add_neg, neg_add_eq_sub] using hnear
  · rw [tidyWith_of_near hc hagain, htext, hnegative, Bool.and_assoc, Bool.and_self]

/-- The double that is not written as an integer.  If it is within the tolerance of one, it is that
integer. -/
theorem settles_of_not_near (hb : Binary.ofFloat? v = some b) (hn : b.nearInteger? = none)
    (hread : read? (shown v) = some v) : Settles (tidyWith shown) v v := by
  have htext : tidyWith shown v = shown v := tidyWith_of_not_near hb hn
  rw [← htext] at hread
  have hinteger : ∀ k : ℤ, |value v - k| < integerTolerance.magnitude → value v = k := by
    intro k hk
    have hvalue := Binary.value_eq hb
    have hnear : |b.magnitude - (k.natAbs : ℚ)| < integerTolerance.magnitude := by
      rw [← b.abs_signed, ← hvalue, Nat.cast_natAbs, Int.cast_abs]
      exact (abs_abs_sub_abs_le _ _).trans_lt hk
    have hlarge : 2 ^ 63 ≤ b.magnitude := by
      by_contra hsmall
      rw [Binary.nearInteger?_eq_some_iff.mpr ⟨not_le.mp hsmall, hnear⟩] at hn
      contradiction
    obtain ⟨n, hmagnitude⟩ := (Binary.canonical_of_ofFloat? hb).1.magnitude_eq_natCast hlarge
    obtain ⟨j, hj⟩ : ∃ j : ℤ, value v = j := by
      refine ⟨if b.negative then -n else n, ?_⟩
      rw [hvalue, Binary.signed, hmagnitude]
      cases b.negative <;> simp
    have hself := Binary.near_self (value v)
    rw [hj] at hself hk ⊢
    rw [eq_of_near hself hk]
  exact ⟨hread, Binary.isFinite_of_ofFloat? hb, Binary.near_self _, fun _ => rfl, hinteger, rfl⟩

end

theorem read?_written_of_isFinite {u : Float} (h : u.isFinite = true) :
    read? (written u) = some u := by
  obtain ⟨b, hb⟩ := Binary.exists_ofFloat? h
  exact read?_written hb

/-- Every finite double settles as it is written tidily.  The fewest digits do not matter to that:
any other texts will do that are read as the doubles they are shown for. -/
theorem exists_settles {v : Float} (h : v.isFinite = true) :
    (∃ w, Settles tidy v w) ∧
      ∀ shown : Float → List Char, (∀ u : Float, u.isFinite = true → read? (shown u) = some u) →
        ∃ w, Settles (tidyWith shown) v w := by
  have hall : ∀ shown : Float → List Char,
      (∀ u : Float, u.isFinite = true → read? (shown u) = some u) →
        ∃ w, Settles (tidyWith shown) v w := by
    intro shown hread
    obtain ⟨b, hb⟩ := Binary.exists_ofFloat? h
    cases hn : b.nearInteger? with
    | some n => exact settles_of_near hb hn
    | none => exact ⟨v, settles_of_not_near hb hn (hread v h)⟩
  exact ⟨tidyWith_written ▸ hall written fun _ => read?_written_of_isFinite, hall⟩

/-- The tolerance is the double nearest to `10 ^ -10`. -/
example : Binary.ofFloat? (Float.ofScientific 1 true 10) = some integerTolerance := by
  decide +kernel

/-- What is a little less than `-3` is written as `-3`, and read as that. -/
theorem exists_settles_below_minus_three :
    let v := -Float.ofScientific 300000000001 true 11
    v.isFinite = true ∧ tidy v = "-3".toList ∧ written v = "-3.00000000001".toList ∧
      (∃ w, read? "-3".toList = some w ∧ tidy w = "-3".toList ∧
        |value w - value v| < integerTolerance.magnitude) ∧
      (∀ u : Float, u.isFinite = true → read? (written u) = some u) ∧
        ∃ w, Settles (tidyWith written) v w := by
  intro v
  have hfinite : v.isFinite = true := by decide +kernel
  have htidy : tidy v = "-3".toList := by decide +kernel
  have hwritten : written v = "-3.00000000001".toList := by decide +kernel
  have hreads : ∀ u : Float, u.isFinite = true → read? (written u) = some u :=
    fun _ => read?_written_of_isFinite
  obtain ⟨⟨w, hw⟩, hall⟩ := exists_settles hfinite
  have hread := hw.reads
  have hsame := hw.same
  rw [htidy] at hread hsame
  exact ⟨hfinite, htidy, hwritten, ⟨w, hread, hsame, hw.near⟩, hreads, hall written hreads⟩

end GraphCalc.Number
