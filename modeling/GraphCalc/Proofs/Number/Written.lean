import GraphCalc.Number.Written
import GraphCalc.Proofs.Number.Decimal
import GraphCalc.Proofs.Number.Numeral

/-!
# GraphCalc.Proofs.Number.Written

Numbers that have been written are read again.

Every layout spells the digits of the number, with zeros added at either end and the point moved,
and the exponent makes up for both.

* `read?_eq_some_iff` — what is read is a numeral, and as what;
* `read?_written` — a finite double in the fewest digits reads as itself;
* `read?_tidy` — written tidily it still reads as a double, and that one is written in the same way;
* `tidy_of_not_finite` — the names of the infinities and of the NaN, which are not read.
-/

namespace GraphCalc.Number

open Numeral

/-! ## digits -/

theorem natOfDigits_append (xs ys : List Char) :
    natOfDigits (xs ++ ys) = 10 ^ ys.length * natOfDigits xs + natOfDigits ys := by
  have happend := Nat.ofDigitChars_append (b := 10) (l := xs) (m := ys) 0
  rw [@Nat.ofDigitChars_eq_ofDigitChars_zero ys] at happend
  exact happend

theorem natOfDigits_replicate_zero (n : Nat) : natOfDigits (List.replicate n '0') = 0 := by
  have hzeros := @Nat.ofDigitChars_replicate_zero 10 0 n
  rw [Nat.mul_zero] at hzeros
  exact hzeros

/-- The digits of a number spell it. -/
theorem natOfDigits_toDigits (n : Nat) : natOfDigits (Nat.toDigits 10 n) = n :=
  Nat.ofDigitChars_ten_toDigits

theorem digits_toDigits (n : Nat) : Digits (Nat.toDigits 10 n) :=
  fun _ hc => Nat.isDigit_of_mem_toDigits (by decide) (by decide) hc

theorem digits_replicate_zero (n : Nat) : Digits (List.replicate n '0') := by
  intro c hc
  rw [List.eq_of_mem_replicate hc]
  rfl

theorem Numeral.Digits.append {xs ys : List Char} (hxs : Digits xs) (hys : Digits ys) :
    Digits (xs ++ ys) := by
  intro c hc
  cases List.mem_append.mp hc with
  | inl hc => exact hxs c hc
  | inr hc => exact hys c hc

/-! ## numerals -/

/-- The text is a numeral, and the double is the one nearest to the number that it spells. -/
def StandsFor (text : List Char) (v : Float) : Prop :=
  ∃ n : Numeral, Spelled text n ∧ ofMagnitude n.negative (nearest n.magnitude.value) = v

/-- A text is read exactly if it is a numeral, as the double it stands for. -/
theorem read?_eq_some_iff {text : List Char} {v : Float} :
    read? text = some v ↔ StandsFor text v := by
  simp only [read?, Option.map_eq_some_iff, parse?_eq_some_iff, toFloat, Decimal.nearestBits_eq,
    StandsFor]

/-- With either sign in front, a text is a numeral with the value `r`. -/
def Writes (cs : List Char) (r : ℚ) : Prop :=
  ∀ negative, ∃ m : Decimal, parse? (sign negative ++ cs) = some ⟨negative, m⟩ ∧ m.value = r

/-- What is written is read as the double nearest to it. -/
theorem Writes.read?_eq {cs : List Char} {r : ℚ} (h : Writes cs r) (negative : Bool) :
    read? (sign negative ++ cs) = some (ofMagnitude negative (nearest r)) := by
  obtain ⟨m, hparse, hvalue⟩ := h negative
  rw [read?, hparse, Option.map_some, toFloat, Decimal.nearestBits_eq, hvalue]

/-- A numeral that starts with a digit. -/
theorem writes_of_parts {whole : List Char} (fraction : Option (List Char)) (tail : List Char)
    {e : Int} (hwhole : Digits whole) (hne : whole ≠ []) (hfraction : Digits (fraction.getD []))
    (htail : exponent? tail = some e) (hstop : ∀ c ∈ tail.head?, c.isDigit = false ∧ c ≠ '.') :
    Writes (whole ++ (pointed fraction ++ tail))
      (natOfDigits (whole ++ fraction.getD []) * 10 ^ (e - (fraction.getD []).length)) := by
  intro negative
  have hsign : takeSign (sign negative ++ (whole ++ (pointed fraction ++ tail))) =
      (negative, whole ++ (pointed fraction ++ tail)) := by
    cases negative with
    | true => rfl
    | false =>
        refine takeSign_eq_self fun c hc => ?_
        cases whole with
        | nil => exact absurd rfl hne
        | cons d whole =>
            obtain rfl := Option.some.inj hc
            have hdigit := hwhole d (by simp)
            constructor
            all_goals
              rintro rfl
              revert hdigit
              decide
  have hsome : whole ++ fraction.getD [] ≠ [] := by
    intro hnil
    exact hne (List.append_eq_nil_iff.mp hnil).1
  exact ⟨_, parse?_spelled hsign hwhole hfraction hsome htail hstop, rfl⟩

/-- A run of digits is a numeral. -/
theorem writes_toDigits (n : Nat) : Writes (Nat.toDigits 10 n) n := by
  have h := writes_of_parts none [] (digits_toDigits n) Nat.toDigits_ne_nil
    (e := 0) (by simp [Digits]) rfl (by simp)
  simpa [pointed, natOfDigits_toDigits] using h

/-! ## layouts -/

/-- In positional notation the digits keep their value. -/
theorem writes_positional {digits : List Char} (hdigits : Digits digits) (hne : digits ≠ [])
    (point : Int) :
    Writes (positional digits point) (natOfDigits digits * 10 ^ (point - digits.length)) := by
  have hzero : Digits ['0'] := digits_replicate_zero 1
  simp only [positional]
  split_ifs with hsmall hshort
  · have hfraction := (digits_replicate_zero (-point).toNat).append hdigits
    have h := writes_of_parts (some (List.replicate (-point).toNat '0' ++ digits)) []
      hzero (by simp) hfraction rfl (by simp)
    have hvalue : natOfDigits (['0'] ++ (List.replicate (-point).toNat '0' ++ digits)) =
        natOfDigits digits := by
      rw [natOfDigits_append, natOfDigits_append, natOfDigits_replicate_zero]
      simp [natOfDigits]
    have hexponent : (0 : Int) - ((List.replicate (-point).toNat '0' ++ digits).length : Nat) =
        point - digits.length := by
      rw [List.length_append, List.length_replicate]
      omega
    rw [Option.getD_some, hvalue, hexponent] at h
    simpa [pointed] using h
  · have hwhole := hdigits.append (digits_replicate_zero (point.toNat - digits.length))
    have h := writes_of_parts (some ['0']) [] hwhole (by simp [hne]) hzero rfl (by simp)
    have hvalue :
        natOfDigits (digits ++ List.replicate (point.toNat - digits.length) '0' ++ ['0']) =
          10 ^ (point.toNat - digits.length + 1) * natOfDigits digits := by
      rw [natOfDigits_append, natOfDigits_append, natOfDigits_replicate_zero, List.length_replicate,
        Nat.add_zero, ← Nat.mul_assoc, ← Nat.pow_add, Nat.add_comm]
      simp [natOfDigits, Nat.add_comm]
    have hexponent : point - digits.length =
        ((point.toNat - digits.length + 1 : Nat) : Int) + (0 - 1) := by
      omega
    rw [hexponent, zpow_add₀ (by norm_num), zpow_natCast]
    rw [Option.getD_some, hvalue] at h
    push_cast at h
    rw [mul_comm (10 ^ _), mul_assoc] at h
    simpa [pointed] using h
  · have hsplit := List.take_append_drop point.toNat digits
    have hwhole : digits.take point.toNat ≠ [] := by
      rw [← List.length_pos_iff, List.length_take]
      omega
    have h := writes_of_parts (some (digits.drop point.toNat)) []
      (fun c hc => hdigits c (List.mem_of_mem_take hc)) hwhole
      (fun c hc => hdigits c (List.mem_of_mem_drop hc)) rfl (by simp)
    have hexponent : (0 : Int) - ((digits.drop point.toNat).length : Nat) =
        point - digits.length := by
      rw [List.length_drop]
      omega
    rw [Option.getD_some, hsplit, hexponent] at h
    simpa [pointed] using h

/-- The exponent part of scientific notation. -/
theorem exponent?_scientific (e : Int) :
    exponent? ('e' :: (if e < 0 then '-' else '+') ::
      (List.replicate (layout.exponentWidth - (Nat.toDigits 10 e.natAbs).length) '0' ++
        Nat.toDigits 10 e.natAbs)) = some e := by
  have hdigits := (digits_replicate_zero
    (layout.exponentWidth - (Nat.toDigits 10 e.natAbs).length)).append (digits_toDigits e.natAbs)
  have hvalue : natOfDigits (List.replicate (layout.exponentWidth -
      (Nat.toDigits 10 e.natAbs).length) '0' ++ Nat.toDigits 10 e.natAbs) = e.natAbs := by
    rw [natOfDigits_append, natOfDigits_replicate_zero, natOfDigits_toDigits]
    omega
  have hall := List.all_eq_true.mpr hdigits
  by_cases hneg : e < 0
  · simp only [exponent?, if_pos hneg, takeSign, hall, hvalue]
    simp [abs_of_neg hneg]
  · simp only [exponent?, if_neg hneg, takeSign, hall, hvalue]
    simp [abs_of_nonneg (not_lt.mp hneg)]

/-- In scientific notation the digits keep their value. -/
theorem writes_scientific {digits : List Char} (hdigits : Digits digits) (hne : digits ≠ [])
    (e : Int) :
    Writes (scientific digits e) (natOfDigits digits * 10 ^ (e + 1 - digits.length)) := by
  have htail := exponent?_scientific e
  have hstop : ∀ tail : List Char, ∀ c ∈ ('e' :: tail).head?, c.isDigit = false ∧ c ≠ '.' := by
    intro tail c hc
    cases hc
    decide
  unfold scientific
  cases digits with
  | nil => exact absurd rfl hne
  | cons d ds =>
      have hfirst : Digits [d] := fun c hc => hdigits c (by simp_all)
      cases ds with
      | nil =>
          have h := writes_of_parts none _ hfirst (by simp) (by simp [Digits]) htail (hstop _)
          simpa [pointed] using h
      | cons d' ds =>
          have hrest : Digits (d' :: ds) := fun c hc => hdigits c (List.mem_cons_of_mem _ hc)
          have h := writes_of_parts (some (d' :: ds)) _ hfirst (by simp) hrest htail (hstop _)
          simpa [pointed] using h

/-- What is written for a decimal is a numeral with its value. -/
theorem Decimal.writes_written (d : Decimal) : Writes d.written d.value := by
  have hdigits := digits_toDigits d.digits
  have hne : Nat.toDigits 10 d.digits ≠ [] := Nat.toDigits_ne_nil
  simp only [written]
  split_ifs
  · have h := writes_positional hdigits hne ((Nat.toDigits 10 d.digits).length + d.exponent)
    rwa [natOfDigits_toDigits, add_sub_cancel_left] at h
  · have h := writes_scientific hdigits hne ((Nat.toDigits 10 d.digits).length + d.exponent - 1)
    rwa [natOfDigits_toDigits, sub_add_cancel, add_sub_cancel_left] at h

/-! ## doubles -/

/-- A finite double in the fewest digits reads as itself. -/
theorem read?_written {v : Float} {b : Binary} (h : Binary.ofFloat? v = some b) :
    read? (written v) = some v := by
  obtain ⟨hcanonical, hnegative, hbits⟩ := Binary.canonical_of_ofFloat? h
  have hread := (b.toDecimal.shortest b.bits).writes_written.read?_eq b.negative
  rw [Binary.nearest_shortest hcanonical, hnegative, hbits, ofMagnitude_eq] at hread
  simp only [written, h, hnegative]
  exact hread

/-- A double that is an integer is found to be one. -/
theorem Binary.nearInteger?_eq {b : Binary} {n : Nat} (hexponent : b.exponent ≤ 0)
    (hmantissa : b.mantissa = n * 2 ^ (-b.exponent).toNat) (hn : n < 2 ^ 63) :
    b.nearInteger? = some n := by
  have htoNat : b.exponent.toNat = 0 := by omega
  have hpow : 0 < 2 ^ (-b.exponent).toNat := Nat.pow_pos (by decide)
  have hround : b.roundMagnitude = n := by
    rw [roundMagnitude, htoNat, Nat.shiftLeft_zero, Nat.one_shiftLeft, roundHalfEven_eq _ hpow,
      hmantissa, Nat.cast_mul, mul_div_cancel_right₀ _ (by positivity), halfEven_natCast]
  have hnear : b.isNear n = true := by
    simp only [isNear, htoNat, Nat.shiftLeft_zero, Nat.one_shiftLeft, hmantissa, Nat.sub_self,
      Nat.add_zero, Nat.zero_shiftLeft, decide_eq_true_eq]
    exact Nat.mul_pos (by decide) hpow
  have hsmall : b.mantissa < 2 ^ (63 + (-b.exponent).toNat) := by
    rw [hmantissa, Nat.pow_add]
    exact Nat.mul_lt_mul_of_pos_right hn hpow
  simp only [nearInteger?, hround, hnear, htoNat, Nat.shiftLeft_zero, Nat.one_shiftLeft, hsmall]
  rfl

/-- An integer of fifty-three bits is a double. -/
theorem Binary.canonical_natCast (negative : Bool) {n : Nat} (h : n < 2 ^ 53) :
    ∃ b : Binary, b.Canonical ∧ b.negative = negative ∧ b.exponent ≤ 0 ∧
      b.mantissa = n * 2 ^ (-b.exponent).toNat ∧ b.magnitude = n := by
  by_cases hzero : n = 0
  · refine ⟨⟨negative, 0, -1074⟩, ⟨?_, ?_, ?_, .inr rfl⟩, rfl, ?_, ?_, ?_⟩
    all_goals simp only [magnitude, hzero, Nat.cast_zero, zero_mul]
    all_goals decide
  · have hlog : n.log2 < 53 := (Nat.log2_lt hzero).mpr h
    have hlow := Nat.log2_self_le hzero
    have hhigh := Nat.lt_log2_self (n := n)
    have hshift : (-((n.log2 : Int) - 52)).toNat = 52 - n.log2 := by omega
    have hfull : 2 ^ n.log2 * 2 ^ (52 - n.log2) = 2 ^ 52 := by
      rw [← Nat.pow_add, Nat.add_sub_cancel' (by omega)]
    have hmantissaLow := Nat.mul_le_mul_right (2 ^ (52 - n.log2)) hlow
    have hmantissaHigh := Nat.mul_lt_mul_of_pos_right hhigh (k := 2 ^ (52 - n.log2)) (by positivity)
    rw [Nat.pow_succ, Nat.mul_right_comm, hfull] at hmantissaHigh
    rw [hfull] at hmantissaLow
    refine ⟨⟨negative, n * 2 ^ (52 - n.log2), n.log2 - 52⟩, ⟨?_, ?_, ?_, .inl hmantissaLow⟩, rfl,
      ?_, ?_, ?_⟩
    · exact hmantissaHigh
    · dsimp only
      omega
    · dsimp only
      omega
    · dsimp only
      omega
    · dsimp only
      rw [hshift]
    · have hcancel : (2 : ℚ) ^ (52 - n.log2) * 2 ^ ((n.log2 : Int) - 52) = 1 := by
        rw [← zpow_natCast, ← zpow_add₀ two_ne_zero, ← hshift, Int.toNat_of_nonneg (by omega),
          neg_add_cancel, zpow_zero]
      rw [magnitude]
      push_cast
      rw [mul_assoc, hcancel, mul_one]

/-- A small integer is written in its digits, also where it is the magnitude of a double. -/
theorem tidy_ofMagnitude {n : Nat} (h : n < 2 ^ 53) (negative : Bool) :
    tidy (ofMagnitude negative (nearest n)) = sign (negative && n != 0) ++ Nat.toDigits 10 n := by
  obtain ⟨b, hcanonical, rfl, hexponent, hmantissa, hmagnitude⟩ :=
    Binary.canonical_natCast negative h
  have hbound : n < 2 ^ 63 := lt_trans h (by norm_num)
  have hnear := Binary.nearInteger?_eq hexponent hmantissa hbound
  have hfloat := hcanonical.ofFloat?_eq
  rw [← hcanonical.nearest_magnitude, hmagnitude] at hfloat
  rw [tidy, hfloat]
  dsimp only
  rw [hnear]

/-- A double is rounded by its value. -/
theorem Binary.roundMagnitude_eq (b : Binary) : b.roundMagnitude = halfEven b.magnitude := by
  have hvalue := scaleDown_eq b.mantissa 1 (-b.exponent)
  have hpos := scaleDown_pos b.mantissa one_pos (-b.exponent)
  simp only [scaleDown, neg_neg, Nat.cast_one, div_one, zpow_neg, div_inv_eq_mul] at hvalue hpos
  rw [roundMagnitude, roundHalfEven_eq _ hpos, hvalue, magnitude]

/-- The nearest integer of a double has fifty-three bits, unless the double is that integer. -/
theorem Binary.Canonical.roundMagnitude_lt {b : Binary} (h : b.Canonical) :
    b.roundMagnitude < 2 ^ 53 ∨ b.magnitude = b.roundMagnitude := by
  have hround := b.roundMagnitude_eq
  by_cases hexponent : 0 ≤ b.exponent
  · have hinteger : b.magnitude = ((b.mantissa * 2 ^ b.exponent.toNat : Nat) : ℚ) := by
      rw [magnitude, Nat.cast_mul, Nat.cast_pow, Nat.cast_ofNat, ← zpow_natCast,
        Int.toNat_of_nonneg hexponent]
    right
    rw [hround, hinteger, halfEven_natCast]
  · have hsmall : b.magnitude < ((2 ^ 52 : Nat) : ℚ) := by
      have hmantissa : (b.mantissa : ℚ) < 2 ^ 53 := by exact_mod_cast h.lt
      have hpower : (2 : ℚ) ^ b.exponent ≤ 2 ^ (-1 : Int) :=
        zpow_le_zpow_right₀ one_le_two (by omega)
      calc b.magnitude < 2 ^ 53 * 2 ^ b.exponent :=
            mul_lt_mul_of_pos_right hmantissa (two_zpow_pos _)
        _ ≤ 2 ^ 53 * 2 ^ (-1 : Int) := mul_le_mul_of_nonneg_left hpower (by positivity)
        _ = ((2 ^ 52 : Nat) : ℚ) := by norm_num
    have hnonneg : 0 ≤ b.magnitude := mul_nonneg (Nat.cast_nonneg _) (two_zpow_pos _).le
    have hle := halfEven_le hnonneg hsmall
    left
    omega

/-- Written tidily a finite double still reads as a double, which is written in the same way. -/
theorem read?_tidy {v : Float} (h : v.isFinite = true) :
    ∃ w, read? (tidy v) = some w ∧ tidy w = tidy v := by
  cases hb : Binary.ofFloat? v with
  | none =>
      rw [Binary.ofFloat?_eq_none_iff.mp hb] at h
      contradiction
  | some b =>
      cases hn : b.nearInteger? with
      | none =>
          have htidy : tidy v = written v := by simp only [tidy, hb, hn]
          exact ⟨v, by rw [htidy, read?_written hb], rfl⟩
      | some n =>
          have htidy : tidy v = sign (b.negative && n != 0) ++ Nat.toDigits 10 n := by
            simp only [tidy, hb, hn]
          have hread := (writes_toDigits n).read?_eq (b.negative && n != 0)
          refine ⟨_, by rw [htidy, hread], ?_⟩
          have hround : b.roundMagnitude = n := by
            simp only [Binary.nearInteger?] at hn
            split_ifs at hn
            exact Option.some.inj hn
          obtain ⟨hcanonical, rfl⟩ := Binary.ofFloat?_eq_some_iff.mp hb
          by_cases hsmall : n < 2 ^ 53
          · rw [tidy_ofMagnitude hsmall, htidy, Bool.and_assoc, Bool.and_self]
          · -- beyond that size the double is the integer itself
            have hexact := hcanonical.roundMagnitude_lt
            rw [hround] at hexact
            have hmagnitude : b.magnitude = n := hexact.resolve_left hsmall
            have hne : (n != 0) = true := bne_iff_ne.mpr (by omega)
            rw [← hmagnitude, hcanonical.nearest_magnitude, hne, Bool.and_true]

/-- The names of the infinities and of the NaN. -/
def names : List (List Char) := [['i', 'n', 'f'], ['-', 'i', 'n', 'f'], ['n', 'a', 'n']]

theorem written_of_not_finite {v : Float} (h : v.isFinite = false) : written v ∈ names := by
  have hb := Binary.ofFloat?_eq_none_iff.mpr h
  simp only [written, hb]
  split_ifs
  · cases isNegative v <;> decide
  · decide

theorem tidy_of_not_finite {v : Float} (h : v.isFinite = false) : tidy v ∈ names := by
  have hb := Binary.ofFloat?_eq_none_iff.mpr h
  simp only [tidy, hb]
  exact written_of_not_finite h

/-! ## characters -/

/-- The characters that numbers are written with. -/
def isNumberChar (c : Char) : Bool :=
  c.isDigit || ['.', '-', '+', 'e', 'i', 'n', 'f', 'a'].contains c

theorem ascii_of_isNumberChar {c : Char} (h : isNumberChar c = true) : c.toNat < 128 := by
  simp only [isNumberChar, Bool.or_eq_true, List.contains_iff_mem] at h
  cases h with
  | inl h =>
      simp only [Char.isDigit, UInt32.le_iff_toNat_le, Bool.and_eq_true, decide_eq_true_eq] at h
      have hle : c.toNat ≤ 57 := h.2
      omega
  | inr h =>
      have hascii : ['.', '-', '+', 'e', 'i', 'n', 'f', 'a'].all (·.toNat < 128) = true := by decide
      exact of_decide_eq_true (List.all_eq_true.mp hascii c h)

theorem isNumberChar_of_digits {digits : List Char} (h : Digits digits) :
    ∀ c ∈ digits, isNumberChar c = true := by
  intro c hc
  rw [isNumberChar, h c hc, Bool.true_or]

theorem isNumberChar_of_mem_positional {digits : List Char} (h : Digits digits) (point : Int) :
    ∀ c ∈ positional digits point, isNumberChar c = true := by
  have hdigits := isNumberChar_of_digits h
  have hzero : isNumberChar '0' = true := rfl
  have hpoint : isNumberChar '.' = true := rfl
  simp only [positional]
  split_ifs
  · simp only [List.mem_append, List.mem_cons, List.mem_replicate]
    rintro c ((rfl | rfl | ⟨-, rfl⟩) | hc)
    exacts [hzero, hpoint, hzero, hdigits c hc]
  · simp only [List.mem_append, List.mem_cons, List.mem_replicate, List.not_mem_nil, or_false]
    rintro c ((hc | ⟨-, rfl⟩) | rfl | rfl)
    exacts [hdigits c hc, hzero, hpoint, hzero]
  · simp only [List.mem_append, List.mem_cons]
    rintro c (hc | rfl | hc)
    exacts [hdigits c (List.mem_of_mem_take hc), hpoint, hdigits c (List.mem_of_mem_drop hc)]

theorem isNumberChar_of_mem_scientific {digits : List Char} (h : Digits digits) (e : Int) :
    ∀ c ∈ scientific digits e, isNumberChar c = true := by
  have hdigits := isNumberChar_of_digits h
  have hpower := isNumberChar_of_digits (digits_toDigits e.natAbs)
  simp only [scientific, List.mem_append, List.mem_cons, List.mem_replicate]
  rintro c ((hc | rfl | rfl | ⟨-, rfl⟩) | hc)
  · -- the digits, with a period behind the first of them if there are more
    split at hc
    · exact absurd hc List.not_mem_nil
    · exact hdigits c hc
    · simp only [List.mem_cons] at hc hdigits
      obtain rfl | rfl | hc := hc
      · exact hdigits c (.inl rfl)
      · rfl
      · exact hdigits c (.inr hc)
  · rfl
  · split <;> rfl
  · rfl
  · exact hpower c hc

theorem isNumberChar_of_mem_sign (negative : Bool) : ∀ c ∈ sign negative, isNumberChar c = true :=
  List.all_eq_true.mp (by cases negative <;> decide)

/-- Every character of a written number is one of them. -/
theorem isNumberChar_of_mem_written {v : Float} : ∀ c ∈ written v, isNumberChar c = true := by
  simp only [written]
  split
  · simp only [Decimal.written, List.mem_append]
    rintro c (hc | hc)
    · exact isNumberChar_of_mem_sign _ c hc
    · split_ifs at hc
      · exact isNumberChar_of_mem_positional (digits_toDigits _) _ c hc
      · exact isNumberChar_of_mem_scientific (digits_toDigits _) _ c hc
  · split_ifs
    · exact List.all_eq_true.mp (by cases isNegative v <;> decide)
    · exact List.all_eq_true.mp (by decide)

/-- Every character of a tidily written number is one of them. -/
theorem isNumberChar_of_mem_tidy {v : Float} : ∀ c ∈ tidy v, isNumberChar c = true := by
  simp only [tidy]
  split
  · exact isNumberChar_of_mem_written
  split
  · simp only [List.mem_append]
    rintro c (hc | hc)
    · exact isNumberChar_of_mem_sign _ c hc
    · exact isNumberChar_of_digits (digits_toDigits _) c hc
  · exact isNumberChar_of_mem_written

end GraphCalc.Number
