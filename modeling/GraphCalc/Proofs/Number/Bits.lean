import Mathlib
import GraphCalc.Number.Binary

/-!
# GraphCalc.Proofs.Number.Bits

Doubles and their bits.

A double is its sign and its magnitude bits, as long as it is not a NaN, of which there is only one:

* `ofMagnitude_eq` — a double is put together from the two again;
* `magnitudeBits_ofMagnitude`, `isNegative_ofMagnitude` — and taken apart again;
* `isFinite_iff` — the finite doubles are those with magnitude bits below an infinity's;
* `zero_sub_ofMagnitude`, `ofMagnitude_lt_zero` — a positive double subtracted from zero changes its
  sign, and becomes negative.
-/

namespace GraphCalc.Number

open Float.Model (Format UnpackedFloat)
open Float.Model.UnpackedFloat hiding pack unpack

/-! ## fields -/

/-- The exponent field of a double. -/
def exponentField (b : BitVec 64) : BitVec 11 := @unpackExponent Format.binary64 b

/-- The stored part of the mantissa of a double. -/
def fraction (b : BitVec 64) : BitVec 52 := @unpackMantissa Format.binary64 b

/-- The sign of a double. -/
def signOf (b : BitVec 64) : Sign := Sign.ofBitVec (@unpackSign Format.binary64 b)

theorem exponentField_toNat (b : BitVec 64) :
    (exponentField b).toNat = b.toNat / 2 ^ 52 % 2048 := by
  show (b.extractLsb' 52 11).toNat = _
  rw [BitVec.extractLsb'_toNat, Nat.shiftRight_eq_div_pow]

theorem fraction_toNat (b : BitVec 64) : (fraction b).toNat = b.toNat % 2 ^ 52 := by
  show (b.extractLsb' 0 52).toNat = _
  rw [BitVec.extractLsb'_toNat, Nat.shiftRight_zero]

/-- The sign is the highest bit. -/
theorem signOf_eq (b : BitVec 64) :
    signOf b = if 2 ^ 63 ≤ b.toNat then .negative else .positive := by
  have hlt := b.isLt
  have htop : (b.extractLsb' 63 1).toNat = b.toNat / 2 ^ 63 % 2 := by
    rw [BitVec.extractLsb'_toNat, Nat.shiftRight_eq_div_pow]
  have hzero : b.extractLsb' 63 1 = 0#1 ↔ b.toNat < 2 ^ 63 := by
    rw [← BitVec.toNat_inj, htop]
    simp
    omega
  show Sign.ofBitVec (b.extractLsb' 63 1) = _
  rw [Sign.ofBitVec]
  by_cases h : b.toNat < 2 ^ 63
  · rw [if_pos (hzero.mpr h), if_neg (by omega)]
  · rw [if_neg (fun hb => h (hzero.mp hb)), if_pos (by omega)]

/-- The exponent field of an infinity or a NaN. -/
theorem toNat_neg_one : (-1#11).toNat = 2047 := by decide

/-- A fraction that is not zero is a positive number. -/
theorem toNat_pos_of_ne_zero {m : BitVec 52} (h : m ≠ 0#_) : 0 < m.toNat := by
  refine Nat.pos_of_ne_zero fun hzero => h (BitVec.eq_of_toNat_eq ?_)
  rw [hzero]
  rfl

/-- The first bit of a normal mantissa is not stored. -/
theorem toNat_append_one (m : BitVec 52) : (1#1 ++ m).toNat = 2 ^ 52 + m.toNat := by
  rw [BitVec.toNat_append, ← Nat.shiftLeft_add_eq_or_of_lt m.isLt]
  simp [Nat.shiftLeft_eq]

/-- The five kinds of doubles by their fields. -/
theorem unpack_eq (b : BitVec 64) : UnpackedFloat.unpack Format.binary64 b =
    if exponentField b = -1#_ then
      if fraction b = 0#_ then .infinity (signOf b) else .notANumber
    else if exponentField b = 0#_ then
      if hm : fraction b = 0#_ then .zero (signOf b)
      else .finite (signOf b) (fraction b).toNat
        ((exponentField b).toNat - (Format.binary64.exponentBias + (52 : Nat)) + 1)
        (toNat_pos_of_ne_zero hm)
    else .finite (signOf b) (1#1 ++ fraction b).toNat
      ((exponentField b).toNat - (Format.binary64.exponentBias + (52 : Nat)))
      (by rw [toNat_append_one]; omega) := rfl

/-! ## bits -/

/-- Unpacking loses nothing but the bits of a NaN. -/
theorem pack_unpack_of_fields {b : BitVec 64} (h : exponentField b = -1#_ → fraction b = 0#_) :
    UnpackedFloat.pack Format.binary64 (UnpackedFloat.unpack Format.binary64 b) = b := by
  have hnan : ¬@isNaNBits Format.binary64 b = true := fun hb =>
    (of_decide_eq_true hb).2 (h (of_decide_eq_true hb).1)
  rw [UnpackedFloat.pack_unpack, if_neg hnan]

/-- The bits of a double that is no NaN are those it was made of. -/
theorem toBits_ofBits {u : UInt64}
    (h : exponentField u.toBitVec = -1#_ → fraction u.toBitVec = 0#_) :
    (Float.ofBits u).toBits = u :=
  congrArg UInt64.ofBitVec (pack_unpack_of_fields h)

/-! ## magnitudes -/

theorem infinityBits_eq : infinityBits = 2047 * 2 ^ 52 := by decide

theorem infinityBits_lt : infinityBits < 2 ^ 63 := by decide

/-- The bits of a magnitude with a sign. -/
theorem toNat_bits {bits : Nat} (h : bits ≤ infinityBits) (negative : Bool) :
    (UInt64.ofNat (bits + if negative then 1 <<< 63 else 0)).toNat =
      bits + if negative then 2 ^ 63 else 0 := by
  have hinfinity := infinityBits_lt
  rw [UInt64.toNat_ofNat']
  cases negative with
  | false =>
      simp
      omega
  | true =>
      simp
      omega

/-- The fields of a magnitude with a sign.  Only the sign field depends on the sign. -/
theorem fields_bits {bits : Nat} (h : bits ≤ infinityBits) (negative : Bool) :
    let b := (UInt64.ofNat (bits + if negative then 1 <<< 63 else 0)).toBitVec
    (exponentField b).toNat = bits / 2 ^ 52 ∧ (fraction b).toNat = bits % 2 ^ 52 ∧
      signOf b = if negative then .negative else .positive := by
  intro b
  have hinfinity := infinityBits_eq
  have hb : b.toNat = bits + if negative then 2 ^ 63 else 0 := toNat_bits h negative
  refine ⟨?_, ?_, ?_⟩
  · rw [exponentField_toNat, hb]
    split <;> omega
  · rw [fraction_toNat, hb]
    split <;> omega
  · rw [signOf_eq, hb]
    cases negative with
    | false => exact if_neg (by simp; omega)
    | true => exact if_pos (by simp)

/-- Up to an infinity, magnitude bits are no NaN's. -/
theorem toBits_ofMagnitude {bits : Nat} (h : bits ≤ infinityBits) (negative : Bool) :
    (ofMagnitude negative bits).toBits.toNat = bits + if negative then 2 ^ 63 else 0 := by
  have hinfinity := infinityBits_eq
  obtain ⟨hexponent, hfraction, -⟩ := fields_bits h negative
  rw [ofMagnitude, toBits_ofBits, toNat_bits h]
  intro he
  refine BitVec.eq_of_toNat_eq ?_
  rw [he, toNat_neg_one] at hexponent
  rw [hfraction]
  show bits % 2 ^ 52 = 0
  omega

@[simp] theorem magnitudeBits_ofMagnitude {bits : Nat} (h : bits ≤ infinityBits) (negative : Bool) :
    magnitudeBits (ofMagnitude negative bits) = bits := by
  have hinfinity := infinityBits_lt
  rw [magnitudeBits, toBits_ofMagnitude h]
  cases negative with
  | false =>
      simp
      omega
  | true =>
      simp
      omega

@[simp] theorem isNegative_ofMagnitude {bits : Nat} (h : bits ≤ infinityBits) (negative : Bool) :
    isNegative (ofMagnitude negative bits) = negative := by
  have hinfinity := infinityBits_lt
  rw [isNegative, toBits_ofMagnitude h]
  cases negative with
  | false =>
      simp
      omega
  | true => simp

/-- A double is its sign and its magnitude. -/
theorem ofMagnitude_eq (v : Float) : ofMagnitude (isNegative v) (magnitudeBits v) = v := by
  have hlt := v.toBits.toNat_lt
  have hnat : magnitudeBits v + (if isNegative v then 1 <<< 63 else 0) = v.toBits.toNat := by
    simp only [magnitudeBits, isNegative, decide_eq_true_eq]
    have hone : 1 <<< 63 = 2 ^ 63 := by decide
    rw [hone]
    split <;> omega
  rw [ofMagnitude, hnat, UInt64.ofNat_toNat, Float.ofBits_toBits]

/-- The finite doubles are those below an infinity. -/
theorem isFinite_iff (v : Float) : v.isFinite = true ↔ magnitudeBits v < infinityBits := by
  have hinfinity := infinityBits_eq
  have hmagnitude : magnitudeBits v = v.toBits.toNat % 2 ^ 63 := rfl
  have hfield := exponentField_toNat v.toBits.toBitVec
  have hfinite : v.isFinite = true ↔ exponentField v.toBits.toBitVec ≠ -1#_ := by
    show (UnpackedFloat.unpack Format.binary64 v.toBits.toBitVec).isFinite = true ↔ _
    rw [unpack_eq]
    split
    · next he =>
      simp only [he, ne_eq, not_true_eq_false, iff_false]
      split <;> simp [UnpackedFloat.isFinite]
    · next he =>
      simp only [he, ne_eq, not_false_eq_true, iff_true]
      split
      · split <;> rfl
      · rfl
  have hones : exponentField v.toBits.toBitVec = -1#_ ↔
      (exponentField v.toBits.toBitVec).toNat = 2047 :=
    ⟨fun h => by rw [h]; rfl, fun h => BitVec.eq_of_toNat_eq h⟩
  have hlt := v.toBits.toNat_lt
  rw [UInt64.toNat_toBitVec] at hfield
  rw [hfinite, ne_eq, hones, hfield, hmagnitude, hinfinity]
  omega

/-! ## negation -/

/-- Doubles with the same exponent and fraction differ in the sign only, if they are neither zero
nor beyond the finite doubles. -/
theorem exists_unpack_finite {b : BitVec 64} (hfinite : exponentField b ≠ -1#_)
    (hne : exponentField b = 0#_ → fraction b ≠ 0#_) :
    ∃ m e hm, ∀ b', exponentField b' = exponentField b → fraction b' = fraction b →
      UnpackedFloat.unpack Format.binary64 b' = .finite (signOf b') m e hm := by
  let lowest : Int := (exponentField b).toNat - (Format.binary64.exponentBias + (52 : Nat))
  by_cases hzero : exponentField b = 0#_
  · refine ⟨(fraction b).toNat, lowest + 1, toNat_pos_of_ne_zero (hne hzero), ?_⟩
    intro b' hexponent hfraction
    simp only [unpack_eq, hexponent, hfraction, if_neg hfinite, if_pos hzero, dif_neg (hne hzero)]
    rfl
  · have hpos : 0 < (1#1 ++ fraction b).toNat := by
      rw [toNat_append_one]
      omega
    refine ⟨(1#1 ++ fraction b).toNat, lowest, hpos, ?_⟩
    intro b' hexponent hfraction
    simp only [unpack_eq, hexponent, hfraction, if_neg hfinite, if_neg hzero]
    rfl

/-- Above zero and below an infinity, a magnitude has a mantissa and an exponent, which do not
depend on the sign in front of it. -/
theorem unpack_ofMagnitude {bits : Nat} (hpos : 0 < bits) (hlt : bits < infinityBits) :
    ∃ m e hm, ∀ negative, (ofMagnitude negative bits).toModel.unpack =
      .finite (if negative then .negative else .positive) m e hm := by
  have hinfinity := infinityBits_eq
  let b := fun negative : Bool => (UInt64.ofNat (bits + if negative then 1 <<< 63 else 0)).toBitVec
  have hfields := fun negative => fields_bits (Nat.le_of_lt hlt) negative
  obtain ⟨hexponent, hfraction, -⟩ := hfields false
  have hfinite : ∀ negative, exponentField (b negative) ≠ -1#_ := by
    intro negative h
    have hones := (hfields negative).1
    rw [h, toNat_neg_one] at hones
    omega
  have hne : exponentField (b false) = 0#_ → fraction (b false) ≠ 0#_ := by
    intro hzero hzero'
    rw [hzero] at hexponent
    rw [hzero'] at hfraction
    simp at hexponent hfraction
    omega
  obtain ⟨m, e, hm, hunpack⟩ := exists_unpack_finite (hfinite false) hne
  refine ⟨m, e, hm, fun negative => ?_⟩
  obtain ⟨hexponent', hfraction', hsign⟩ := hfields negative
  have hb := hunpack (b negative) (BitVec.eq_of_toNat_eq (hexponent'.trans hexponent.symm))
    (BitVec.eq_of_toNat_eq (hfraction'.trans hfraction.symm))
  show UnpackedFloat.unpack Format.binary64
    (UnpackedFloat.pack Format.binary64 (UnpackedFloat.unpack Format.binary64 (b negative))) = _
  rw [pack_unpack_of_fields fun h => absurd h (hfinite negative), hb, hsign]

theorem unpack_zero : (Float.ofInt 0).toModel.unpack = .zero .positive := rfl

/-- A positive double subtracted from zero changes its sign. -/
theorem zero_sub_ofMagnitude {bits : Nat} (hpos : 0 < bits) (hlt : bits < infinityBits) :
    Float.ofInt 0 - ofMagnitude false bits = ofMagnitude true bits := by
  obtain ⟨m, e, hm, hunpack⟩ := unpack_ofMagnitude hpos hlt
  have hpacked : Float.ofModel (Float.Model.pack (ofMagnitude true bits).toModel.unpack) =
      ofMagnitude true bits := Float.ofBits_toBits _
  show Float.ofModel (Float.Model.pack (UnpackedFloat.sub Format.binary64
    (Float.ofInt 0).toModel.unpack (ofMagnitude false bits).toModel.unpack)) = _
  rw [unpack_zero, hunpack, ← hpacked, hunpack]
  rfl

/-- A double with a sign that is not zero is negative. -/
theorem ofMagnitude_lt_zero {bits : Nat} (hpos : 0 < bits) (hlt : bits < infinityBits) :
    ofMagnitude true bits < 0 := by
  obtain ⟨m, e, hm, hunpack⟩ := unpack_ofMagnitude hpos hlt
  refine decide_eq_true ?_
  show UnpackedFloat.lt (ofMagnitude true bits).toModel.unpack
    (Float.ofInt 0).toModel.unpack = true
  rw [unpack_zero, hunpack]
  rfl

end GraphCalc.Number
