import GraphCalc.Proofs.Number.Bits

/-!
# GraphCalc.Proofs.Number.Neutral

Zero and one among doubles.

Two doubles are `Alike` if they are equal or both of them are zeros, of whatever sign.  Up to that,
`0` and `1` are neutral for the operations that rounding is defined for, on every finite double:

* `roundWithAccuracy_exact` — a double's mantissa and exponent are left alone by rounding, however
  far the mantissa was shifted before;
* `alike_zero_add`, `alike_one_mul`, `alike_div_one` and their neighbours — so nothing is lost in a
  product with one;
* `Alike.add` and its neighbours — and the sign of a zero makes no difference to a finite result.
-/

namespace GraphCalc.Number

open Float.Model (Format UnpackedFloat totalExponent)
open Float.Model.UnpackedFloat hiding pack unpack

/-! ## rounding -/

/-- The exponent is the one that rounding chooses for the mantissa. -/
def OnGrid (m : Nat) (e : Int) : Prop := Format.binary64.targetExponent (totalExponent m e) = e

/-- An exact mantissa is shifted to the right without a loss, over zeros. -/
theorem shiftRight_exact (m k : Nat) :
    ExtendedMantissa.ofMantissaAndAccuracy (m * 2 ^ k) .exact >>> k =
      ExtendedMantissa.ofMantissaAndAccuracy m .exact := by
  show k.repeat ExtendedMantissa.shiftRightOne _ = _
  induction k generalizing m with
  | zero => rw [Nat.pow_zero, Nat.mul_one]; rfl
  | succ k ih =>
      have hshift : m * 2 ^ (k + 1) = m * 2 * 2 ^ k := by rw [Nat.pow_succ]; ring
      rw [Nat.repeat, hshift, ih]
      simp [ExtendedMantissa.shiftRightOne, ExtendedMantissa.ofMantissaAndAccuracy]

/-- Bits behind a number move its first bit up. -/
theorem log2_mul_two_pow {m : Nat} (hm : 0 < m) (k : Nat) :
    (m * 2 ^ k).log2 = m.log2 + k := by
  have hlow := Nat.mul_le_mul_right (2 ^ k) (Nat.log2_self_le hm.ne')
  have hhigh := Nat.mul_lt_mul_of_pos_right (@Nat.lt_log2_self m) (Nat.two_pow_pos k)
  rw [← Nat.pow_add] at hlow hhigh
  rw [Nat.log2_eq_iff (Nat.mul_pos hm (Nat.two_pow_pos k)).ne']
  exact ⟨hlow, by rwa [Nat.add_right_comm]⟩

theorem shiftToTargetExponent_exact {m : Nat} {e : Int} (hm : 0 < m) (h : OnGrid m e) (k : Nat) :
    shiftToTargetExponent Format.binary64 (m * 2 ^ k) (e - k) .exact =
      (ExtendedMantissa.ofMantissaAndAccuracy m .exact, e) := by
  have htotal : totalExponent (m * 2 ^ k) (e - k) = totalExponent m e := by
    rw [totalExponent, totalExponent, log2_mul_two_pow hm]
    push_cast
    ring
  have hshift : (e - (e - k : Int)).toNat = k := by omega
  have htarget : Format.binary64.targetExponent (totalExponent m e) = e := h
  rw [shiftToTargetExponent, htotal, htarget, shiftToExponent, hshift]
  simp [shiftRight_exact]

/-- Rounding does not change what is on the grid. -/
theorem roundWithAccuracy_exact {m : Nat} {e : Int} (hm : 0 < m) (h : OnGrid m e) (sign : Sign)
    (k : Nat) : roundWithAccuracy Format.binary64 sign (m * 2 ^ k) (e - k) .exact =
      .finite sign m e hm := by
  have hagain := shiftToTargetExponent_exact hm h 0
  simp only [Nat.pow_zero, Nat.mul_one, Nat.cast_zero, Int.sub_zero] at hagain
  have hrounded : (ExtendedMantissa.ofMantissaAndAccuracy m .exact).roundedMantissa = m := rfl
  simp only [roundWithAccuracy, shiftToTargetExponent_exact hm h k, hrounded, hagain]
  exact dif_neg hm.ne'

/-- What a double is made of is on the grid. -/
theorem onGrid_of_unpack {b : BitVec 64} {sign : Sign} {m : Nat} {e : Int} {hm : 0 < m}
    (h : UnpackedFloat.unpack Format.binary64 b = .finite sign m e hm) : OnGrid m e := by
  have hbias : Format.binary64.exponentBias = 1023 := rfl
  have hfield := (exponentField b).isLt
  have hfraction := (fraction b).isLt
  rw [unpack_eq] at h
  split at h
  · split at h <;> cases h
  · split at h
    · next hzero =>
      split at h
      · cases h
      · next hne =>
        have hlog : (fraction b).toNat.log2 < 52 :=
          (Nat.log2_lt (toNat_pos_of_ne_zero hne).ne').mpr hfraction
        cases h
        simp only [OnGrid, Format.targetExponent, totalExponent, Format.mantissaBits,
          Format.minExponent, hzero, hbias]
        simp
        omega
    · next hnonzero =>
      have hpos : 0 < (exponentField b).toNat :=
        Nat.pos_of_ne_zero fun hzero => hnonzero (BitVec.eq_of_toNat_eq hzero)
      have hlog : (1#1 ++ fraction b).toNat.log2 = 52 := by
        rw [toNat_append_one, Nat.log2_eq_iff (by omega)]
        omega
      cases h
      simp only [OnGrid, Format.targetExponent, totalExponent, Format.mantissaBits,
        Format.minExponent, hlog, hbias]
      omega

/-! ## the sign of a zero -/

/-- The number, a zero without its sign. -/
def unsigned : UnpackedFloat → UnpackedFloat
  | .zero _ => .zero .positive
  | u => u

variable {u v : UnpackedFloat}

theorem unsigned_add (u v : UnpackedFloat) :
    unsigned (add .binary64 u v) = unsigned (add .binary64 (unsigned u) (unsigned v)) := by
  cases u with
  | zero s =>
      cases v with
      | zero t => cases s <;> cases t <;> rfl
      | infinity | notANumber | finite => rfl
  | infinity | notANumber | finite => cases v <;> rfl

theorem unsigned_sub (u v : UnpackedFloat) :
    unsigned (sub .binary64 u v) = unsigned (sub .binary64 (unsigned u) (unsigned v)) := by
  cases u with
  | zero s =>
      cases v with
      | zero t => cases s <;> cases t <;> rfl
      | infinity | notANumber | finite => rfl
  | infinity | notANumber | finite => cases v <;> rfl

theorem unsigned_mul (u v : UnpackedFloat) :
    unsigned (mul .binary64 u v) = unsigned (mul .binary64 (unsigned u) (unsigned v)) := by
  cases u <;> cases v <;> rfl

/-- Over a zero a quotient may be infinite of either sign. -/
theorem unsigned_div (u : UnpackedFloat) (h : unsigned v ≠ .zero .positive) :
    unsigned (div .binary64 u v) = unsigned (div .binary64 (unsigned u) (unsigned v)) := by
  cases v with
  | zero t => exact absurd rfl h
  | infinity | notANumber | finite => cases u <;> rfl

/-- And it is not finite. -/
theorem unsigned_ne_zero_of_div (h : (div .binary64 u v).isFinite = true) :
    unsigned v ≠ .zero .positive := by
  cases v with
  | zero t => cases u <;> contradiction
  | infinity | notANumber | finite => simp [unsigned]

theorem beq_unsigned (u v : UnpackedFloat) :
    UnpackedFloat.beq u v = UnpackedFloat.beq (unsigned u) (unsigned v) := by
  cases u with
  | notANumber => cases v <;> rfl
  | zero s =>
      cases v with
      | zero | notANumber => rfl
      | infinity t | finite t => cases t <;> rfl
  | infinity s | finite s =>
      cases v with
      | zero t => cases s <;> rfl
      | infinity | notANumber | finite => rfl

/-- Packing does not bring a sign back. -/
theorem unsigned_unpack_pack (u : UnpackedFloat) :
    unsigned (Float.Model.pack (unsigned u)).unpack = unsigned (Float.Model.pack u).unpack := by
  cases u with
  | zero s => cases s <;> rfl
  | infinity | notANumber | finite => rfl

/-! ## doubles that are alike -/

/-- The same double, or zeros both of them. -/
def Alike (a b : Float) : Prop := unsigned a.toModel.unpack = unsigned b.toModel.unpack

theorem alike_equivalence : Equivalence Alike where
  refl _ := rfl
  symm h := h.symm
  trans h h' := h.trans h'

/-- A double is packed of its parts. -/
theorem ofModel_unpack (a : Float) : Float.ofModel (.pack a.toModel.unpack) = a :=
  Float.ofBits_toBits a

theorem alike_pack (h : unsigned u = unsigned v) :
    Alike (.ofModel (.pack u)) (.ofModel (.pack v)) := by
  rw [Alike, ← unsigned_unpack_pack u, h, unsigned_unpack_pack]

theorem alike_of_unsigned {a : Float} (h : unsigned u = unsigned a.toModel.unpack) :
    Alike (.ofModel (.pack u)) a := by
  have hpack := alike_pack h
  rwa [ofModel_unpack] at hpack

/-- What is packed to a finite double is finite. -/
theorem isFinite_of_pack (h : (Float.Model.pack u).unpack.isFinite = true) : u.isFinite = true := by
  cases u with
  | zero | finite => rfl
  | infinity s => cases s <;> contradiction
  | notANumber => contradiction

namespace Alike

variable {a a' b b' : Float}

theorem isFinite (h : Alike a b) (ha : a.isFinite = true) : b.isFinite = true := by
  have hunsigned : ∀ u, (unsigned u).isFinite = u.isFinite := by
    intro u
    cases u <;> rfl
  show b.toModel.unpack.isFinite = true
  rw [← hunsigned, ← h, hunsigned]
  exact ha

theorem add (ha : Alike a a') (hb : Alike b b') : Alike (a + b) (a' + b') :=
  alike_pack (by rw [unsigned_add, ha, hb, ← unsigned_add])

theorem sub (ha : Alike a a') (hb : Alike b b') : Alike (a - b) (a' - b') :=
  alike_pack (by rw [unsigned_sub, ha, hb, ← unsigned_sub])

theorem mul (ha : Alike a a') (hb : Alike b b') : Alike (a * b) (a' * b') :=
  alike_pack (by rw [unsigned_mul, ha, hb, ← unsigned_mul])

theorem div (ha : Alike a a') (hb : Alike b b') (h : (a / b).isFinite = true) :
    Alike (a / b) (a' / b') := by
  have hne := unsigned_ne_zero_of_div (isFinite_of_pack h)
  have hne' : unsigned b'.toModel.unpack ≠ .zero .positive := hb ▸ hne
  exact alike_pack (by rw [unsigned_div _ hne, ha, hb, ← unsigned_div _ hne'])

end Alike

/-- Doubles that are alike are numerically equal to the same doubles. -/
theorem Alike.beq_congr {a a' b b' : Float} (ha : Alike a a') (hb : Alike b b') :
    (a == b) = (a' == b') := by
  show UnpackedFloat.beq a.toModel.unpack b.toModel.unpack =
    UnpackedFloat.beq a'.toModel.unpack b'.toModel.unpack
  rw [beq_unsigned, ha, hb, ← beq_unsigned]

/-- Finite doubles that are alike are numerically equal. -/
theorem Alike.beq {a b : Float} (h : Alike a b) (ha : a.isFinite = true) : (a == b) = true := by
  rw [← (alike_equivalence.refl a).beq_congr h, Float.beq_self_iff]
  rintro rfl
  contradiction

/-- Numerically equal doubles are alike. -/
theorem alike_of_beq {a b : Float} (h : (a == b) = true) : Alike a b := by
  obtain ⟨-, -, rfl | ⟨rfl, rfl⟩ | ⟨rfl, rfl⟩⟩ := Float.beq_iff_ne_nan_and_eq.mp h
  · rfl
  · rfl
  · rfl

/-! ## zero and one -/

theorem unpack_one : (Float.ofInt 1).toModel.unpack = .finite .positive (2 ^ 52) (-52) (by decide) :=
  rfl

/-- A product with one is not rounded. -/
theorem mul_one_exact {m : Nat} {e : Int} (hm : 0 < m) (h : OnGrid m e) (s : Sign) :
    mul .binary64 (.finite s m e hm) (Float.ofInt 1).toModel.unpack = .finite s m e hm := by
  have hsign : s * .positive = s := by cases s <;> rfl
  have hround := roundWithAccuracy_exact hm h s 52
  rw [unpack_one, mul, hsign]
  exact hround

theorem one_mul_exact {m : Nat} {e : Int} (hm : 0 < m) (h : OnGrid m e) (s : Sign) :
    mul .binary64 (Float.ofInt 1).toModel.unpack (.finite s m e hm) = .finite s m e hm := by
  have hsign : .positive * s = s := by cases s <;> rfl
  have hround := roundWithAccuracy_exact hm h s 52
  rw [Nat.mul_comm, show e - (52 : Nat) = -52 + e by omega] at hround
  rw [unpack_one, mul, hsign]
  exact hround

/-- Neither is a quotient by one, for which the mantissa is shifted once more if it can be. -/
theorem div_one_exact {m : Nat} {e : Int} (hm : 0 < m) (h : OnGrid m e) (s : Sign) :
    div .binary64 (.finite s m e hm) (Float.ofInt 1).toModel.unpack = .finite s m e hm := by
  have hsign : s / .positive = s := by cases s <;> rfl
  have hone : totalExponent (2 ^ 52) (-52) = 1 := by
    rw [totalExponent, Nat.log2_two_pow]
    rfl
  have hle : min (e - -52) (Format.binary64.targetExponent
      (totalExponent m e - totalExponent (2 ^ 52) (-52))) ≤ e := by
    simp only [OnGrid, Format.targetExponent] at h
    rw [hone, Format.targetExponent]
    omega
  obtain ⟨k, hk⟩ := Int.le.dest hle
  replace hk := eq_sub_of_add_eq hk
  have hshift : (e - -52 - (e - k)).toNat = k + 52 := by omega
  have hscaled : m <<< (k + 52) = m * 2 ^ k * 2 ^ 52 := by
    rw [Nat.shiftLeft_eq, Nat.pow_add, Nat.mul_assoc]
  have hround := roundWithAccuracy_exact hm h s k
  rw [unpack_one, div, divCore, hsign, hk, hshift, hscaled]
  dsimp only
  rw [Nat.mul_div_cancel _ (Nat.two_pow_pos 52), Nat.mul_mod_left]
  exact hround

/-- A finite double is a zero, or a mantissa on the grid. -/
theorem finite_cases {a : Float} (ha : a.isFinite = true) :
    (∃ s, a.toModel.unpack = .zero s) ∨
      ∃ s m e hm, a.toModel.unpack = .finite s m e hm ∧ OnGrid m e := by
  replace ha : a.toModel.unpack.isFinite = true := ha
  cases hu : a.toModel.unpack with
  | zero s => exact .inl ⟨s, rfl⟩
  | finite s m e hm => exact .inr ⟨s, m, e, hm, rfl, onGrid_of_unpack hu⟩
  | infinity | notANumber =>
      rw [hu] at ha
      contradiction

/-- An operation that keeps what is on the grid, and a zero but for its sign, keeps every finite
double. -/
theorem alike_of_exact (f : UnpackedFloat → UnpackedFloat) {a : Float} (ha : a.isFinite = true)
    (hzero : ∀ s, unsigned (f (.zero s)) = .zero .positive)
    (hfinite : ∀ s m e hm, OnGrid m e → f (.finite s m e hm) = .finite s m e hm) :
    Alike (.ofModel (.pack (f a.toModel.unpack))) a := by
  refine alike_of_unsigned ?_
  rcases finite_cases ha with ⟨s, hs⟩ | ⟨s, m, e, hm, hs, hgrid⟩
  · rw [hs, hzero]
    rfl
  · rw [hs, hfinite s m e hm hgrid]

section

variable {a : Float} (ha : a.isFinite = true)
include ha

theorem alike_zero_add : Alike (Float.ofInt 0 + a) a :=
  alike_of_exact (add .binary64 (.zero .positive)) ha (fun s => by cases s <;> rfl)
    fun _ _ _ _ _ => rfl

theorem alike_add_zero : Alike (a + Float.ofInt 0) a :=
  alike_of_exact (add .binary64 · (.zero .positive)) ha (fun s => by cases s <;> rfl)
    fun _ _ _ _ _ => rfl

theorem alike_sub_zero : Alike (a - Float.ofInt 0) a :=
  alike_of_exact (sub .binary64 · (.zero .positive)) ha (fun s => by cases s <;> rfl)
    fun _ _ _ _ _ => rfl

theorem alike_one_mul : Alike (Float.ofInt 1 * a) a :=
  alike_of_exact (mul .binary64 (Float.ofInt 1).toModel.unpack) ha (fun s => by cases s <;> rfl)
    fun s _ _ hm hgrid => one_mul_exact hm hgrid s

theorem alike_mul_one : Alike (a * Float.ofInt 1) a :=
  alike_of_exact (mul .binary64 · (Float.ofInt 1).toModel.unpack) ha (fun s => by cases s <;> rfl)
    fun s _ _ hm hgrid => mul_one_exact hm hgrid s

theorem alike_div_one : Alike (a / Float.ofInt 1) a :=
  alike_of_exact (div .binary64 · (Float.ofInt 1).toModel.unpack) ha (fun s => by cases s <;> rfl)
    fun s _ _ hm hgrid => div_one_exact hm hgrid s

theorem alike_zero_mul : Alike (Float.ofInt 0 * a) (Float.ofInt 0) := by
  refine alike_of_unsigned ?_
  rcases finite_cases ha with ⟨s, hs⟩ | ⟨s, m, e, hm, hs, -⟩
  · rw [hs]
    rfl
  · rw [hs]
    rfl

theorem alike_mul_zero : Alike (a * Float.ofInt 0) (Float.ofInt 0) := by
  refine alike_of_unsigned ?_
  rcases finite_cases ha with ⟨s, hs⟩ | ⟨s, m, e, hm, hs, -⟩
  · rw [hs]
    rfl
  · rw [hs]
    rfl

end

end GraphCalc.Number
