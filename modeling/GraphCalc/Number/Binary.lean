/-!
# GraphCalc.Number.Binary

A finite double as `± m · 2 ^ q`, and the double nearest to a fraction.

A double is sixty-four bits: the sign, an eleven-bit field and a fifty-two-bit fraction.  Read as one
number, the sixty-three bits below the sign grow with the magnitude, so a magnitude is handled as that
number throughout:

* `Binary.ofFloat?` — from a double to its sign, mantissa and exponent;
* `nearestBits` — from a fraction to the magnitude bits of the nearest double.
-/

namespace GraphCalc.Number

/-- `± mantissa · 2 ^ exponent`. -/
structure Binary where
  negative : Bool
  mantissa : Nat
  exponent : Int
deriving DecidableEq

/-! ## the bits of a double -/

/-- The magnitude bits of an infinity; those of a NaN are above it and those of a finite double below. -/
def infinityBits : Nat := 2047 <<< 52

/-- The sixty-three bits below the sign. -/
def magnitudeBits (v : Float) : Nat := v.toBits.toNat % (1 <<< 63)

/-- The sign bit, which a zero has as well. -/
def isNegative (v : Float) : Bool := 1 <<< 63 ≤ v.toBits.toNat

/-- The double with the given sign and magnitude bits. -/
def ofMagnitude (negative : Bool) (bits : Nat) : Float :=
  Float.ofBits (UInt64.ofNat (bits + if negative then 1 <<< 63 else 0))

/-- The value of a finite double; `none` for an infinity or a NaN.

The mantissa of a normal double has fifty-three bits, of which the first is not stored.  A double whose
field is zero has the exponent of the smallest normal ones and the fraction itself as its mantissa. -/
def Binary.ofFloat? (v : Float) : Option Binary :=
  let bits := magnitudeBits v
  let field : Nat := bits >>> 52
  if infinityBits ≤ bits then none
  else if field = 0 then some ⟨isNegative v, bits, -1074⟩
  else some ⟨isNegative v, bits % (1 <<< 52) + (1 <<< 52), field - 1075⟩

/-! ## rounding -/

/-- `num / den` rounded to the nearest integer, a half to the even neighbour. -/
def roundHalfEven (num den : Nat) : Nat :=
  let whole := num / den
  let rest := num % den
  if 2 * rest < den then whole
  else if den < 2 * rest then whole + 1
  else whole + whole % 2

/-- The fraction `num / den / 2 ^ q`, as a numerator and a denominator. -/
def scaleDown (num den : Nat) (q : Int) : Nat × Nat :=
  (num <<< (-q).toNat, den <<< q.toNat)

/-- The exponent of the grid on which `num / den` is rounded: the one that gives the quotient
fifty-three bits, but never below that of the subnormal doubles.

The quotient lies strictly between `2 ^ (a - b - 1)` and `2 ^ (a - b + 1)`, where `a` and `b` are the
binary logarithms of `num` and `den`, so one of two exponents is right. -/
def gridExponent (num den : Nat) : Int :=
  let q : Int := (num.log2 : Int) - den.log2 - 53
  let (n, d) := scaleDown num den q
  max (if n / d < (1 <<< 53) then q else q + 1) (-1074)

/-- The magnitude bits of the double nearest to `num / den`, a tie to the even mantissa.

The bits count the doubles from zero upwards, so a mantissa that is rounded up to `2 ^ 53` lands on the
first double with the next exponent by itself, and whatever passes the largest finite double is an
infinity. -/
def nearestBits (num den : Nat) : Nat :=
  if num = 0 then 0
  else
    let q := gridExponent num den
    let (n, d) := scaleDown num den q
    min (((q + 1074).toNat <<< 52) + roundHalfEven n d) infinityBits

/-! ## integers -/

/-- The greatest integer not above the value. -/
def Binary.floor (b : Binary) : Int :=
  let whole : Int := (b.mantissa <<< b.exponent.toNat : Nat)
  (if b.negative then -whole else whole) / (1 <<< (-b.exponent).toNat : Nat)

/-- The integer nearest to the magnitude, a half to the even neighbour. -/
def Binary.roundMagnitude (b : Binary) : Nat :=
  roundHalfEven (b.mantissa <<< b.exponent.toNat) (1 <<< (-b.exponent).toNat)

end GraphCalc.Number
