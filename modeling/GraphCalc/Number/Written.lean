import GraphCalc.Number.Decimal

/-!
# GraphCalc.Number.Written

How numbers are written.

* `written` — the fewest digits that read back, positional from `10 ^ -4` up to `10 ^ 16` and with an
  exponent outside, a fraction always being shown in positional form: `5.0`, `0.0001`, `1e+16`,
  `1.5e-07`;
* `tidy` — the same, but a value that is an integer up to a small tolerance is written as that
  integer: `5`, `-3`, `0`.
-/

namespace GraphCalc.Number

/-! ## layout -/

/-- Where positional notation begins and ends, and how an exponent is filled up. -/
structure Layout where
  /-- The least decimal exponent that is written positionally. -/
  positionalFrom : Int
  /-- The least decimal exponent above those. -/
  positionalTo : Int
  /-- An exponent is filled with zeros to this many digits. -/
  exponentWidth : Nat

/-- Numbers are positional from `0.0001` to below `10 ^ 16`, and exponents have two digits or more. -/
def layout : Layout := ⟨-4, 16, 2⟩

/-- The digits in positional notation, the point standing after the first `point` of them. -/
def positional (digits : List Char) (point : Int) : List Char :=
  if point ≤ 0 then
    '0' :: '.' :: List.replicate (-point).toNat '0' ++ digits
  else
    let whole := point.toNat
    if digits.length ≤ whole then
      digits ++ List.replicate (whole - digits.length) '0' ++ ['.', '0']
    else digits.take whole ++ '.' :: digits.drop whole

/-- The digits with a decimal exponent, one of them before the point. -/
def scientific (digits : List Char) (exponent : Int) : List Char :=
  let power := Nat.toDigits 10 exponent.natAbs
  (match digits with
    | [] => []
    | [d] => [d]
    | d :: ds => d :: '.' :: ds)
    ++ 'e' :: (if exponent < 0 then '-' else '+')
    :: List.replicate (layout.exponentWidth - power.length) '0' ++ power

/-- A decimal magnitude, laid out by the size of its value. -/
def Decimal.written (d : Decimal) : List Char :=
  let digits := Nat.toDigits 10 d.digits
  let point := digits.length + d.exponent
  if layout.positionalFrom < point && point ≤ layout.positionalTo then positional digits point
  else scientific digits (point - 1)

/-! ## doubles -/

/-- A minus sign, or nothing. -/
def sign (negative : Bool) : List Char := if negative then ['-'] else []

/-- A double in the fewest digits that read back. -/
def written (v : Float) : List Char :=
  match Binary.ofFloat? v with
  | some b => sign b.negative ++ (b.toDecimal.shortest (magnitudeBits v)).written
  | none =>
    if magnitudeBits v = infinityBits then sign (isNegative v) ++ "inf".toList else "nan".toList

/-- Values this close to an integer are written as the integer: the double nearest to `10 ^ -10`. -/
def integerTolerance : Binary := ⟨false, 7737125245533627, -86⟩

/-- The magnitude lies within the tolerance of `n`. -/
def Binary.isNear (b : Binary) (n : Nat) : Bool :=
  let fine := 1 <<< (-b.exponent).toNat
  let scaled := b.mantissa <<< b.exponent.toNat
  let distance := (scaled - n * fine) + (n * fine - scaled)
  distance <<< (-integerTolerance.exponent).toNat < integerTolerance.mantissa * fine

/-- The nearest integer as a magnitude, for a value below `2 ^ 63` that lies within the tolerance of
it. -/
def Binary.nearInteger? (b : Binary) : Option Nat :=
  let n := b.roundMagnitude
  if b.mantissa <<< b.exponent.toNat < 1 <<< (63 + (-b.exponent).toNat) && b.isNear n then some n
  else none

/-- A double, written as an integer where it is one up to the tolerance.  There is no negative zero
among the integers. -/
def tidy (v : Float) : List Char :=
  match Binary.ofFloat? v with
  | none => written v
  | some b =>
    match b.nearInteger? with
    | some n => sign (b.negative && n != 0) ++ Nat.toDigits 10 n
    | none => written v

end GraphCalc.Number
