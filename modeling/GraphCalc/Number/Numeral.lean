import GraphCalc.Number.Decimal

/-!
# GraphCalc.Number.Numeral

Numerals, the texts that stand for a number:

```
numeral  = [sign] mantissa [exponent]
mantissa = digits [. [digits]] | . digits
exponent = (e | E) [sign] digits
```

All digits are ASCII.  There are no names for an infinity or a NaN and no separators inside the
digits.
-/

namespace GraphCalc.Number

/-- A numeral that has been read: its sign and its magnitude. -/
structure Numeral where
  negative : Bool
  magnitude : Decimal
deriving DecidableEq

namespace Numeral

/-! ## parts -/

/-- The number that a run of digits spells. -/
def natOfDigits (cs : List Char) : Nat :=
  cs.foldl (fun n c => 10 * n + (c.toNat - '0'.toNat)) 0

/-- An optional sign in front: whether it was a minus, and the rest. -/
def takeSign : List Char → Bool × List Char
  | '-' :: cs => (true, cs)
  | '+' :: cs => (false, cs)
  | cs => (false, cs)

/-- The whole of `cs` as an exponent part, which may be missing. -/
def exponent? (cs : List Char) : Option Int :=
  match cs with
  | [] => some 0
  | c :: cs =>
    let (negative, digits) := takeSign cs
    if (c == 'e' || c == 'E') && !digits.isEmpty && digits.all Char.isDigit then
      some (if negative then -(natOfDigits digits : Int) else natOfDigits digits)
    else none

/-- A period and the digits after it, which may both be missing: the digits, and the rest. -/
def takeFraction : List Char → List Char × List Char
  | '.' :: cs => (cs.takeWhile Char.isDigit, cs.dropWhile Char.isDigit)
  | cs => ([], cs)

/-! ## reading -/

/-- The whole of `cs` as a numeral. -/
def parse? (cs : List Char) : Option Numeral :=
  let (negative, unsigned) := takeSign cs
  let whole := unsigned.takeWhile Char.isDigit
  let (fraction, rest) := takeFraction (unsigned.dropWhile Char.isDigit)
  if whole.isEmpty && fraction.isEmpty then none
  else (exponent? rest).map fun e =>
    ⟨negative, natOfDigits (whole ++ fraction), e - fraction.length⟩

/-- The double a numeral stands for: the nearest one, a minus sign being kept by a zero. -/
def toFloat (n : Numeral) : Float := ofMagnitude n.negative n.magnitude.nearestBits

end Numeral

/-- The double that the whole of `cs` stands for. -/
def read? (cs : List Char) : Option Float := (Numeral.parse? cs).map Numeral.toFloat

end GraphCalc.Number
