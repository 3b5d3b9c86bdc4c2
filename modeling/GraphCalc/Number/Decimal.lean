import GraphCalc.Number.Binary

/-!
# GraphCalc.Number.Decimal

Decimal magnitudes `digits · 10 ^ exponent`, and the way between them and doubles.

* `Decimal.nearestBits` — the double a decimal reads as;
* `Binary.toDecimal` — the decimal that a double is equal to;
* `shortest` — the decimal with the fewest digits that reads as a double.

Every finite double is a decimal with finitely many digits, because `2 ^ -k = 5 ^ k · 10 ^ -k`.  The
candidates with fewer digits are therefore its two neighbours on each coarser decimal grid, and
whether a candidate will do is decided by reading it back.
-/

namespace GraphCalc.Number

/-- `digits · 10 ^ exponent`. -/
structure Decimal where
  digits : Nat
  exponent : Int
deriving DecidableEq

/-- How many decimal digits `n` is written with. -/
def digitCount (n : Nat) : Nat := (Nat.toDigits 10 n).length

namespace Decimal

/-! ## reading -/

/-- The magnitude bits of the nearest double.

The value lies in `[10 ^ (top - 1), 10 ^ top)`.  From `10 ^ 309` on every value is beyond the largest
double by more than half a step, and below `10 ^ -324` every value is less than half of the smallest,
so that an exponent of any size is answered without computing its power. -/
def nearestBits (d : Decimal) : Nat :=
  let top := digitCount d.digits + d.exponent
  if d.digits = 0 then 0
  else if 310 ≤ top then infinityBits
  else if top ≤ -324 then 0
  else Number.nearestBits (d.digits * Nat.pow 10 d.exponent.toNat) (Nat.pow 10 (-d.exponent).toNat)

/-- The same value without zeros at the end of its digits. -/
def trim (d : Decimal) : Decimal :=
  let zeros := ((Nat.toDigits 10 d.digits).reverse.takeWhile (· == '0')).length
  if d.digits = 0 then ⟨0, 0⟩ else ⟨d.digits / Nat.pow 10 zeros, d.exponent + zeros⟩

end Decimal

/-- The decimal equal to a magnitude. -/
def Binary.toDecimal (b : Binary) : Decimal :=
  if 0 ≤ b.exponent then ⟨b.mantissa <<< b.exponent.toNat, 0⟩
  else ⟨b.mantissa * Nat.pow 5 (-b.exponent).toNat, b.exponent⟩

/-! ## the fewest digits -/

/-- The two neighbours of `d` on the grid that is coarser by `drop` digits, the nearer one first; if
both are as near, the even one. -/
def Decimal.neighbours (d : Decimal) (drop : Nat) : List Decimal :=
  let unit := Nat.pow 10 drop
  let low := d.digits / unit
  let rest := d.digits % unit
  let below : Decimal := ⟨low, d.exponent + drop⟩
  let above : Decimal := ⟨low + 1, d.exponent + drop⟩
  if 2 * rest < unit || (2 * rest == unit && low % 2 == 0) then [below, above] else [above, below]

/-- Of the decimals that read as the magnitude `bits`, which `d` is equal to, the one with the fewest
digits, and of those the nearest.  Seventeen digits are always enough. -/
def Decimal.shortest (bits : Nat) (d : Decimal) : Decimal :=
  let count := digitCount d.digits
  let candidate (kept : Nat) : Option Decimal :=
    if kept < count then
      (d.neighbours (count - kept)).find? fun c => c.nearestBits == bits
    else none
  (((List.range' 1 17).findSome? candidate).getD d).trim

end GraphCalc.Number
