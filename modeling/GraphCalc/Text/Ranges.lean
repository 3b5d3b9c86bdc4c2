/-!
# GraphCalc.Text.Ranges

Sets of characters given as closed ranges of code points.  The tables that use it list the characters
beyond ASCII; what a class says of ASCII is written out beside its table, so that reasoning about
plain text never has to look into one.
-/

namespace GraphCalc.Text

/-- The character's code point lies in one of the closed ranges. -/
def inRanges (ranges : List (Nat × Nat)) (c : Char) : Bool :=
  ranges.any fun r => r.1 ≤ c.toNat && c.toNat ≤ r.2

end GraphCalc.Text
