/-!
# GraphCalc.Text.Blank

Blank characters, and the two ways of reading a text up to them.

* `strip` — the text without the blanks at its ends;
* `words` — the maximal runs of other characters, in order.

`words` skips blanks and then takes a run, so what it still has to read gets shorter at each word.
-/

namespace GraphCalc.Text

/-! ## the class -/

/-- The blank characters: every separator of words, lines and paragraphs that Unicode knows, and the
control characters that act as one.  The zero-width space is none of them. -/
def isBlank (c : Char) : Bool :=
  let n := c.toNat
  n == 0x20 || (0x09 ≤ n && n ≤ 0x0D) || (0x1C ≤ n && n ≤ 0x1F) || n == 0x85 || n == 0xA0
    || n == 0x1680 || (0x2000 ≤ n && n ≤ 0x200A) || n == 0x2028 || n == 0x2029 || n == 0x202F
    || n == 0x205F || n == 0x3000

/-! ## reading up to a blank -/

/-- The text from its first character that is not blank. -/
def stripLeft (cs : List Char) : List Char := cs.dropWhile isBlank

/-- The text without the blanks at its ends. -/
def strip (cs : List Char) : List Char := (stripLeft (stripLeft cs).reverse).reverse

/-- Taking a word off a text that starts with one leaves less than the text. -/
theorem length_dropWhile_word_lt {cs : List Char} {c : Char} {rest : List Char}
    (h : stripLeft cs = c :: rest) :
    (rest.dropWhile (!isBlank ·)).length < cs.length := by
  have h1 := (List.dropWhile_sublist (!isBlank ·) (l := rest)).length_le
  have h2 := (List.dropWhile_sublist isBlank (l := cs)).length_le
  rw [show cs.dropWhile isBlank = c :: rest from h] at h2
  simp only [List.length_cons] at h2
  omega

/-- The maximal runs of characters that are not blank. -/
def words (cs : List Char) : List (List Char) :=
  match _h : stripLeft cs with
  | [] => []
  | c :: rest => (c :: rest.takeWhile (!isBlank ·)) :: words (rest.dropWhile (!isBlank ·))
termination_by cs.length
decreasing_by exact length_dropWhile_word_lt ‹_›

end GraphCalc.Text
