import GraphCalc.Number.Numeral
import GraphCalc.Proofs.Text.Runs

/-!
# GraphCalc.Proofs.Number.Numeral

What numerals read as.

A numeral is put together from an optional sign, digits, an optional period with digits after it,
and an exponent part.

* `parse?_spelled` — the parts are found again, so the value of the text is the value of its parts;
* `parse?_eq_some_iff` — nothing but what is put together from such parts is read;
* `Plain.read?_eq`, `plain_of_read?` — of the texts without signs and letters exactly the plain
  decimals are read, and each as the double nearest to it.
-/

namespace GraphCalc.Number

open Text

namespace Numeral

/-! ## parts -/

/-- A period with the digits after it, or nothing. -/
def pointed : Option (List Char) → List Char
  | none => []
  | some fraction => '.' :: fraction

/-- All characters are ASCII digits. -/
def Digits (cs : List Char) : Prop := ∀ c ∈ cs, c.isDigit = true

instance (cs : List Char) : Decidable (Digits cs) :=
  decidable_of_iff (cs.all Char.isDigit = true) List.all_eq_true

theorem takeSign_eq_self {cs : List Char} (h : ∀ c ∈ cs.head?, c ≠ '-' ∧ c ≠ '+') :
    takeSign cs = (false, cs) := by
  unfold takeSign
  split
  · exact absurd rfl (h '-' rfl).1
  · exact absurd rfl (h '+' rfl).2
  · rfl

/-- Behind the digits in front, the fraction is found. -/
theorem takeFraction_pointed {fraction : Option (List Char)} {tail : List Char}
    (hdigits : Digits (fraction.getD []))
    (hstop : ∀ c ∈ tail.head?, c.isDigit = false ∧ c ≠ '.') :
    takeFraction (pointed fraction ++ tail) = (fraction.getD [], tail) := by
  cases fraction with
  | none =>
      cases tail with
      | nil => rfl
      | cons c tail =>
          have hc := (hstop c rfl).2
          simp [pointed, takeFraction, hc]
  | some fraction =>
      have htake := takeWhile_append_of_stop hdigits fun c hc => (hstop c hc).1
      have hdrop := dropWhile_append_of_stop hdigits fun c hc => (hstop c hc).1
      rw [Option.getD_some] at htake hdrop
      simp [pointed, takeFraction, htake, hdrop]

/-! ## reading -/

/-- The parts of a numeral are found again. -/
theorem parse?_spelled {negative : Bool} {cs whole tail : List Char}
    {fraction : Option (List Char)} {e : Int}
    (hsign : takeSign cs = (negative, whole ++ (pointed fraction ++ tail)))
    (hwhole : Digits whole) (hfraction : Digits (fraction.getD []))
    (hne : whole ++ fraction.getD [] ≠ []) (htail : exponent? tail = some e)
    (hstop : ∀ c ∈ tail.head?, c.isDigit = false ∧ c ≠ '.') :
    parse? cs =
      some ⟨negative, natOfDigits (whole ++ fraction.getD []), e - (fraction.getD []).length⟩ := by
  have hhead : ∀ c ∈ (pointed fraction ++ tail).head?, c.isDigit = false := by
    cases fraction with
    | none => exact fun c hc => (hstop c hc).1
    | some fraction =>
        intro c hc
        cases hc
        rfl
  have htake := takeWhile_append_of_stop hwhole hhead
  have hdrop := dropWhile_append_of_stop hwhole hhead
  have hpoint := takeFraction_pointed hfraction hstop
  have hsome : (whole.isEmpty && (fraction.getD []).isEmpty) = false := by
    rw [← Bool.not_eq_true, Bool.and_eq_true, List.isEmpty_iff, List.isEmpty_iff]
    rintro ⟨hw, hf⟩
    exact hne (by rw [hw, hf]; rfl)
  simp only [parse?, hsign, htake, hdrop, hpoint, hsome, htail]
  rfl

/-! ## all numerals -/

/-- A sign in front of a numeral, which may be missing: its text, and whether it is a minus. -/
inductive Signed : List Char → Bool → Prop
  | none : Signed [] false
  | plus : Signed ['+'] false
  | minus : Signed ['-'] true

/-- The exponent part of a numeral, which may be missing: its text, and the exponent. -/
inductive Exponent : List Char → Int → Prop
  | none : Exponent [] 0
  | some {letter : Char} {sign digits : List Char} {negative : Bool}
      (isLetter : letter = 'e' ∨ letter = 'E') (signed : Signed sign negative)
      (areDigits : Digits digits) (nonempty : digits ≠ []) :
      Exponent (letter :: (sign ++ digits))
        (if negative then -(natOfDigits digits : Int) else natOfDigits digits)

/-- A numeral as it is written: a sign, digits with a period before, between or behind them, or
without one, and an exponent part.  The digits behind the period make up for it in the exponent. -/
inductive Spelled : List Char → Numeral → Prop
  | parts {sign whole tail : List Char} {fraction : Option (List Char)} {negative : Bool} {e : Int}
      (signed : Signed sign negative) (wholeDigits : Digits whole)
      (fractionDigits : Digits (fraction.getD [])) (nonempty : whole ++ fraction.getD [] ≠ [])
      (exponent : Exponent tail e) :
      Spelled (sign ++ (whole ++ (pointed fraction ++ tail)))
        ⟨negative, natOfDigits (whole ++ fraction.getD []), e - (fraction.getD []).length⟩

theorem Signed.takeSign_append {sign rest : List Char} {negative : Bool} (h : Signed sign negative)
    (hrest : ∀ c ∈ rest.head?, c ≠ '-' ∧ c ≠ '+') : takeSign (sign ++ rest) = (negative, rest) := by
  cases h with
  | none => exact takeSign_eq_self hrest
  | plus | minus => rfl

/-- The sign in front is one of the three. -/
theorem exists_signed (cs : List Char) :
    ∃ sign, Signed sign (takeSign cs).1 ∧ cs = sign ++ (takeSign cs).2 := by
  unfold takeSign
  split
  · exact ⟨_, .minus, rfl⟩
  · exact ⟨_, .plus, rfl⟩
  · exact ⟨_, .none, rfl⟩

/-- A digit and a period are no signs. -/
theorem not_sign {c : Char} (h : c.isDigit = true ∨ c = '.') : c ≠ '-' ∧ c ≠ '+' := by
  rcases h with hdigit | rfl
  · constructor <;> rintro rfl <;> contradiction
  · decide

theorem exponent?_eq_some_iff {cs : List Char} {e : Int} :
    exponent? cs = some e ↔ Exponent cs e := by
  constructor
  · intro h
    unfold exponent? at h
    split at h
    · rw [← Option.some.inj h]
      exact .none
    · next letter cs =>
      obtain ⟨sign, hsigned, hcs⟩ := exists_signed cs
      simp only [Option.ite_none_right_eq_some, Bool.and_eq_true, Bool.or_eq_true, beq_iff_eq,
        Bool.not_eq_true', List.isEmpty_eq_false_iff, List.all_eq_true, Option.some.injEq] at h
      obtain ⟨⟨⟨hletter, hne⟩, hdigits⟩, rfl⟩ := h
      rw [hcs]
      have hexponent := Exponent.some hletter hsigned hdigits hne
      rwa [← hcs] at hexponent ⊢
  · intro h
    cases h with
    | none => rfl
    | some hletter hsigned hdigits hne =>
        have htake := hsigned.takeSign_append fun c hc =>
          not_sign (.inl (hdigits c (List.mem_of_mem_head? hc)))
        have hall := List.all_eq_true.mpr hdigits
        simp only [exponent?, htake, hall]
        simp [hletter, hne]

/-- An exponent part does not go on with the digits before it. -/
theorem Exponent.stops {tail : List Char} {e : Int} (h : Exponent tail e) :
    ∀ c ∈ tail.head?, c.isDigit = false ∧ c ≠ '.' := by
  intro c hc
  cases h with
  | none => contradiction
  | some hletter =>
      obtain rfl := Option.some.inj hc
      rcases hletter with rfl | rfl <;> decide

/-- A period in front is taken off with the digits behind it. -/
theorem exists_pointed (cs : List Char) : ∃ (fraction : Option (List Char)) (rest : List Char),
    Digits (fraction.getD []) ∧ takeFraction cs = (fraction.getD [], rest) ∧
      cs = pointed fraction ++ rest := by
  unfold takeFraction
  split
  · next cs =>
    refine ⟨some (cs.takeWhile Char.isDigit), _, fun c hc => List.mem_takeWhile_imp hc, rfl, ?_⟩
    simp [pointed]
  · exact ⟨none, _, by simp [Digits], rfl, rfl⟩

/-- Without its sign a numeral starts with a digit or a period. -/
theorem head_unsigned {whole : List Char} {fraction : Option (List Char)} (hwhole : Digits whole)
    (hne : whole ++ fraction.getD [] ≠ []) (tail : List Char) :
    ∀ c ∈ (whole ++ (pointed fraction ++ tail)).head?, c.isDigit = true ∨ c = '.' := by
  intro c hc
  cases whole with
  | cons d whole =>
      cases hc
      exact .inl (hwhole c (by simp))
  | nil =>
      cases fraction with
      | none => exact absurd rfl hne
      | some fraction =>
          cases hc
          exact .inr rfl

theorem Spelled.parse?_eq {cs : List Char} {n : Numeral} (h : Spelled cs n) :
    parse? cs = some n := by
  obtain ⟨hsigned, hwhole, hfraction, hne, hexponent⟩ := h
  have hsign := fun tail =>
    hsigned.takeSign_append fun c hc => not_sign (head_unsigned hwhole hne tail c hc)
  exact parse?_spelled (hsign _) hwhole hfraction hne (exponent?_eq_some_iff.mpr hexponent)
    hexponent.stops

theorem Spelled.of_parse? {cs : List Char} {n : Numeral} (h : parse? cs = some n) :
    Spelled cs n := by
  obtain ⟨sign, hsigned, hcs⟩ := exists_signed cs
  obtain ⟨fraction, rest, hfraction, htake, hrest⟩ :=
    exists_pointed ((takeSign cs).2.dropWhile Char.isDigit)
  have hwhole : Digits ((takeSign cs).2.takeWhile Char.isDigit) :=
    fun c hc => List.mem_takeWhile_imp hc
  simp only [parse?, htake] at h
  split at h
  · contradiction
  next hne =>
  obtain ⟨e, hexponent, rfl⟩ := Option.map_eq_some_iff.mp h
  have hsome : (takeSign cs).2.takeWhile Char.isDigit ++ fraction.getD [] ≠ [] := by
    simpa [List.append_eq_nil_iff] using hne
  have hspelled := Spelled.parts hsigned hwhole hfraction hsome (exponent?_eq_some_iff.mp hexponent)
  rwa [← hrest, List.takeWhile_append_dropWhile, ← hcs] at hspelled

/-- Numerals are read, each as its parts, and nothing else is. -/
theorem parse?_eq_some_iff {cs : List Char} {n : Numeral} : parse? cs = some n ↔ Spelled cs n :=
  ⟨.of_parse?, Spelled.parse?_eq⟩

/-! ## plain decimals -/

/-- A plain decimal: ASCII digits, with a period between them or at either end, or none. -/
structure Plain (text whole : List Char) (fraction : Option (List Char)) : Prop where
  spelled : text = whole ++ pointed fraction
  wholeDigits : Digits whole
  fractionDigits : Digits (fraction.getD [])
  nonempty : whole ++ fraction.getD [] ≠ []

/-- The double nearest to the value of a plain decimal. -/
def plainValue (whole : List Char) (fraction : Option (List Char)) : Float :=
  ofMagnitude false
    (Decimal.nearestBits
      ⟨natOfDigits (whole ++ fraction.getD []), -((fraction.getD []).length : Int)⟩)

/-- A plain decimal starts with a digit or a period. -/
theorem Plain.head {text whole : List Char} {fraction : Option (List Char)}
    (h : Plain text whole fraction) : ∀ c ∈ text.head?, c.isDigit = true ∨ c = '.' := by
  have hhead := head_unsigned h.wholeDigits h.nonempty []
  rwa [List.append_nil, ← h.spelled] at hhead

theorem Plain.takeSign_eq {text whole : List Char} {fraction : Option (List Char)}
    (h : Plain text whole fraction) : takeSign text = (false, text) :=
  takeSign_eq_self fun c hc => not_sign (h.head c hc)

/-- A plain decimal is read as the double nearest to it. -/
theorem Plain.read?_eq {text whole : List Char} {fraction : Option (List Char)}
    (h : Plain text whole fraction) : read? text = some (plainValue whole fraction) := by
  have hsign : takeSign text = (false, whole ++ (pointed fraction ++ [])) := by
    rw [List.append_nil, ← h.spelled]
    exact h.takeSign_eq
  have hparse := parse?_spelled hsign h.wholeDigits h.fractionDigits h.nonempty
    (e := 0) rfl (by simp)
  rw [read?, hparse, Int.zero_sub]
  rfl

/-- Of the texts without signs and letters exactly the plain decimals are read. -/
theorem plain_of_read? {text : List Char} {v : Float}
    (hsign : ∀ c ∈ text.head?, c ≠ '-' ∧ c ≠ '+') (hletter : ∀ c ∈ text, c ≠ 'e' ∧ c ≠ 'E')
    (h : read? text = some v) : ∃ whole fraction, Plain text whole fraction := by
  obtain ⟨n, hparse, -⟩ := Option.map_eq_some_iff.mp h
  obtain ⟨hsigned, hwhole, hfraction, hne, hexponent⟩ := parse?_eq_some_iff.mp hparse
  cases hsigned with
  | plus => exact absurd rfl (hsign '+' rfl).2
  | minus => exact absurd rfl (hsign '-' rfl).1
  | none =>
      cases hexponent with
      | none => exact ⟨_, _, by simp, hwhole, hfraction, hne⟩
      | @some letter _ _ _ hletters =>
          -- an exponent part would start with a letter
          obtain ⟨he, hE⟩ := hletter letter (by simp)
          exact absurd hletters (not_or_intro he hE)

end Numeral

end GraphCalc.Number
