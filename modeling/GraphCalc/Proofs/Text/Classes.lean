import Mathlib.Data.List.Basic
import GraphCalc.Text.Blank
import GraphCalc.Text.Lowercase
import GraphCalc.Token

/-!
# GraphCalc.Proofs.Text.Classes

How the classes of characters meet.

* No character of a token is blank (`not_isBlank_of_inNumber`, `not_isBlank_of_continuesWord`,
  `not_isBlank_of_single?`).
* A word is the lower-case form of plain letters only if it is made of those letters itself
  (`lower_eq_iff_of_plain`): no letter beyond ASCII has a lower-case form that a name of this
  language could contain.
-/

namespace GraphCalc.Text

/-! ## blanks -/

/-- The code points of the blank characters. -/
def blankPoints : List Nat :=
  [0x20, 0x09, 0x0A, 0x0B, 0x0C, 0x0D, 0x1C, 0x1D, 0x1E, 0x1F, 0x85, 0xA0, 0x1680, 0x2000, 0x2001,
    0x2002, 0x2003, 0x2004, 0x2005, 0x2006, 0x2007, 0x2008, 0x2009, 0x200A, 0x2028, 0x2029, 0x202F,
    0x205F, 0x3000]

theorem toNat_mem_blankPoints {c : Char} (h : isBlank c = true) : c.toNat ∈ blankPoints := by
  simp only [isBlank, Bool.or_eq_true, Bool.and_eq_true, beq_iff_eq, decide_eq_true_eq] at h
  simp only [blankPoints, List.mem_cons, List.not_mem_nil, or_false]
  omega

/-- The blank characters are few enough to be looked at one by one. -/
theorem isBlank_eq_false_of {p : Char → Bool} (h : ∀ n ∈ blankPoints, p (Char.ofNat n) = false)
    {c : Char} (hc : p c = true) : isBlank c = false := by
  by_contra hb
  rw [Bool.not_eq_false] at hb
  have hn := h c.toNat (toNat_mem_blankPoints hb)
  rw [Char.ofNat_toNat, hc] at hn
  contradiction

theorem not_isBlank_of_inNumber {c : Char} (h : Token.inNumber c = true) : isBlank c = false :=
  isBlank_eq_false_of (by decide +kernel) h

theorem not_isBlank_of_continuesWord {c : Char} (h : continuesWord c = true) :
    isBlank c = false :=
  isBlank_eq_false_of (by decide +kernel) h

theorem not_isBlank_of_single? {c : Char} {kind : Token.Kind} (h : Token.single? c = some kind) :
    isBlank c = false :=
  isBlank_eq_false_of (p := fun c => (Token.single? c).isSome) (by decide +kernel) (by simp [h])

/-- An ASCII digit is a digit. -/
theorem isDigit_eq_false_of_isDigit {c : Char} (h : isDigit c = false) : c.isDigit = false := by
  by_cases hc : c.toNat < 128
  · rwa [isDigit_of_ascii hc] at h
  · simp only [Char.isDigit, UInt32.le_iff_toNat_le, Bool.and_eq_false_iff, decide_eq_false_iff_not]
    right
    show ¬ c.toNat ≤ 57
    omega

/-! ## lower case -/

/-- ASCII characters are few enough to be looked at one by one. -/
theorem forall_ascii {P : Char → Prop} (h : ∀ n < 128, P (Char.ofNat n)) {c : Char}
    (hc : c.toNat < 128) : P c := by
  have hp := h c.toNat hc
  rwa [Char.ofNat_toNat] at hp

/-- Beyond ASCII, letters are not lowered one by one. -/
theorem toLower_eq_self {c : Char} (h : 128 ≤ c.toNat) : c.toLower = c := by
  unfold Char.toLower
  rw [dif_neg]
  intro hup
  have h90 : c.toNat ≤ 90 := hup.2
  omega

/-- A plain letter: one that is the lower-case form of an ASCII letter only.  The one other letter
with such a form is the Kelvin sign, whose form is `k`. -/
def isPlain (c : Char) : Bool := c.isLower && c != 'k'

/-- A run of capitals beyond ASCII leads to ASCII only from the Kelvin sign. -/
theorem image_of_mem_capitalRuns {r : CapitalRun} (h : r ∈ capitalRuns) :
    128 ≤ r.image ∨ (r.first = r.last ∧ r.image = 'k'.toNat) := by
  revert r
  decide +kernel

theorem not_isPlain_of_lt {c : Char} (h : 128 ≤ c.toNat) : isPlain c = false := by
  have hl : c.isLower = false := by
    have hle : ¬c.toNat ≤ 122 := by omega
    exact Bool.and_eq_false_iff.mpr (.inr (decide_eq_false hle))
  simp [isPlain, hl]

/-- A character beyond ASCII has something else than plain letters in its lower-case form. -/
theorem exists_not_isPlain_of_lowerChar {c : Char} (h : 128 ≤ c.toNat) :
    ∃ d ∈ lowerChar c, isPlain d = false := by
  unfold lowerChar
  rw [if_neg (by omega)]
  split
  · exact ⟨'\u0307', by simp, by decide⟩
  · split
    · next r hr =>
      refine ⟨_, List.mem_singleton_self _, ?_⟩
      have hfound := List.find?_some hr
      simp only [Bool.and_eq_true, decide_eq_true_eq] at hfound
      rcases image_of_mem_capitalRuns (List.mem_of_find?_eq_some hr) with himage | ⟨hone, himage⟩
      · by_cases hv : (r.image + (c.toNat - r.first)).isValidChar
        · refine not_isPlain_of_lt ?_
          rw [Char.ofNat, dif_pos hv]
          show 128 ≤ r.image + (c.toNat - r.first)
          omega
        · rw [Char.ofNat, dif_neg hv]
          rfl
      · have hoff : c.toNat - r.first = 0 := by omega
        rw [himage, hoff]
        decide
    · exact ⟨c, by simp, not_isPlain_of_lt h⟩

/-- A text with a plain lower-case form is ASCII. -/
theorem ascii_of_lowerAfter_plain {cs before : List Char}
    (h : ∀ d ∈ lowerAfter before cs, isPlain d = true) : ∀ c ∈ cs, c.toNat < 128 := by
  induction cs generalizing before with
  | nil => simp
  | cons c cs ih =>
      simp only [lowerAfter, List.mem_append] at h
      intro d hd
      rcases List.mem_cons.mp hd with rfl | hd
      · by_contra hbig
        by_cases hs : (d == 'Σ') = true
        · rw [if_pos hs] at h
          have hsig := h _ (Or.inl (List.mem_singleton_self _))
          split at hsig <;> revert hsig <;> decide
        · rw [if_neg hs] at h
          obtain ⟨e, he, hne⟩ := exists_not_isPlain_of_lowerChar (c := d) (by omega)
          have := h e (Or.inl he)
          rw [hne] at this
          contradiction
      · exact ih (fun e he => h e (Or.inr he)) d hd

/-- Only ASCII letters are lowered to plain letters. -/
theorem lower_eq_iff_of_plain {cs target : List Char} (ht : ∀ d ∈ target, isPlain d = true) :
    lower cs = target ↔ cs.map Char.toLower = target := by
  constructor
  · intro h
    have hascii : ∀ c ∈ cs, c.toNat < 128 :=
      ascii_of_lowerAfter_plain fun d hd => ht d (h ▸ (show d ∈ lower cs from hd))
    rw [← h, lower_of_ascii hascii]
  · intro h
    have hascii : ∀ c ∈ cs, c.toNat < 128 := by
      intro c hc
      by_contra hbig
      have hl : Char.toLower c = c := toLower_eq_self (by omega)
      have hmem : c ∈ target := by
        rw [← h, ← hl]
        exact List.mem_map_of_mem hc
      have hp := ht c hmem
      rw [not_isPlain_of_lt (by omega)] at hp
      contradiction
    rw [lower_of_ascii hascii, h]

/-- A character that is lowered to a plain letter is a letter. -/
theorem isLetter_of_isPlain_toLower {c : Char} (h : isPlain c.toLower = true) :
    isLetter c = true := by
  by_cases hc : c.toNat < 128
  · revert h
    exact forall_ascii (P := fun c => isPlain c.toLower = true → isLetter c = true)
      (by decide +kernel) hc
  · rw [toLower_eq_self (by omega), not_isPlain_of_lt (by omega)] at h
    contradiction

/-- What is lowered to the same character is a letter, or not, alike. -/
theorem isLetter_toLower (c : Char) : isLetter c.toLower = isLetter c := by
  by_cases hc : c.toNat < 128
  · exact forall_ascii (P := fun c => isLetter c.toLower = isLetter c) (by decide +kernel) hc
  · rw [toLower_eq_self (by omega)]

/-- The characters of numbers have no case. -/
theorem toLower_of_inNumber {c : Char} (h : Token.inNumber c = true) : c.toLower = c := by
  by_cases hc : c.toNat < 128
  · exact forall_ascii (P := fun c => Token.inNumber c = true → c.toLower = c)
      (by decide +kernel) hc h
  · exact toLower_eq_self (by omega)

theorem toLower_eq_x_iff {c : Char} : c.toLower = 'x' ↔ c = 'x' ∨ c = 'X' := by
  by_cases hc : c.toNat < 128
  · exact forall_ascii (P := fun c => c.toLower = 'x' ↔ c = 'x' ∨ c = 'X') (by decide +kernel) hc
  · rw [toLower_eq_self (by omega)]
    constructor
    · exact .inl
    · rintro (rfl | rfl) <;> exact absurd (by decide) hc

end GraphCalc.Text
