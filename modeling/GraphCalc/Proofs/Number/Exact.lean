import GraphCalc.Proofs.Number.Written

/-!
# GraphCalc.Proofs.Number.Exact

Doubles that are shown exactly.

A double is shown exactly if its text is plain, which rules out an exponent and the names of the
infinities and of the NaN, and reads as this very double, which rules out a negative zero and a
double that was rounded for showing.  The text is then a plain decimal, or a minus sign and a plain
decimal:

* `Exact.positive` — a text without a sign is that of a double without one;
* `Exact.negative` — a text with a sign is that of a negative double, and the rest is the text of
  its magnitude.
-/

namespace GraphCalc.Number

open Numeral

/-- A text of digits and at most one period, with a minus sign in front or without one. -/
def PlainText (text : List Char) : Prop :=
  ∃ negative whole fraction, text = sign negative ++ (whole ++ pointed fraction) ∧ Digits whole ∧
    Digits (fraction.getD [])

/-- A double with a plain text, which is read as this very double. -/
structure Exact (v : Float) : Prop where
  plain : PlainText (tidy v)
  reads : read? (tidy v) = some v

/-! ## plain decimals -/

/-- The magnitude bits of a plain decimal. -/
def plainBits (whole : List Char) (fraction : Option (List Char)) : Nat :=
  Decimal.nearestBits
    ⟨natOfDigits (whole ++ fraction.getD []), -((fraction.getD []).length : Int)⟩

theorem plainBits_le (whole : List Char) (fraction : Option (List Char)) :
    plainBits whole fraction ≤ infinityBits := by
  rw [plainBits, Decimal.nearestBits_eq, nearest]
  split
  · exact Nat.zero_le _
  · exact Nat.min_le_right _ _

/-- A plain decimal with a sign is read as the double nearest to it. -/
theorem Numeral.Plain.read?_sign {body whole : List Char} {fraction : Option (List Char)}
    (h : Plain body whole fraction) (negative : Bool) :
    read? (sign negative ++ body) = some (ofMagnitude negative (plainBits whole fraction)) := by
  cases negative with
  | false => exact h.read?_eq
  | true =>
      have hsign : takeSign (sign true ++ body) = (true, whole ++ (pointed fraction ++ [])) := by
        rw [List.append_nil, ← h.spelled]
        rfl
      have hparse := parse?_spelled hsign h.wholeDigits h.fractionDigits h.nonempty (e := 0) rfl
        (by simp)
      rw [read?, hparse, Int.zero_sub]
      rfl

/-- A plain text that is read is a plain decimal, with a minus sign in front or without one. -/
theorem PlainText.exists_plain {text : List Char} {v : Float} (h : PlainText text)
    (hread : read? text = some v) : ∃ negative body whole fraction,
      text = sign negative ++ body ∧ Plain body whole fraction := by
  obtain ⟨negative, whole, fraction, rfl, hwhole, hfraction⟩ := h
  refine ⟨negative, _, whole, fraction, rfl, rfl, hwhole, hfraction, ?_⟩
  intro hnil
  obtain ⟨rfl, hempty⟩ := List.append_eq_nil_iff.mp hnil
  -- without any digit nothing is read
  cases fraction with
  | none => cases negative <;> contradiction
  | some fraction =>
      obtain rfl : fraction = [] := hempty
      cases negative <;> contradiction

/-! ## exact doubles -/

/-- What is read from its own text is finite. -/
theorem isFinite_of_read?_tidy {v w : Float} (h : read? (tidy v) = some w) : v.isFinite = true := by
  by_contra hfinite
  have hname := tidy_of_not_finite (Bool.not_eq_true _ ▸ hfinite)
  generalize tidy v = text at h hname
  simp only [names, List.mem_cons, List.not_mem_nil, or_false] at hname
  rcases hname with rfl | rfl | rfl <;> contradiction

/-- A double shown exactly is read from a plain decimal with its sign. -/
theorem Exact.exists_plain {v : Float} (h : Exact v) : ∃ negative body whole fraction,
    tidy v = sign negative ++ body ∧ Plain body whole fraction ∧
      v = ofMagnitude negative (plainBits whole fraction) := by
  obtain ⟨negative, body, whole, fraction, htext, hplain⟩ := h.plain.exists_plain h.reads
  have hread := hplain.read?_sign negative
  rw [← htext, h.reads] at hread
  exact ⟨negative, body, whole, fraction, htext, hplain, Option.some.inj hread⟩

/-- A double shown exactly without a sign bit is shown as a plain decimal. -/
theorem Exact.positive {v : Float} (h : Exact v) (hsign : isNegative v = false) :
    ∃ whole fraction, Plain (tidy v) whole fraction ∧ plainValue whole fraction = v := by
  obtain ⟨negative, body, whole, fraction, htext, hplain, hv⟩ := h.exists_plain
  rw [hv, isNegative_ofMagnitude (plainBits_le whole fraction)] at hsign
  subst hsign
  refine ⟨whole, fraction, ?_, hv.symm⟩
  rw [htext]
  exact hplain

/-- A double shown exactly with a sign bit is negative, and shown as a minus sign and a plain
decimal, which is read as its magnitude. -/
theorem Exact.negative {v : Float} (h : Exact v) (hsign : isNegative v = true) :
    v < 0 ∧ Float.ofInt 0 - ofMagnitude false (magnitudeBits v) = v ∧
      ∃ body whole fraction, tidy v = '-' :: body ∧ Plain body whole fraction ∧
        plainValue whole fraction = ofMagnitude false (magnitudeBits v) := by
  obtain ⟨negative, body, whole, fraction, htext, hplain, hv⟩ := h.exists_plain
  have hle := plainBits_le whole fraction
  have hlt := (isFinite_iff v).mp (isFinite_of_read?_tidy h.reads)
  have hnegative := isNegative_ofMagnitude hle negative
  have hbits := magnitudeBits_ofMagnitude hle negative
  rw [← hv] at hnegative hbits
  obtain rfl : negative = true := hnegative.symm.trans hsign
  have hpos : 0 < magnitudeBits v := by
    refine Nat.pos_of_ne_zero fun hzero => ?_
    -- a negative zero is shown without its sign
    have hshown : tidy (ofMagnitude true 0) = ['0'] := by decide +kernel
    rw [← hbits, hzero] at hv
    rw [hv, hshown] at htext
    exact absurd (List.cons.inj htext).1 (by decide)
  generalize hm : magnitudeBits v = bits at hpos hlt hbits
  rw [← hbits] at hv
  refine ⟨?_, ?_, body, whole, fraction, htext, hplain, ?_⟩
  · rw [hv]
    exact ofMagnitude_lt_zero hpos hlt
  · rw [hv]
    exact zero_sub_ofMagnitude hpos hlt
  · rw [hbits]
    rfl

end GraphCalc.Number
