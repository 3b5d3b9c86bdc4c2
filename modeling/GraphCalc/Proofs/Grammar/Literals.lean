import GraphCalc.Proofs.Grammar.Rendered
import GraphCalc.Proofs.Token.Spans

/-!
# GraphCalc.Proofs.Grammar.Literals

Numbers as tokens and numbers as numerals.

Cutting a line into tokens takes every run of digits with at most one period for a number, whatever
script the digits are of.  Reading a numeral knows ASCII digits only, but also signs and exponents,
which are no part of such a token.  In between the two agree.

* `exists_plain_iff` — the text of a number is a numeral exactly if its digits are ASCII digits;
* `quoted_of_ofItems` — a token that a line is refused for as standing for nothing is no numeral;
* `literals_agree` — so a number is refused for a digit beyond ASCII only, and a numeral without a
  sign and an exponent is one number, which is the same constant in both notations.
-/

namespace GraphCalc

open Text Number Number.Numeral Item

/-! ## texts of numbers -/

/-- The digits of the text are ASCII digits. -/
def AsciiDigits (text : List Char) : Prop := ∀ c ∈ text, isDigit c = true → c.toNat < 128

theorem ascii_of_isDigit {c : Char} (h : c.isDigit = true) : c.toNat < 128 := by
  simp only [Char.isDigit, UInt32.le_iff_toNat_le, Bool.and_eq_true, decide_eq_true_eq] at h
  have hle : c.toNat ≤ 57 := h.2
  omega

namespace Number.Numeral

variable {text whole : List Char} {fraction : Option (List Char)}

/-- A plain decimal is made of digits and periods. -/
theorem Plain.chars (h : Plain text whole fraction) :
    ∀ c ∈ text, c.isDigit = true ∨ c = '.' := by
  intro c hc
  rw [h.spelled, List.mem_append] at hc
  cases fraction with
  | none => exact .inl (h.wholeDigits c (hc.resolve_right List.not_mem_nil))
  | some fraction =>
      rw [pointed, List.mem_cons] at hc
      rcases hc with hwhole | hpoint | hfraction
      · exact .inl (h.wholeDigits c hwhole)
      · exact .inr hpoint
      · exact .inl (h.fractionDigits c hfraction)

/-- Digits and periods are ASCII characters, no blanks, and have no other case. -/
theorem Plain.settled (h : Plain text whole fraction) : Expr.Settled text := by
  have hascii : ∀ c ∈ text, c.toNat < 128 := by
    intro c hc
    rcases h.chars c hc with hdigit | rfl
    · exact ascii_of_isDigit hdigit
    · decide
  have hclass : ∀ c ∈ text, isBlank c = false ∧ c.toLower = c := fun c hc =>
    forall_ascii (P := fun c => c.isDigit = true ∨ c = '.' → isBlank c = false ∧ c.toLower = c)
      (by decide) (hascii c hc) (h.chars c hc)
  have hne := (formed_of_plain h).ne_nil
  exact ⟨hne, hascii, fun c hc => (hclass c hc).1, fun c hc => (hclass c hc).2⟩

/-- The text of a number is a plain decimal exactly if its digits are ASCII digits. -/
theorem exists_plain_iff (h : Token.Formed .number text) :
    (∃ whole fraction, Plain text whole fraction) ↔ AsciiDigits text := by
  obtain ⟨hclasses, hperiods, d, hd, hdigit⟩ := Token.formed_number_iff.mp h
  constructor
  · rintro ⟨whole, fraction, hplain⟩ c hc -
    exact hplain.settled.ascii c hc
  · intro hascii
    have hchars : ∀ c ∈ text, c.isDigit = true ∨ c = '.' := fun c hc =>
      (hclasses c hc).imp_left fun hdigit => by
        rwa [isDigit_of_ascii (hascii c hc hdigit)] at hdigit
    have hsplit := List.takeWhile_append_dropWhile (p := Char.isDigit) (l := text)
    have hwhole : Digits (text.takeWhile Char.isDigit) := fun c hc => List.mem_takeWhile_imp hc
    have hstop := head?_dropWhile_stop Char.isDigit text
    cases hrest : text.dropWhile Char.isDigit with
    | nil =>
        rw [hrest, List.append_nil] at hsplit
        have hne : text.takeWhile Char.isDigit ++ [] ≠ [] := by
          rw [List.append_nil, hsplit]
          exact h.ne_nil
        exact ⟨_, none, by rw [pointed, List.append_nil, hsplit], hwhole, by simp [Digits], hne⟩
    | cons point fraction =>
        rw [hrest] at hsplit hstop
        have hmem : ∀ c ∈ point :: fraction, c ∈ text := fun c hc => by
          rw [← hsplit]
          exact List.mem_append_right _ hc
        have hpoint : point = '.' :=
          (hchars point (hmem point (by simp))).resolve_left (by simp [hstop point rfl])
        subst hpoint
        -- the period that ends the digits is the only one
        have hnone : '.' ∉ fraction := by
          rw [← hsplit, List.count_append, List.count_cons_self] at hperiods
          exact List.count_eq_zero.mp (by omega)
        have hfraction : Digits fraction := fun c hc =>
          (hchars c (hmem c (by simp [hc]))).resolve_right fun hperiod => hnone (hperiod ▸ hc)
        refine ⟨_, some fraction, hsplit.symm, hwhole, hfraction, fun hnil => ?_⟩
        -- without digits around it the period would be alone
        obtain ⟨hleft, hright⟩ := List.append_eq_nil_iff.mp hnil
        rw [Option.getD_some] at hright
        rw [← hsplit, hleft, hright, List.nil_append, List.mem_singleton] at hd
        rw [hd] at hdigit
        revert hdigit
        decide

/-- The text of a number is a numeral exactly if its digits are ASCII digits. -/
theorem read?_isSome_iff (h : Token.Formed .number text) :
    (read? text).isSome = true ↔ AsciiDigits text := by
  rw [← exists_plain_iff h]
  constructor
  · intro hsome
    obtain ⟨v, hread⟩ := Option.isSome_iff_exists.mp hsome
    obtain ⟨hsign, hletter⟩ := bare_of_formed_number h
    exact plain_of_read? hsign hletter hread
  · rintro ⟨whole, fraction, hplain⟩
    rw [hplain.read?_eq]
    rfl

end Number.Numeral

/-! ## tokens that stand for nothing -/

/-- A called name is a word of the whole. -/
theorem Outline.Top.call_mem {items argument : List Item} {name : Token}
    (h : Top items (.call name argument)) : name ∈ flatten items ∧ name.kind = .word := by
  generalize hcall : Outline.call name argument = outline at h
  induction h with
  | parentheses _ ih => simp [ih hcall]
  | positive _ _ _ _ _ ih => simp [ih hcall]
  | call hword =>
      cases hcall
      exact ⟨by simp, hword⟩
  | sum | product | negative | power | single => contradiction

/-- The operands come from a line as the whole does. -/
theorem Scanned.operand {items : List Item} {outline : Outline} (h : Scanned items)
    (htop : Outline.Top items outline) : ∀ operand ∈ outline.operands, Scanned operand :=
  fun operand hoperand => ⟨htop.wellNested_operand h.nested operand hoperand,
    fun t ht => h.formed t ((htop.infix_operand operand hoperand).subset ht)⟩

namespace Expr

variable {line text : List Char}

/-- A token that is refused as standing for nothing is no numeral. -/
theorem read?_of_ofToken {t : Token} (h : ofToken t = .error (.unknownToken text)) :
    t.text = text ∧ read? text = none := by
  unfold ofToken at h
  split at h
  · contradiction
  · split at h
    · contradiction
    · next hread =>
      cases h
      exact ⟨rfl, hread⟩

/-- A called name that is refused as standing for nothing is quoted. -/
theorem eq_of_callee {name : List Char} (h : callee name = .error (.unknownToken text)) :
    name = text := by
  unfold callee at h
  split at h
  · split at h <;> simp at h
  · cases h
    rfl

/-- A flaw is a matter of how tokens are put together, and quotes none of them. -/
theorem refusal_ne_unknownToken (flaw : Flaw) (window : Window) :
    flaw.refusal line window ≠ .unknownToken text := by
  cases flaw <;> simp [Flaw.refusal]

/-- What is refused as standing for nothing is a token of the line, and no numeral. -/
theorem quoted_of_ofItems {n : Nat} {window : Window} {items : List Item} (hitems : Scanned items)
    (h : ofItems line n window items = .error (.unknownToken text)) :
    (∃ t ∈ flatten items, t.text = text) ∧ read? text = none := by
  induction n generalizing window items with
  | zero => simp [ofItems] at h
  | succ n ih =>
      rw [ofItems_succ] at h
      cases houtline : Outline.ofItems (n + 1) items with
      | error flaw =>
          rw [houtline] at h
          exact absurd (Except.error.inj h) (refusal_ne_unknownToken flaw window)
      | ok outline =>
          rw [houtline] at h
          have htop := Outline.top_of_ofItems houtline
          have hoperand : ∀ operand ∈ outline.operands,
              ofItems line n (Item.window operand) operand = .error (.unknownToken text) →
              (∃ t ∈ flatten items, t.text = text) ∧ read? text = none := by
            intro operand hmem hrefused
            obtain ⟨⟨t, ht, htext⟩, hnone⟩ := ih (hitems.operand htop operand hmem) hrefused
            exact ⟨⟨t, (htop.infix_operand operand hmem).subset ht, htext⟩, hnone⟩
          cases outline with
          | single t =>
              obtain ⟨htext, hnone⟩ := read?_of_ofToken h
              exact ⟨⟨t, htop.single_mem, htext⟩, hnone⟩
          | call name argument =>
              obtain ⟨hname, hword⟩ := htop.call_mem
              simp only [ofOutline] at h
              split at h
              · contradiction
              · rcases bind_eq_error.mp h with hcallee | ⟨fn, -, h⟩
                · have htext := eq_of_callee hcallee
                  have hformed := hitems.formed name hname
                  rw [hword, htext] at hformed
                  exact ⟨⟨name, hname, htext⟩, read?_word hformed⟩
                · rcases bind_eq_error.mp h with hargument | ⟨a, -, h⟩
                  · exact hoperand argument (by simp [Outline.operands]) hargument
                  · contradiction
          | negation operand =>
              rcases bind_eq_error.mp h with hinner | ⟨u, -, h⟩
              · exact hoperand operand (by simp [Outline.operands]) hinner
              · contradiction
          | binary op left right =>
              rcases bind_eq_error.mp h with hleft | ⟨l, -, h⟩
              · exact hoperand left (by simp [Outline.operands]) hleft
              · rcases bind_eq_error.mp h with hright | ⟨r, -, h⟩
                · exact hoperand right (by simp [Outline.operands]) hright
                · contradiction

theorem quoted_of_ofAlgebraic {levels : Nat}
    (h : ofAlgebraic levels line = .error (.unknownToken text)) : read? text = none := by
  unfold ofAlgebraic at h
  split at h
  · next flaw _ => exact absurd (Except.error.inj h) (refusal_ne_unknownToken flaw _)
  · next items hitems => exact (quoted_of_ofItems (scanned_of_ofLine hitems) h).2

end Expr

/-! ## numbers and numerals -/

/-- A numeral without a sign and an exponent is one number, and the same constant in both
notations. -/
theorem const_of_read? {line : List Char} {v : Float} (h : read? line = some v)
    (hsign : ∀ c ∈ line.head?, c ≠ '-' ∧ c ≠ '+') (hletter : ∀ c ∈ line, c ≠ 'e' ∧ c ≠ 'E') :
    Token.scan line = .ok [⟨.number, line, 0⟩] ∧
      (∀ levels, 0 < levels → Expr.ofAlgebraic levels line = .ok (.const v)) ∧
        Expr.ofReversePolish line = .ok (.const v) := by
  obtain ⟨whole, fraction, hplain⟩ := plain_of_read? hsign hletter h
  have hvalue : plainValue whole fraction = v := by
    rwa [hplain.read?_eq, Option.some.injEq] at h
  obtain ⟨hspells, hderives, hnone⟩ := tokens_plain hplain 0
  rw [hvalue] at hderives
  refine ⟨hspells.scanFrom_eq, fun levels hlevels => ?_, ?_⟩
  · refine hderives.ofPrimary'.ofAlgebraic_eq hspells.scanFrom_eq ?_
    rw [hnone]
    exact hlevels
  · have hwords : words (line ++ []) = line :: words [] := hplain.settled.words_append (by simp)
    have hnil : words [] = [] := by rw [words]; rfl
    rw [List.append_nil, hnil] at hwords
    rw [Expr.ofReversePolish, hwords, List.map_singleton, hplain.settled.lower_eq,
      List.foldlM_cons, Expr.pushWord_numeral h]
    rfl

/-- Numbers and numerals agree.  A number of a line is a numeral exactly if its digits are ASCII
digits, and then it stands for the constant of its value: a number that is refused as standing for
nothing has another digit.  (It can still be out of place, which is not said of its text.)  A
numeral without a sign and an exponent is a line of one number, and the same constant in both
notations. -/
theorem literals_agree (line : List Char) :
    (∀ ts, Token.scan line = .ok ts → ∀ t ∈ ts, t.kind = .number →
      ((read? t.text).isSome = true ↔ AsciiDigits t.text) ∧
      (∀ v, read? t.text = some v → Expr.ofToken t = .ok (.const v)) ∧
      ∀ levels, Expr.ofAlgebraic levels line = .error (.unknownToken t.text) →
        ¬AsciiDigits t.text) ∧
    ∀ v, read? line = some v → (∀ c ∈ line.head?, c ≠ '-' ∧ c ≠ '+') →
      (∀ c ∈ line, c ≠ 'e' ∧ c ≠ 'E') →
      Token.scan line = .ok [⟨.number, line, 0⟩] ∧
        (∀ levels, 0 < levels → Expr.ofAlgebraic levels line = .ok (.const v)) ∧
          Expr.ofReversePolish line = .ok (.const v) := by
  refine ⟨fun ts hscan t ht hk => ?_, fun v hread hsign hletter =>
    const_of_read? hread hsign hletter⟩
  have hformed := (Token.scanFrom_eq_ok_iff.mp hscan).formed t ht
  rw [hk] at hformed
  refine ⟨read?_isSome_iff hformed, fun v hread => ?_, fun levels hrefused hascii => ?_⟩
  · obtain ⟨hsign, hletter⟩ := bare_of_formed_number hformed
    obtain ⟨whole, fraction, hplain⟩ := plain_of_read? hsign hletter hread
    rw [hplain.read?_eq, Option.some.injEq] at hread
    rw [ofToken_number hplain, hread]
  · have hnumeral := (read?_isSome_iff hformed).mpr hascii
    rw [Expr.quoted_of_ofAlgebraic hrefused] at hnumeral
    contradiction

/-- In `1²` the superscript is a digit and the line one number, which is no numeral; `.5` is a
numeral, and the half in both notations. -/
theorem literals_agree_superscript_and_half :
    let squared : Token := ⟨.number, ['1', '²'], 0⟩
    let half := ofMagnitude false (1022 <<< 52)
    (Token.scan ['1', '²'] = .ok [squared] ∧
      Expr.ofAlgebraic 1 ['1', '²'] = .error (.unknownToken ['1', '²']) ∧
      ¬AsciiDigits ['1', '²'] ∧ (read? ['1', '²']).isSome = false) ∧
    read? ['.', '5'] = some half ∧ Token.scan ['.', '5'] = .ok [⟨.number, ['.', '5'], 0⟩] ∧
      Expr.ofAlgebraic 1 ['.', '5'] = .ok (.const half) ∧
      Expr.ofReversePolish ['.', '5'] = .ok (.const half) := by
  intro squared half
  have hformed : Token.Formed .number ['1', '²'] :=
    .number (by decide) (List.all_eq_true.mp (by decide)) (by decide) (by decide)
  have hscan : Token.scan ['1', '²'] = .ok [squared] :=
    Token.Spells.scanFrom_eq (.token hformed (by simp) .nil)
  have hnested : WellNested [.token squared] := .token (by decide) (by decide) .nil
  have hitems : Item.ofLine ['1', '²'] = .ok [.token squared] :=
    ofLine_eq_ok_iff.mpr ⟨hnested, hscan⟩
  have houtline := (Outline.Top.single (t := squared) (by simp [squared])).ofItems_eq (n := 1)
    hnested (by decide)
  have hrefused : Expr.ofAlgebraic 1 ['1', '²'] = .error (.unknownToken ['1', '²']) := by
    simp only [Expr.ofAlgebraic, hitems, Expr.ofItems_of_outline houtline]
    rfl
  have hhalf : read? ['.', '5'] = some half := by decide +kernel
  obtain ⟨hnumbers, -⟩ := literals_agree ['1', '²']
  obtain ⟨hiff, -, honly⟩ := hnumbers [squared] hscan squared (List.mem_singleton_self _) rfl
  have hnot : ¬AsciiDigits ['1', '²'] := honly 1 hrefused
  have hnone : (read? ['1', '²']).isSome = false := by
    rw [← Bool.not_eq_true]
    exact fun h => hnot (hiff.mp h)
  obtain ⟨hscanHalf, halgebraic, hpolish⟩ :=
    (literals_agree ['.', '5']).2 half hhalf (by simp) (by simp)
  exact ⟨⟨hscan, hrefused, hnot, hnone⟩, hhalf, hscanHalf, halgebraic 1 Nat.one_pos, hpolish⟩

end GraphCalc
