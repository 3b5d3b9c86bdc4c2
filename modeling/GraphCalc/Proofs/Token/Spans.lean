import GraphCalc.Proofs.Item.Nesting
import GraphCalc.Proofs.Token.Spelling

/-!
# GraphCalc.Proofs.Token.Spans

The tokens of a line as parts of it, without a scanner.

`LexedFrom chars n spans` says of positions what scanning does with characters: the spans come in
order and do not overlap, each is a token of its kind that cannot be made longer, and what no span
covers is blank.

* `lexeme_iff` — a span of a kind is a text that a token of the kind can have, where its run stops;
* `Spells.lexedFrom`, `LexedFrom.spells` — the spans of a line are the places of its tokens.
-/

namespace GraphCalc.Token

open Text

/-! ## spans -/

/-- A part of a line that is taken for a token. -/
structure Span extends Window where
  kind : Kind

/-- The part of the line that a token covers. -/
def span (t : Token) : Span := ⟨⟨t.start, t.stop⟩, t.kind⟩

/-- A text in front of a character, or of the end of the line, is a token of the kind and cannot be
made longer. -/
def Kind.Lexeme (kind : Kind) (text : List Char) (next : Option Char) : Prop :=
  match kind with
  | .number =>
    (∀ c ∈ text, isDigit c = true ∨ c = '.') ∧ text.count '.' ≤ 1 ∧
      (∃ c ∈ text, isDigit c = true) ∧ ∀ c ∈ next, isDigit c = false ∧ c ≠ '.'
  | .word =>
    (∃ c cs, text = c :: cs ∧ (isLetter c = true ∨ c = '_') ∧
      ∀ d ∈ cs, isAlphanumeric d = true ∨ d = '_') ∧
      ∀ c ∈ next, isAlphanumeric c = false ∧ c ≠ '_'
  | .opening => text = ['(']
  | .closing => text = [')']
  | .operator op => text = [op.symbol]

/-- From position `n` on the line is made of the spans, in this order, and of blanks. -/
structure LexedFrom (chars : List Char) (n : Nat) (spans : List Span) : Prop where
  inside : ∀ s ∈ spans, n ≤ s.start ∧ s.start < s.stop ∧ s.stop ≤ chars.length
  ordered : spans.Pairwise fun s t => s.stop ≤ t.start
  lexemes : ∀ s ∈ spans, s.kind.Lexeme (s.text chars) chars[s.stop]?
  blanks : ∀ i, n ≤ i → (∀ s ∈ spans, ¬(s.start ≤ i ∧ i < s.stop)) →
    ∀ c ∈ chars[i]?, isBlank c = true

/-- The line is made of the spans, in this order, and of blanks. -/
def Lexed (chars : List Char) (spans : List Span) : Prop := LexedFrom chars 0 spans

/-! ## texts of a kind -/

theorem secondPeriod?_period (cs : List Char) :
    secondPeriod? ('.' :: cs) = (cs.findIdx? (· == '.')).map (1 + ·) := by
  simp only [secondPeriod?, List.findIdx?_cons, beq_self_eq_true, if_true, Option.bind_eq_bind,
    Option.bind_some, List.drop_succ_cons, List.drop_zero]
  cases cs.findIdx? (· == '.') <;> rfl

theorem secondPeriod?_cons {c : Char} (hc : c ≠ '.') (cs : List Char) :
    secondPeriod? (c :: cs) = (secondPeriod? cs).map (· + 1) := by
  simp only [secondPeriod?, List.findIdx?_cons, beq_eq_false_iff_ne.mpr hc]
  cases cs.findIdx? (· == '.') with
  | none => rfl
  | some first =>
      simp only [Bool.false_eq_true, if_false, Option.map_some, Option.bind_eq_bind,
        Option.bind_some, List.drop_succ_cons]
      cases (cs.drop (first + 1)).findIdx? (· == '.') <;> simp
      omega

/-- There is no second period in a run with one period at most. -/
theorem secondPeriod?_eq_none_iff {run : List Char} :
    secondPeriod? run = none ↔ run.count '.' ≤ 1 := by
  induction run with
  | nil => simp [secondPeriod?]
  | cons c cs ih =>
      by_cases hc : c = '.'
      · subst hc
        have hnone : cs.findIdx? (· == '.') = none ↔ '.' ∉ cs := by
          rw [List.findIdx?_eq_none_iff]
          simp only [beq_eq_false_iff_ne]
          exact ⟨fun h hmem => h _ hmem rfl, fun h x hx hdot => h (hdot ▸ hx)⟩
        rw [secondPeriod?_period, Option.map_eq_none_iff, hnone, List.count_cons_self,
          ← List.count_eq_zero]
        omega
      · rw [secondPeriod?_cons hc, Option.map_eq_none_iff, ih, List.count_cons_of_ne hc]

/-- A range of code points is over before another one begins. -/
def Precedes (r s : Nat × Nat) : Prop := r.1 ≤ r.2 ∧ r.2 < s.1

instance (r s : Nat × Nat) : Decidable (Precedes r s) := inferInstanceAs (Decidable (_ ∧ _))

instance : IsTrans (Nat × Nat) Precedes where
  trans r s t := by
    rintro ⟨hr, hrs⟩ ⟨hs, hst⟩
    exact ⟨hr, by omega⟩

/-- The ranges of letters are listed in ascending order. -/
theorem letterRanges_ascending : letterRanges.Pairwise Precedes :=
  List.IsChain.pairwise (by decide +kernel)

/-- The first range of letters that is not over before a range of digits begins after it.  As the
letters ascend there is no need to look at the others. -/
theorem digitRanges_before_letterRanges :
    ∀ r ∈ digitRanges, ∀ s ∈ (letterRanges.dropWhile fun s => s.2.blt r.1).head?, r.2 < s.1 := by
  decide +kernel

/-- Digits and letters have no code point in common. -/
theorem digitRanges_disjoint_letterRanges :
    ∀ r ∈ digitRanges, ∀ s ∈ letterRanges, r.2 < s.1 ∨ s.2 < r.1 := by
  intro r hr s hs
  rw [← List.takeWhile_append_dropWhile (p := fun s => s.2.blt r.1) (l := letterRanges)] at hs
  rcases List.mem_append.mp hs with hbefore | hafter
  · have hlt := List.mem_takeWhile_imp hbefore
    exact .inr (Nat.blt_eq.mp hlt)
  · have hfirst := digitRanges_before_letterRanges r hr
    have hascending := letterRanges_ascending.sublist
      (List.dropWhile_sublist fun s => s.2.blt r.1)
    left
    cases hdrop : letterRanges.dropWhile (fun s => s.2.blt r.1) with
    | nil => simp [hdrop] at hafter
    | cons first later =>
        rw [hdrop] at hafter hfirst hascending
        have hlt : r.2 < first.1 := hfirst first rfl
        rcases List.mem_cons.mp hafter with rfl | hlater
        · exact hlt
        · obtain ⟨hle, hnext⟩ := (List.pairwise_cons.mp hascending).1 s hlater
          omega

/-- No character that starts a word belongs to a number. -/
theorem inNumber_eq_false_of_startsWord {c : Char} (h : startsWord c = true) :
    inNumber c = false := by
  by_cases hc : c.toNat < 128
  · exact forall_ascii (P := fun c => startsWord c = true → inNumber c = false)
      (by decide +kernel) hc h
  · have hne : ∀ d : Char, d.toNat < 128 → c ≠ d := fun d hd heq => hc (heq ▸ hd)
    simp only [startsWord, isLetter, if_neg hc, Bool.or_eq_true, beq_iff_eq,
      hne '_' (by decide), or_false, inRanges, List.any_eq_true, Bool.and_eq_true,
      decide_eq_true_eq] at h
    obtain ⟨s, hs, hlow, hhigh⟩ := h
    simp only [inNumber, isDigit, if_neg hc, Bool.or_eq_false_iff, beq_eq_false_iff_ne,
      inRanges, List.any_eq_false, Bool.and_eq_true, decide_eq_true_eq]
    refine ⟨fun r hr hin => ?_, hne '.' (by decide)⟩
    have := digitRanges_disjoint_letterRanges r hr s hs
    omega

/-- The characters that are tokens by themselves. -/
def Kind.char? : Kind → Option Char
  | .opening => some '('
  | .closing => some ')'
  | .operator op => some op.symbol
  | .number | .word => none

theorem single?_eq_some_iff {c : Char} {kind : Kind} :
    single? c = some kind ↔ kind.char? = some c := by
  constructor
  · intro h
    unfold single? at h
    split at h
    · cases h; rfl
    · cases h; rfl
    · obtain ⟨op, hop, rfl⟩ := Option.map_eq_some_iff.mp h
      exact congrArg some (Operator.symbol_of_ofSymbol? hop)
  · intro h
    cases kind with
    | number | word => contradiction
    | opening | closing => cases h; rfl
    | operator op => cases h; cases op <;> rfl

theorem formed_number_iff {text : List Char} :
    Formed .number text ↔ (∀ c ∈ text, isDigit c = true ∨ c = '.') ∧ text.count '.' ≤ 1 ∧
      ∃ c ∈ text, isDigit c = true := by
  have hclass : ∀ c, Token.inNumber c = true ↔ isDigit c = true ∨ c = '.' := by
    simp [Token.inNumber]
  constructor
  · intro h
    cases h with
    | single his => exact absurd rfl (kind_of_single? his).1
    | number hne hdigits hperiods halone =>
        have hcount := secondPeriod?_eq_none_iff.mp hperiods
        refine ⟨fun c hc => (hclass c).mp (hdigits c hc), hcount, ?_⟩
        by_contra hnone
        -- without a digit the text is made of periods, and there is one at most
        have hall : text = List.replicate text.length '.' := by
          refine List.eq_replicate_of_mem fun c hc => ?_
          exact ((hclass c).mp (hdigits c hc)).resolve_left fun hd => hnone ⟨c, hc, hd⟩
        have hlength : text.length = 1 := by
          have hpos := List.length_pos_iff.mpr hne
          rw [hall, List.count_replicate_self] at hcount
          omega
        rw [hlength] at hall
        exact halone hall
  · rintro ⟨hclasses, hcount, c, hc, hdigit⟩
    refine .number (List.ne_nil_of_mem hc) (fun d hd => (hclass d).mpr (hclasses d hd))
      (secondPeriod?_eq_none_iff.mpr hcount) ?_
    rintro rfl
    rw [List.mem_singleton.mp hc] at hdigit
    revert hdigit
    decide

theorem formed_word_iff {text : List Char} :
    Formed .word text ↔ ∃ c cs, text = c :: cs ∧ (isLetter c = true ∨ c = '_') ∧
      ∀ d ∈ cs, isAlphanumeric d = true ∨ d = '_' := by
  have hstarts : ∀ c, startsWord c = true ↔ isLetter c = true ∨ c = '_' := by simp [startsWord]
  have hcontinues : ∀ c, continuesWord c = true ↔ isAlphanumeric c = true ∨ c = '_' := by
    simp [continuesWord]
  constructor
  · intro h
    cases h with
    | single his => exact absurd rfl (kind_of_single? his).2
    | word hc _ hcs =>
        exact ⟨_, _, rfl, (hstarts _).mp hc, fun d hd => (hcontinues d).mp (hcs d hd)⟩
  · rintro ⟨c, cs, rfl, hc, hcs⟩
    have hword := (hstarts c).mpr hc
    exact .word hword (inNumber_eq_false_of_startsWord hword)
      fun d hd => (hcontinues d).mpr (hcs d hd)

theorem formed_single_iff {kind : Kind} {c : Char} (h : kind.char? = some c) (text : List Char) :
    Formed kind text ↔ text = [c] := by
  constructor
  · intro hformed
    cases hformed with
    | number | word => contradiction
    | single his =>
        rw [single?_eq_some_iff, h, Option.some.injEq] at his
        rw [his]
  · rintro rfl
    exact .single (single?_eq_some_iff.mpr h)

/-- The lexemes of a kind are the texts of tokens whose run stops where they end. -/
theorem lexeme_iff {kind : Kind} {text : List Char} {next : Option Char} :
    kind.Lexeme text next ↔ Formed kind text ∧ ∀ c ∈ next, kind.extends c = false := by
  cases kind with
  | number => simp [Kind.Lexeme, Kind.extends, formed_number_iff, Token.inNumber, and_assoc]
  | word => simp [Kind.Lexeme, Kind.extends, formed_word_iff, continuesWord]
  | opening | closing | operator op =>
      rw [formed_single_iff rfl]
      simp [Kind.Lexeme, Kind.extends]

/-! ## from position to position -/

namespace LexedFrom

variable {chars : List Char} {n : Nat} {s : Span} {spans : List Span}

/-- A blank before the spans. -/
theorem blank (hblank : ∀ c ∈ chars[n]?, isBlank c = true) (h : LexedFrom chars (n + 1) spans) :
    LexedFrom chars n spans where
  inside := fun s hs => by
    have := h.inside s hs
    omega
  ordered := h.ordered
  lexemes := h.lexemes
  blanks := fun i hi hout => by
    rcases Nat.eq_or_lt_of_le hi with rfl | hlt
    · exact hblank
    · exact h.blanks i hlt hout

/-- A span before the spans that come after it. -/
theorem cons (hstart : s.start = n) (hlt : s.start < s.stop) (hle : s.stop ≤ chars.length)
    (hlexeme : s.kind.Lexeme (s.text chars) chars[s.stop]?) (h : LexedFrom chars s.stop spans) :
    LexedFrom chars n (s :: spans) where
  inside := List.forall_mem_cons.mpr ⟨⟨hstart.ge, hlt, hle⟩, fun t ht => by
    have := h.inside t ht
    omega⟩
  ordered := List.pairwise_cons.mpr ⟨fun t ht => (h.inside t ht).1, h.ordered⟩
  lexemes := List.forall_mem_cons.mpr ⟨hlexeme, h.lexemes⟩
  blanks := fun i hi hout => by
    obtain ⟨hfirst, hrest⟩ := List.forall_mem_cons.mp hout
    exact h.blanks i (by omega) hrest

/-- What is left behind the first span. -/
theorem tail (h : LexedFrom chars n (s :: spans)) : LexedFrom chars s.stop spans where
  inside := fun t ht => by
    obtain ⟨-, hinside⟩ := h.inside t (List.mem_cons_of_mem s ht)
    exact ⟨(List.pairwise_cons.mp h.ordered).1 t ht, hinside⟩
  ordered := (List.pairwise_cons.mp h.ordered).2
  lexemes := fun t ht => h.lexemes t (List.mem_cons_of_mem s ht)
  blanks := fun i hi hout => by
    have hfirst := h.inside s (List.mem_cons_self ..)
    exact h.blanks i (by omega) (List.forall_mem_cons.mpr ⟨by omega, hout⟩)

end LexedFrom

/-! ## the spans of what is spelled -/

/-- Blanks may stand before what is spelled. -/
theorem Spells.blanks {n : Nat} {bs cs : List Char} {ts : List Token}
    (hblank : ∀ b ∈ bs, isBlank b = true) (h : Spells (n + bs.length) cs ts) :
    Spells n (bs ++ cs) ts := by
  induction bs generalizing n with
  | nil => exact h
  | cons b bs ih =>
      obtain ⟨hb, hbs⟩ := List.forall_mem_cons.mp hblank
      refine .blank hb (ih hbs ?_)
      rwa [List.length_cons, ← Nat.add_assoc, Nat.add_right_comm] at h

/-- The tokens that a line spells from a position on cover the line there, each with its own
text. -/
theorem Spells.lexedFrom {chars : List Char} {n : Nat} {ts : List Token}
    (h : Spells n (chars.drop n) ts) :
    LexedFrom chars n (ts.map span) ∧ ∀ t ∈ ts, t.span.text chars = t.text := by
  generalize hcs : chars.drop n = cs at h
  induction h with
  | @nil n =>
      refine ⟨⟨by simp, .nil, by simp, fun i hi _ c hc => ?_⟩, by simp⟩
      have hlength := List.drop_eq_nil_iff.mp hcs
      rw [List.getElem?_eq_none (by omega)] at hc
      contradiction
  | @blank n c cs ts hblank _ ih =>
      obtain ⟨hc, hrest⟩ : chars[n]? = some c ∧ chars.drop (n + 1) = cs := by
        rw [← List.head?_drop, ← List.tail_drop, hcs]
        exact ⟨rfl, rfl⟩
      obtain ⟨hlexed, htexts⟩ := ih hrest
      exact ⟨hlexed.blank (by simpa [hc] using hblank), htexts⟩
  | @token n kind text cs ts hformed hstops _ ih =>
      have hrest : chars.drop (n + text.length) = cs := by
        rw [← List.drop_drop, hcs, List.drop_left]
      have htext : (chars.take (n + text.length)).drop n = text := by
        rw [List.drop_take, hcs, Nat.add_sub_cancel_left, List.take_left]
      have hnext : chars[n + text.length]? = cs.head? := by
        rw [← List.head?_drop, hrest]
      have hpos := List.length_pos_iff.mpr hformed.ne_nil
      have hle : n + text.length ≤ chars.length := by
        have hlength := congrArg List.length hcs
        rw [List.length_drop, List.length_append] at hlength
        omega
      obtain ⟨hlexed, htexts⟩ := ih hrest
      refine ⟨.cons rfl ?_ hle ?_ hlexed, List.forall_mem_cons.mpr ⟨htext, htexts⟩⟩
      · exact Nat.lt_add_of_pos_right hpos
      · rw [lexeme_iff]
        show Formed kind ((chars.take (n + text.length)).drop n) ∧ _
        rw [htext]
        refine ⟨hformed, ?_⟩
        show ∀ c ∈ chars[n + text.length]?, kind.extends c = false
        rwa [hnext]

/-- What is covered by spans spells the tokens in them. -/
theorem LexedFrom.spells {chars : List Char} {n : Nat} {spans : List Span}
    (h : LexedFrom chars n spans) : ∃ ts, Spells n (chars.drop n) ts ∧ ts.map span = spans := by
  induction spans generalizing n with
  | nil =>
      refine ⟨[], ?_, rfl⟩
      rw [← List.append_nil (chars.drop n)]
      refine .blanks (fun b hb => ?_) .nil
      obtain ⟨i, hi⟩ := List.mem_iff_getElem?.mp hb
      rw [List.getElem?_drop] at hi
      exact h.blanks (n + i) (Nat.le_add_right n i) (by simp) b hi
  | cons s spans ih =>
      obtain ⟨ts, hspells, rfl⟩ := ih h.tail
      obtain ⟨hn, hlt, hle⟩ := h.inside s (List.mem_cons_self ..)
      obtain ⟨hformed, hstops⟩ := lexeme_iff.mp (h.lexemes s (List.mem_cons_self ..))
      have htext : s.text chars = (chars.drop s.start).take (s.stop - s.start) := List.drop_take
      have hstop : s.start + (s.text chars).length = s.stop := by
        rw [htext, List.length_take, List.length_drop]
        omega
      -- the line from `n` on: what no span covers, the text of the span, and the rest
      have hsplit : chars.drop n =
          (chars.drop n).take (s.start - n) ++ (s.text chars ++ chars.drop s.stop) := by
        have hbefore : (chars.drop n).drop (s.start - n) = chars.drop s.start := by
          rw [List.drop_drop, Nat.add_sub_of_le hn]
        have hafter : (chars.drop s.start).drop (s.stop - s.start) = chars.drop s.stop := by
          rw [List.drop_drop, Nat.add_sub_of_le hlt.le]
        rw [htext, ← hafter, List.take_append_drop, ← hbefore, List.take_append_drop]
      have hgap : ∀ b ∈ (chars.drop n).take (s.start - n), isBlank b = true := by
        intro b hb
        obtain ⟨i, hi⟩ := List.mem_iff_getElem?.mp hb
        have hlow : i < s.start - n := by
          by_contra hhigh
          rw [List.getElem?_take_eq_none (by omega)] at hi
          contradiction
        rw [List.getElem?_take_of_lt hlow, List.getElem?_drop] at hi
        refine h.blanks (n + i) (Nat.le_add_right n i) ?_ b hi
        refine List.forall_mem_cons.mpr ⟨by omega, ?_⟩
        intro t ht
        have := (h.tail.inside t ht).1
        omega
      have hgapLength : n + ((chars.drop n).take (s.start - n)).length = s.start := by
        rw [List.length_take, List.length_drop]
        omega
      refine ⟨⟨s.kind, s.text chars, s.start⟩ :: ts, ?_, ?_⟩
      · rw [hsplit]
        refine .blanks hgap ?_
        rw [hgapLength]
        refine .token hformed ?_ (hstop ▸ hspells)
        rwa [List.head?_drop]
      · rw [List.map_cons, span, stop, hstop]

end GraphCalc.Token
