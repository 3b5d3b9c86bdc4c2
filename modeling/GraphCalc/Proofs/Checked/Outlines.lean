import GraphCalc.Proofs.Checked.Ranges

/-!
# GraphCalc.Proofs.Checked.Outlines

Splitting a text is finding its outline.

* `Splitter.divideBinary_as`, `Splitter.divideOperand_as` — an operator with its operands, and an
  operand;
* `Splitter.divide_as` — a range is divided as the outline of its items says;
* `Splitter.split_eq` — so the parts of a range are those of that outline;
* `split_eq` — and the parts of a text are `Parts.ofLine`, and no step on the way to them is at
  fault.
-/

namespace GraphCalc.Checked

open Item

/-- Operators are spelled with their symbol. -/
theorem text_of_operator {t : Token} {op : Operator} (h : Token.Formed t.kind t.text)
    (hk : t.kind = .operator op) : t.text = [op.symbol] := by
  rw [hk] at h
  generalize t.text = text at h
  cases h with
  | @single c _ his =>
      unfold Token.single? at his
      split at his
      · cases his
      · cases his
      · obtain ⟨found, hfound, heq⟩ := Option.map_eq_some_iff.mp his
        rw [← Token.Kind.operator.inj heq, Operator.symbol_of_ofSymbol? hfound]

namespace Splitter

variable {s : Splitter} {lo : Nat} {items : List Item}

/-! ## operators and operands -/

/-- A range is divided as the outcome of finding an outline says. -/
def DividesAs (s : Splitter) (outcome : Except Flaw Outline) (found : Except Stop Division) :
    Prop :=
  match outcome with
  | .ok outline => ∃ d, found = .ok d ∧ s.Divides outline d
  | .error flaw => found = ofFlaw s.line (.error flaw)

/-- An operator is split off where there is something on either side of it. -/
theorem divideBinary_as (hs : s.Sound) (h : Covers s.tokens lo items)
    {wanted : Operator → Bool} {cut : Cut} (hat : Cut.At wanted true items cut) :
    s.DividesAs cut.outline (s.divideBinary lo (lo + size cut.before) (lo + size items)) := by
  have hsize := hat.size
  rw [hat.split] at h
  have hplace := h.right.tokenAt_first
  have hafter := h.right.tail
  have hformed : Token.Formed cut.place.kind cut.place.text := by
    obtain ⟨before, after, htokens, -⟩ := h.place
    exact (Token.scanFrom_eq_ok_iff.mp hs.scanned).formed _ (by simp [htokens])
  have hend : lo + size items = lo + size cut.before + 1 + size cut.after := by omega
  rw [divideBinary, hplace]
  simp only [bind, Except.bind, first]
  by_cases hempty : cut.before = [] ∨ cut.after = []
  · have hends : lo + size cut.before = lo ∨ lo + size cut.before = lo + size items - 1 := by
      rcases hempty with hnil | hnil
      · exact .inl (by rw [hnil]; simp [size])
      · refine .inr ?_
        rw [hend, hnil]
        simp [size]
    have houtline : cut.outline = .error (cut.place.flaw .missingOperand) := by
      unfold Cut.outline
      rw [if_pos]
      simpa using hempty
    rw [if_pos (by simpa using hends), blame_eq, houtline]
    rfl
  · obtain ⟨hleft, hright⟩ := not_or.mp hempty
    have hleftPos := size_pos hleft
    have hrightPos := size_pos hright
    have hends : ¬(lo + size cut.before = lo ∨ lo + size cut.before = lo + size items - 1) := by
      omega
    rw [if_neg (by simpa using hends), hend, text_of_operator hformed hat.kind,
      Outline.outline_eq_ok_iff.mpr ⟨hleft, hright, rfl⟩]
    exact ⟨_, rfl, .binary h.left hafter⟩

/-- A word with one group after it is recognized. -/
theorem isCall_eq (hs : s.Sound) {item : Item} {rest : List Item}
    (h : Covers s.tokens lo (item :: rest)) :
    s.isCall item.first lo (lo + size (item :: rest)) =
      .ok (match item, rest with
        | token name, [group ..] => name.kind = .word
        | _, _ => false) := by
  unfold isCall
  rw [Nat.add_sub_cancel_left]
  cases item with
  | group o inner c =>
      cases h.nested with
      | group ho => simp [first, ho]
  | token name =>
      by_cases hword : name.kind = .word
      · have hafter := h.tail
        cases rest with
        | nil => simp [size]
        | cons next more =>
            have hsecond := hafter.tokenAt_first
            cases next with
            | token u =>
                have hopening : u.kind ≠ .opening := by
                  cases hafter.nested with
                  | token ho => exact ho
                rw [hsecond]
                simp [bind, Except.bind, pure, Except.pure, first, hopening]
            | group o inner c =>
                have hopening : o.kind = .opening := by
                  cases hafter.nested with
                  | group ho => exact ho
                rw [hsecond, hafter.partner hs]
                simp only [bind, Except.bind, first, hopening, hword, decide_true, if_true,
                  size_token_cons, size_group_cons]
                cases more with
                | nil =>
                    have hclose : lo + 1 + 1 + size inner =
                        lo + (size inner + size [] + 2 + 1) - 1 := by
                      simp [size]
                      omega
                    rw [← hclose]
                    simp [pure, Except.pure, hword]
                | cons third more =>
                    have hpos := @size_pos (third :: more) (by simp)
                    have hclose : lo + 1 + 1 + size inner ≠
                        lo + (size inner + size (third :: more) + 2 + 1) - 1 := by
                      omega
                    rw [decide_eq_false hclose]
                    rfl
      · have hnotWord : (first (token name)).kind ≠ .word := hword
        simp only [hnotWord, decide_false, Bool.false_and, Bool.false_eq_true, if_false]
        split <;> simp_all

/-- The token after the first one is the one to blame. -/
theorem tokenAt_second {item next : Item} {rest : List Item}
    (h : Covers s.tokens lo (item :: next :: rest)) :
    tokenAt s.tokens (lo + 1) = .ok (item.second?.getD next.first) := by
  cases item with
  | token t =>
      exact h.tail.tokenAt_first
  | group o inner c =>
      refine h.tokenAt_eq ?_
      cases inner with
      | nil => simp [second?]
      | cons item inner =>
          rw [flatten_group_cons, List.getElem?_cons_succ, ← List.head?_eq_getElem?,
            List.head?_append, head?_flatten]
          rfl

/-- What has no operator to cut at is an operand. -/
theorem divideOperand_as (hs : s.Sound) {item : Item} {rest : List Item}
    (h : Covers s.tokens lo (item :: rest))
    (hbare : ∀ o inner c, item :: rest ≠ [group o inner c]) :
    s.DividesAs (Outline.ofOperand (item :: rest))
      (s.divideOperand item.first lo (lo + size (item :: rest))) := by
  cases rest with
  | nil =>
      cases item with
      | group o inner c => exact absurd rfl (hbare o inner c)
      | token t =>
          have hone : lo + size [token t] - lo = 1 := by simp [size]
          rw [divideOperand, isCall_eq hs h]
          simp only [bind, Except.bind, Bool.false_eq_true, if_false, hone, if_true]
          exact ⟨_, rfl, .single t⟩
  | cons next more =>
      have hsecond := tokenAt_second h
      by_cases hcall : ∃ name o argument c,
          item = token name ∧ next = group o argument c ∧ more = [] ∧ name.kind = .word
      · obtain ⟨name, o, argument, c, rfl, rfl, rfl, hword⟩ := hcall
        have hinside := (h.right (a := [token name])).inside
        have hstart : lo + size [token name] + 1 = lo + 2 := by simp [size]
        have hend : lo + size [token name, group o argument c] - 1 = lo + 2 + size argument := by
          simp [size]
          omega
        rw [hstart] at hinside
        rw [divideOperand, isCall_eq hs h, hend, Outline.ofOperand, if_pos hword]
        simp only [bind, Except.bind, hword, decide_true, if_true]
        exact ⟨_, rfl, .call hinside⟩
      · have hisCall : s.isCall item.first lo (lo + size (item :: next :: more)) = .ok false := by
          rw [isCall_eq hs h]
          cases item <;> cases next <;> cases more <;> simp_all
        have houtline : Outline.ofOperand (item :: next :: more) =
            .error ((item.second?.getD next.first).flaw .unexpectedToken) := by
          cases item <;> cases next <;> cases more <;> simp_all [Outline.ofOperand, second?]
        have hlong : ¬lo + size (item :: next :: more) - lo = 1 := by
          have hfirst := @size_pos [item] (by simp)
          have hrest := @size_pos (next :: more) (by simp)
          rw [size_cons item]
          omega
        rw [divideOperand, hisCall, houtline]
        simp only [bind, Except.bind, Bool.false_eq_true, if_false, hlong, hsecond]
        exact blame_eq _ _ _

/-! ## the top level -/

/-- The sign in front of items is that of their first token. -/
theorem leadingSign?_eq {item : Item} {rest : List Item} (h : WellNested (item :: rest)) :
    leadingSign? (item :: rest) = (signOf? item.first).map fun op => (op, item.first, rest) := by
  cases item with
  | token t =>
      simp only [leadingSign?, operator?, signOf?, first]
      cases t.kind with
      | operator op => cases hop : op.isSign <;> simp [Option.filter, hop]
      | number | word | opening | closing => rfl
  | group o inner c =>
      cases h with
      | group ho => simp [leadingSign?, operator?, signOf?, first, ho]

/-- A sign in front takes up one position, and the other items cover the range behind it. -/
theorem covers_behind_sign {item : Item} {rest : List Item}
    (h : Covers s.tokens lo (item :: rest)) (hsign : (signOf? item.first).isSome = true) :
    Covers s.tokens (lo + 1) rest ∧ size (item :: rest) = 1 + size rest := by
  obtain ⟨op, hop⟩ := Option.isSome_iff_exists.mp hsign
  have hleading := leadingSign?_eq h.nested
  rw [hop] at hleading
  obtain ⟨hitems, -, -⟩ := leadingSign?_eq_some_iff.mp hleading
  rw [(List.cons.inj hitems).1] at h ⊢
  refine ⟨h.tail, ?_⟩
  rw [size_token_cons, Nat.add_comm]

/-- Dividing a range looks once at its items, and goes on behind a sign `+`. -/
theorem divide_step (hs : s.Sound) (h : Covers s.tokens lo items) :
    ∃ low, Covers s.tokens low (unwrap items) ∧
      match Outline.look (unwrap items) with
      | .inl outcome => s.DividesAs outcome (s.divide lo (lo + size items))
      | .inr _ => s.divide lo (lo + size items) =
          s.divide (low + 1) (low + size (unwrap items)) := by
  obtain ⟨low, hstrip, hcovers⟩ := stripParens_eq hs h
  refine ⟨low, hcovers, ?_⟩
  have hle := size_unwrap_le items
  have hbare := Outline.unwrap_ne_group items
  rw [divide, hstrip]
  generalize unwrap items = inner at hcovers hle hbare ⊢
  cases inner with
  | nil =>
      rw [Outline.look_of_noOperator (by simp)]
      simp only [bind, Except.bind, size, flatten_nil, List.length_nil, Nat.add_zero, Nat.le_refl,
        if_true]
      rfl
  | cons item rest =>
      have hpos := @size_pos (item :: rest) (by simp)
      have hsign := leadingSign?_eq hcovers.nested
      have hlow : ¬low + size (item :: rest) ≤ low := by omega
      rw [Outline.look, hsign]
      simp only [bind, Except.bind, if_neg hlow, hcovers.tokenAt_first,
        cutAt?_eq hcovers (signOf? item.first).isSome, cut?]
      cases hsum : Cut.last? Operator.isSign true (item :: rest) with
      | some cut =>
          simp only [Option.map_some]
          exact divideBinary_as hs hcovers (Cut.last?_eq_some_iff.mp hsum).1
      | none =>
          cases hproduct : Cut.last? Operator.isFactor true (item :: rest) with
          | some cut =>
              simp only [Option.map_some]
              exact divideBinary_as hs hcovers (Cut.last?_eq_some_iff.mp hproduct).1
          | none =>
              cases hop : signOf? item.first with
              | none =>
                  simp only [Option.isSome_none, Bool.false_eq_true, if_false, Option.map_none]
                  cases hpower : Cut.first? Operator.isPower true (item :: rest) with
                  | some cut =>
                      simp only [Option.map_some]
                      exact divideBinary_as hs hcovers (Cut.first?_eq_some_iff.mp hpower).1
                  | none =>
                      simp only [Option.map_none]
                      exact divideOperand_as hs hcovers fun o inner c => hbare o c inner
              | some op =>
                  obtain ⟨hafter, hsize⟩ := covers_behind_sign hcovers (by rw [hop]; rfl)
                  have hend : low + size (item :: rest) = low + 1 + size rest := by omega
                  simp only [Option.isSome_some, if_true, Option.map_none, Option.map_some]
                  by_cases hrest : rest = []
                  · have hsingle : low + size (item :: rest) - low = 1 := by
                      rw [hsize, hrest]
                      simp [size]
                    rw [if_pos hsingle, if_pos (by simpa using hrest), blame_eq]
                    rfl
                  · have hpos := size_pos hrest
                    have hlong : ¬low + size (item :: rest) - low = 1 := by omega
                    have hshrinks : low + size (item :: rest) - (low + 1) <
                        lo + size items - lo := by
                      omega
                    have hempty : rest.isEmpty = false := by simpa using hrest
                    rw [if_neg hlong, hempty, if_neg Bool.false_ne_true]
                    by_cases hsub : op = .sub
                    · rw [if_pos hsub, if_pos hsub, hend]
                      exact ⟨_, rfl, .negation hafter⟩
                    · rw [if_neg hsub, if_neg hsub, dif_pos hshrinks]

/-- A range is divided as the outline of its items says. -/
theorem divide_as (hs : s.Sound) {n : Nat} (h : Covers s.tokens lo items) (hn : size items < n) :
    s.DividesAs (Outline.ofItems n items) (s.divide lo (lo + size items)) := by
  induction n generalizing lo items with
  | zero => omega
  | succ n ih =>
      obtain ⟨low, hcovers, hdivide⟩ := divide_step hs h
      have hle := size_unwrap_le items
      rw [Outline.ofItems_succ]
      cases hlook : Outline.look (unwrap items) with
      | inl outcome =>
          rw [hlook] at hdivide
          exact hdivide
      | inr rest =>
          obtain ⟨sign, hitems, -⟩ := Outline.look_eq_inr_iff.mp hlook
          rw [hlook] at hdivide
          rw [hitems] at hcovers hle hdivide
          rw [size_token_cons] at hle hdivide
          have hend : low + (size rest + 1) = low + 1 + size rest := by omega
          rw [hdivide, hend]
          exact ih hcovers.tail (by omega)

/-- The parts of a range are those of the outline of its items. -/
theorem split_eq (hs : s.Sound) {n : Nat} (h : Covers s.tokens lo items) (hn : size items < n) :
    s.split lo (lo + size items) =
      ofFlaw s.line ((Outline.ofItems n items).map (Outline.parts s.line)) := by
  have hdivide := divide_as hs h hn
  rw [split_eq_divide]
  cases hfound : Outline.ofItems n items with
  | error flaw =>
      rw [hfound] at hdivide
      rw [show s.divide lo (lo + size items) = _ from hdivide]
      rfl
  | ok outline =>
      rw [hfound] at hdivide
      obtain ⟨d, hd, hdivides⟩ := hdivide
      rw [hd]
      exact parts_of_divides hs hdivides

end Splitter

/-- The tokens of a line are those of its items. -/
theorem tokenCount_eq {line : List Char} {items : List Item} (h : Item.ofLine line = .ok items) :
    tokenCount line = size items := by
  rw [tokenCount, (ofLine_eq_ok_iff.mp h).2]
  rfl

/-- Splitting a text finds what `Parts.ofLine` does, given enough levels. -/
theorem split_eq {line : List Char} {levels : Nat} (hlevels : tokenCount line < levels) :
    split line = ofRefusal (Parts.ofLine line levels) := by
  obtain ⟨hrefused, hmade⟩ := make_eq line
  rw [split, Parts.ofLine]
  cases hitems : Item.ofLine line with
  | error flaw =>
      rw [hrefused flaw hitems]
      rfl
  | ok items =>
      obtain ⟨s, hmake, -⟩ := hmade items hitems
      obtain ⟨items, hitems', hs, rfl, hcovers, hlength⟩ := covers_of_make hmake
      obtain rfl := Except.ok.inj (hitems.symm.trans hitems')
      rw [tokenCount_eq hitems] at hlevels
      rw [hmake]
      simp only [bind, Except.bind]
      rw [hlength, s.split_eq hs hcovers hlevels]
      cases Outline.ofItems levels items <;> rfl

end GraphCalc.Checked
