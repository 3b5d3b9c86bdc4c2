import GraphCalc.Proofs.Expr.Polish

/-!
# GraphCalc.Proofs.Expr.Readable

Both notations are uniquely readable.

The text of an expression determines its operators, its functions and the texts of its constants, in
either notation.  Of the text of a constant it is only asked that it stays in one piece between
spaces and parentheses and that it is no other word (`NumberWord`).  Signs and exponents are part of
such a text, although they are spelled with the symbols of operators.

* `polish_inj` — the words of reverse Polish notation: a stack puts the expression together again;
* `algebraic_append_inj` — algebraic notation, in front of whatever may follow an operand: what a
  text begins with decides its outermost node;
* `renderings_eq_iff` — two expressions have the same text in one notation exactly if they have the
  same text in the other, which is if they differ in nothing that is shown.
-/

namespace GraphCalc

/-! ## words -/

namespace Expr

/-- The characters that separate words. -/
def isDelimiter (c : Char) : Bool := [' ', '(', ')'].contains c

/-- A text that stays in one piece and is no word of another kind. -/
structure NumberWord (text : List Char) : Prop where
  ne_nil : text ≠ []
  onePiece : ∀ c ∈ text, isDelimiter c = false
  ne_x : text ≠ ['x']
  ne_symbol : ∀ op : Operator, text ≠ [op.symbol]
  ne_name : ∀ fn : Elementary, text ≠ fn.name

/-- A word of a rendered expression. -/
inductive Word where
  | x
  | number (text : List Char)
  | operator (op : Operator)
  | function (fn : Elementary)

namespace Word

/-- The text of a word. -/
def text : Word → List Char
  | x => ['x']
  | number text => text
  | operator op => [op.symbol]
  | function fn => fn.name

@[simp] theorem text_x : x.text = ['x'] := rfl

@[simp] theorem text_number (text : List Char) : (number text).text = text := rfl

@[simp] theorem text_operator (op : Operator) : (operator op).text = [op.symbol] := rfl

@[simp] theorem text_function (fn : Elementary) : (function fn).text = fn.name := rfl

/-- The word with the given text. -/
def ofText (text : List Char) : Word :=
  if text = ['x'] then x
  else
    match Operator.ofText? text, Elementary.ofName? text with
    | some op, _ => operator op
    | none, some fn => function fn
    | none, none => number text

/-- A word that is a number only if it can be told apart from the others. -/
def Valid : Word → Prop
  | number text => NumberWord text
  | _ => True

theorem ofText_text {w : Word} (h : w.Valid) : ofText w.text = w := by
  cases w with
  | x => rfl
  | number text =>
      have hop : Operator.ofText? text = none := by
        rw [Option.eq_none_iff_forall_ne_some]
        intro op hop
        exact h.ne_symbol op (Operator.symbol_of_ofText? hop).symm
      have hfn : Elementary.ofName? text = none := by
        rw [Option.eq_none_iff_forall_ne_some]
        intro fn hfn
        exact h.ne_name fn (Elementary.name_of_ofName? hfn).symm
      simp only [ofText, text_number, if_neg h.ne_x, hop, hfn]
  | operator op => cases op <;> rfl
  | function fn => cases fn <;> rfl

/-- Words with the same text are the same. -/
theorem text_inj {v w : Word} (hv : v.Valid) (hw : w.Valid) (h : v.text = w.text) : v = w := by
  rw [← ofText_text hv, ← ofText_text hw, h]

theorem Valid.text_ne_nil {w : Word} (h : w.Valid) : w.text ≠ [] := by
  cases w with
  | x => simp
  | number text => exact h.ne_nil
  | operator op => simp
  | function fn => cases fn <;> simp [Elementary.name]

/-- A word stays in one piece. -/
theorem Valid.onePiece {w : Word} (h : w.Valid) : ∀ c ∈ w.text, (!isDelimiter c) = true := by
  cases w with
  | x => exact List.all_eq_true.mp (by decide)
  | number text =>
      intro c hc
      rw [NumberWord.onePiece h c hc, Bool.not_false]
  | operator op => exact List.all_eq_true.mp (by cases op <;> decide)
  | function fn => exact List.all_eq_true.mp (by cases fn <;> decide)

end Word

section

variable {α : Type} {number : α → List Char}

theorem constants_map {β : Type} (f : α → β) (e : Expr α) :
    (e.map f).constants = e.constants.map f := by
  induction e with
  | var => rfl
  | const c => rfl
  | binary op l r ihl ihr => simp [map, constants, ihl, ihr]
  | call fn a ih => exact ih

/-- The texts of the constants are numbers. -/
theorem numberWord_of_mem_map (h : ∀ v, NumberWord (number v)) (e : Expr α) :
    ∀ c ∈ (e.map number).constants, NumberWord c := by
  rw [constants_map]
  intro c hc
  obtain ⟨v, -, rfl⟩ := List.mem_map.mp hc
  exact h v

end

/-! ## reverse Polish notation -/

/-- The words of an expression, its constants being texts, in reverse Polish notation. -/
def polish : Expr (List Char) → List Word
  | var => [.x]
  | const text => [.number text]
  | binary op l r => l.polish ++ r.polish ++ [.operator op]
  | call fn a => a.polish ++ [.function fn]

/-- The stack after a word.  A word that finds too little on the stack is skipped. -/
def push : List (Expr (List Char)) → Word → List (Expr (List Char))
  | stack, .x => var :: stack
  | stack, .number text => const text :: stack
  | r :: l :: stack, .operator op => binary op l r :: stack
  | a :: stack, .function fn => call fn a :: stack
  | stack, _ => stack

/-- The words of an expression put it on top of any stack. -/
theorem foldl_polish (e : Expr (List Char)) (stack : List (Expr (List Char))) :
    e.polish.foldl push stack = e :: stack := by
  induction e generalizing stack with
  | var => rfl
  | const text => rfl
  | binary op l r ihl ihr => simp [polish, ihl, ihr, push]
  | call fn a ih => simp [polish, ih, push]

/-- The words of an expression determine it. -/
theorem polish_inj {a b : Expr (List Char)} (h : a.polish = b.polish) : a = b := by
  have ha := foldl_polish a []
  have hb := foldl_polish b []
  rw [h, hb] at ha
  exact (List.cons.inj ha).1.symm

/-- With a space at its end, the text of an expression is that of its words, each with a space at its
end. -/
theorem reversePolishWith_append {α : Type} (number : α → List Char) (e : Expr α) :
    e.reversePolishWith number ++ [' '] =
      (e.map number).polish.flatMap fun w => w.text ++ [' '] := by
  induction e with
  | var => rfl
  | const c => simp [reversePolishWith, map, polish]
  | binary op l r ihl ihr =>
      simp [reversePolishWith, map, polish, List.flatMap_append, ← ihl, ← ihr]
  | call fn a ih => simp [reversePolishWith, map, polish, List.flatMap_append, ← ih]

/-- Words that end in spaces are found again. -/
theorem Word.flatMap_text_inj {vs ws : List Word} (hv : ∀ w ∈ vs, w.Valid) (hw : ∀ w ∈ ws, w.Valid)
    (h : (vs.flatMap fun w => w.text ++ [' ']) = ws.flatMap fun w => w.text ++ [' ']) : vs = ws := by
  induction vs generalizing ws with
  | nil =>
      cases ws with
      | nil => rfl
      | cons w ws => simp at h
  | cons v vs ih =>
      cases ws with
      | nil => simp at h
      | cons w ws =>
          obtain ⟨hvalid, hvs⟩ := List.forall_mem_cons.mp hv
          obtain ⟨hvalid', hws⟩ := List.forall_mem_cons.mp hw
          simp only [List.flatMap_cons, List.append_assoc, List.singleton_append] at h
          have hspace : ∀ cs, ∀ c ∈ (' ' :: cs).head?, (!isDelimiter c) = false := by
            simp [isDelimiter]
          obtain ⟨htext, hrest⟩ := Text.run_append_inj hvalid.onePiece hvalid'.onePiece
            (hspace _) (hspace _) h
          rw [text_inj hvalid hvalid' htext, ih hvs hws (List.cons.inj hrest).2]

theorem valid_of_mem_polish {e : Expr (List Char)} (h : ∀ c ∈ e.constants, NumberWord c) :
    ∀ w ∈ e.polish, w.Valid := by
  induction e with
  | var => simp [polish, Word.Valid]
  | const text => simpa [polish, constants, Word.Valid] using h
  | binary op l r ihl ihr =>
      obtain ⟨hl, hr⟩ := forall_constants_binary.mp h
      simp only [polish, List.forall_mem_append, List.forall_mem_singleton]
      exact ⟨⟨ihl hl, ihr hr⟩, trivial⟩
  | call fn a ih =>
      simp only [polish, List.forall_mem_append, List.forall_mem_singleton]
      exact ⟨ih h, trivial⟩

/-- A text in reverse Polish notation determines all that it shows. -/
theorem reversePolishWith_eq_iff {α : Type} {number : α → List Char}
    (h : ∀ v, NumberWord (number v)) (e₁ e₂ : Expr α) :
    e₁.reversePolishWith number = e₂.reversePolishWith number ↔ e₁.map number = e₂.map number := by
  have hwords := fun e => valid_of_mem_polish (numberWord_of_mem_map h e)
  rw [← List.append_left_inj [' '], reversePolishWith_append, reversePolishWith_append]
  constructor
  · intro htext
    exact polish_inj (Word.flatMap_text_inj (hwords e₁) (hwords e₂) htext)
  · intro hmap
    rw [hmap]

/-! ## algebraic notation -/

theorem algebraicWith_map {α : Type} (number : α → List Char) (e : Expr α) :
    (e.map number).algebraicWith id = e.algebraicWith number := by
  induction e with
  | var => rfl
  | const c => rfl
  | binary op l r ihl ihr => simp only [map, algebraicWith, ihl, ihr]
  | call fn a ih => simp only [map, algebraicWith, ih]

/-- The word that an expression begins with, unless it begins with a parenthesis. -/
def lead : Expr (List Char) → Option Word
  | var => some .x
  | const text => some (.number text)
  | binary _ _ _ => none
  | call fn _ => some (.function fn)

/-- What follows the first word. -/
def body : Expr (List Char) → List Char
  | var | const _ => []
  | binary op l r => '(' :: l.algebraicWith id ++ [' ', op.symbol, ' '] ++ r.algebraicWith id ++ [')']
  | call _ a => '(' :: a.algebraicWith id ++ [')']

/-- The text of the first word. -/
def leadText (e : Expr (List Char)) : List Char := e.lead.elim [] Word.text

theorem leadText_append_body (e : Expr (List Char)) : e.leadText ++ e.body = e.algebraicWith id := by
  cases e <;> simp [leadText, lead, body, algebraicWith]

theorem valid_of_lead {e : Expr (List Char)} (h : ∀ c ∈ e.constants, NumberWord c) :
    ∀ w ∈ e.lead, w.Valid := by
  cases e with
  | var => simp [lead, Word.Valid]
  | const text => simpa [lead, Word.Valid, constants] using h
  | binary op l r => simp [lead]
  | call fn a => simp [lead, Word.Valid]

/-- The texts of two expressions begin with the same word only if the expressions do. -/
theorem lead_eq_of_leadText {a b : Expr (List Char)} (ha : ∀ w ∈ a.lead, w.Valid)
    (hb : ∀ w ∈ b.lead, w.Valid) (h : a.leadText = b.leadText) : a.lead = b.lead := by
  unfold leadText at h
  cases hv : a.lead with
  | none =>
      cases hw : b.lead with
      | none => rfl
      | some w =>
          rw [hv, hw] at h
          exact absurd h.symm (hb w hw).text_ne_nil
  | some v =>
      cases hw : b.lead with
      | none =>
          rw [hv, hw] at h
          exact absurd h (ha v hv).text_ne_nil
      | some w =>
          rw [hv, hw] at h
          rw [Word.text_inj (ha v hv) (hb w hw) h]

theorem body_stops (e : Expr (List Char)) {rest : List Char}
    (hrest : ∀ c ∈ rest.head?, isDelimiter c = true) :
    ∀ c ∈ (e.body ++ rest).head?, (!isDelimiter c) = false := by
  intro c hc
  rw [Bool.not_eq_false']
  cases e with
  | var => exact hrest c hc
  | const text => exact hrest c hc
  | binary op l r =>
      cases hc
      rfl
  | call fn a =>
      cases hc
      rfl

/-- What two texts begin with, and what follows it, can be compared apart. -/
theorem lead_append_inj {a b : Expr (List Char)} (ha : ∀ c ∈ a.constants, NumberWord c)
    (hb : ∀ c ∈ b.constants, NumberWord c) {r s : List Char}
    (hr : ∀ c ∈ r.head?, isDelimiter c = true) (hs : ∀ c ∈ s.head?, isDelimiter c = true)
    (h : a.algebraicWith id ++ r = b.algebraicWith id ++ s) :
    a.lead = b.lead ∧ a.body ++ r = b.body ++ s := by
  have hpiece : ∀ e : Expr (List Char), (∀ c ∈ e.constants, NumberWord c) →
      ∀ c ∈ e.leadText, (!isDelimiter c) = true := by
    intro e he
    have hlead := valid_of_lead he
    unfold leadText
    cases hw : e.lead with
    | none => simp
    | some w => exact (hlead w hw).onePiece
  rw [← leadText_append_body, ← leadText_append_body, List.append_assoc, List.append_assoc] at h
  obtain ⟨hlead, hbody⟩ := Text.run_append_inj (hpiece a ha) (hpiece b hb) (a.body_stops hr)
    (b.body_stops hs) h
  exact ⟨lead_eq_of_leadText (valid_of_lead ha) (valid_of_lead hb) hlead, hbody⟩

/-- A text in algebraic notation, in front of a delimiter or at the end, determines its
expression. -/
theorem algebraic_append_inj {a b : Expr (List Char)} (ha : ∀ c ∈ a.constants, NumberWord c)
    (hb : ∀ c ∈ b.constants, NumberWord c) {r s : List Char}
    (hr : ∀ c ∈ r.head?, isDelimiter c = true) (hs : ∀ c ∈ s.head?, isDelimiter c = true)
    (h : a.algebraicWith id ++ r = b.algebraicWith id ++ s) : a = b ∧ r = s := by
  have hspace : ∀ cs, ∀ c ∈ (' ' :: cs).head?, isDelimiter c = true := by simp [isDelimiter]
  have hclosing : ∀ cs, ∀ c ∈ (')' :: cs).head?, isDelimiter c = true := by simp [isDelimiter]
  -- the first word leaves one constructor for `b`, and each operand stands in front of a delimiter
  induction a generalizing b r s with
  | var =>
      obtain ⟨hlead, hbody⟩ := lead_append_inj ha hb hr hs h
      cases b <;> cases hlead
      exact ⟨rfl, hbody⟩
  | const text =>
      obtain ⟨hlead, hbody⟩ := lead_append_inj ha hb hr hs h
      cases b <;> cases hlead
      exact ⟨rfl, hbody⟩
  | binary op left right ihl ihr =>
      obtain ⟨hlead, hbody⟩ := lead_append_inj ha hb hr hs h
      cases b with
      | binary op' left' right' =>
          obtain ⟨hal, har⟩ := forall_constants_binary.mp ha
          obtain ⟨hbl, hbr⟩ := forall_constants_binary.mp hb
          simp only [body, List.cons_append, List.append_assoc, List.cons.injEq, true_and,
            List.nil_append] at hbody
          obtain ⟨rfl, hrest⟩ := ihl hal hbl (hspace _) (hspace _) hbody
          simp only [List.cons.injEq, true_and] at hrest
          obtain ⟨hsymbol, hrest⟩ := hrest
          obtain ⟨rfl, hend⟩ := ihr har hbr (hclosing _) (hclosing _) hrest
          obtain rfl : op = op' := by
            have hread := Operator.ofSymbol?_symbol op
            rw [hsymbol, Operator.ofSymbol?_symbol] at hread
            exact (Option.some.inj hread).symm
          exact ⟨rfl, (List.cons.inj hend).2⟩
      | _ => cases hlead
  | call fn x ih =>
      obtain ⟨hlead, hbody⟩ := lead_append_inj ha hb hr hs h
      cases b with
      | call fn' x' =>
          simp only [body, List.cons_append, List.append_assoc, List.cons.injEq, true_and,
            List.nil_append] at hbody
          obtain ⟨rfl, hend⟩ := @ih x' ha hb _ _ (hclosing _) (hclosing _) hbody
          cases hlead
          exact ⟨rfl, (List.cons.inj hend).2⟩
      | _ => cases hlead

/-- A text in algebraic notation determines all that it shows. -/
theorem algebraicWith_eq_iff {α : Type} {number : α → List Char}
    (h : ∀ v, NumberWord (number v)) (e₁ e₂ : Expr α) :
    e₁.algebraicWith number = e₂.algebraicWith number ↔ e₁.map number = e₂.map number := by
  have hnumbers := numberWord_of_mem_map h
  rw [← algebraicWith_map number e₁, ← algebraicWith_map number e₂]
  constructor
  · intro htext
    have hsame := congrArg (· ++ []) htext
    exact (algebraic_append_inj (hnumbers e₁) (hnumbers e₂) (by simp) (by simp) hsame).1
  · intro hmap
    rw [hmap]

end Expr

/-! ## numbers -/

namespace Number

open GraphCalc.Expr

/-- A double, written as an integer where it is one up to the tolerance, and else as `shown` writes
it. -/
def tidyWith (shown : Float → List Char) (v : Float) : List Char :=
  match Binary.ofFloat? v with
  | none => shown v
  | some b =>
    match b.nearInteger? with
    | some n => sign (b.negative && n != 0) ++ Nat.toDigits 10 n
    | none => shown v

theorem tidyWith_written : tidyWith written = tidy := rfl

/-- What is made of number characters stays in one piece. -/
theorem isDelimiter_of_isNumberChar {c : Char} (h : isNumberChar c = true) :
    isDelimiter c = false := by
  cases hc : isDelimiter c with
  | false => rfl
  | true =>
      simp only [isDelimiter, List.contains_iff_mem, List.mem_cons, List.not_mem_nil, or_false] at hc
      rcases hc with rfl | rfl | rfl <;> contradiction

/-- A numeral made of number characters is no other word. -/
theorem numberWord_of_read? {text : List Char} {v : Float} (hread : read? text = some v)
    (hchars : ∀ c ∈ text, isNumberChar c = true) : NumberWord text where
  ne_nil := by
    rintro rfl
    contradiction
  onePiece c hc := isDelimiter_of_isNumberChar (hchars c hc)
  ne_x := by
    rintro rfl
    contradiction
  ne_symbol op := by
    rintro rfl
    cases op <;> contradiction
  ne_name fn := by
    rintro rfl
    cases fn <;> contradiction

/-- A double in the fewest digits is a number. -/
theorem numberWord_written (v : Float) : NumberWord (written v) := by
  cases hb : Binary.ofFloat? v with
  | some b => exact numberWord_of_read? (read?_written hb) isNumberChar_of_mem_written
  | none =>
      have hname := written_of_not_finite (Binary.ofFloat?_eq_none_iff.mp hb)
      have hwords : ∀ text ∈ names, text ≠ [] ∧ text ≠ ['x'] ∧
          (∀ op : Operator, text ≠ [op.symbol]) ∧ ∀ fn : Elementary, text ≠ fn.name := by
        simp only [names, List.forall_mem_cons]
        refine ⟨?_, ?_, ?_, by simp⟩ <;>
          exact ⟨by decide, by decide, fun op => by simp, fun fn => by cases fn <;> decide⟩
      obtain ⟨hne, hx, hsymbol, hfn⟩ := hwords _ hname
      exact ⟨hne, fun c hc => isDelimiter_of_isNumberChar (isNumberChar_of_mem_written c hc), hx,
        hsymbol, hfn⟩

theorem numberWord_tidyWith {shown : Float → List Char} (h : ∀ v, NumberWord (shown v)) (v : Float) :
    NumberWord (tidyWith shown v) := by
  unfold tidyWith
  split
  · exact h v
  split
  · next b _ _ n _ =>
    have hread := (writes_toDigits n).read?_eq (b.negative && n != 0)
    refine numberWord_of_read? hread ?_
    simp only [List.forall_mem_append]
    exact ⟨isNumberChar_of_mem_sign _, isNumberChar_of_digits (digits_toDigits n)⟩
  · exact h v

end Number

/-! ## notations -/

open Number

/-- Whatever text is taken for a double that is not written as an integer: two expressions have the
same text in one notation exactly if they have the same text in the other, which is if they differ at
most in constants with the same text. -/
theorem renderings_eq_iff {shown : Float → List Char} (h : ∀ v, Expr.NumberWord (shown v))
    (e₁ e₂ : Expr Float) :
    (e₁.algebraicWith (tidyWith shown) = e₂.algebraicWith (tidyWith shown) ↔
        e₁.map (tidyWith shown) = e₂.map (tidyWith shown)) ∧
      (e₁.reversePolishWith (tidyWith shown) = e₂.reversePolishWith (tidyWith shown) ↔
        e₁.map (tidyWith shown) = e₂.map (tidyWith shown)) ∧
      (e₁.algebraicWith (tidyWith shown) = e₂.algebraicWith (tidyWith shown) ↔
        e₁.reversePolishWith (tidyWith shown) = e₂.reversePolishWith (tidyWith shown)) := by
  have hnumbers := numberWord_tidyWith h
  have halgebraic := Expr.algebraicWith_eq_iff hnumbers e₁ e₂
  have hpolish := Expr.reversePolishWith_eq_iff hnumbers e₁ e₂
  exact ⟨halgebraic, hpolish, halgebraic.trans hpolish.symm⟩

/-- Two doubles next to each other are both written as `1`, so that the text in one notation, with
an infinity and an exponent in it, does not tell them apart any more than that in the other. -/
theorem renderings_eq_of_neighbours :
    let one := ofMagnitude false (1023 <<< 52)
    let next := ofMagnitude false ((1023 <<< 52) + 1)
    let large := Float.ofScientific 1 false 20
    let infinity := ofMagnitude true infinityBits
    let e := fun c : Float =>
      Expr.binary .sub (.const infinity) (.call .sin (.binary .mul (.const c) (.const large)))
    (∀ v, Expr.NumberWord (written v)) ∧
      (e one).toAlgebraic = "(-inf - sin((1 * 1e+20)))".toList ∧
      (e one).toAlgebraic = (e next).toAlgebraic ∧
      (e one).toReversePolish = (e next).toReversePolish := by
  intro one next large infinity e
  have htext : (e one).toAlgebraic = "(-inf - sin((1 * 1e+20)))".toList := by decide +kernel
  have hsame : (e one).toAlgebraic = (e next).toAlgebraic := by decide +kernel
  obtain ⟨-, -, hiff⟩ := renderings_eq_iff numberWord_written (e one) (e next)
  rw [tidyWith_written] at hiff
  exact ⟨numberWord_written, htext, hsame, hiff.mp hsame⟩

end GraphCalc
