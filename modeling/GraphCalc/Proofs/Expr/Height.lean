import GraphCalc.Proofs.Expr.PostOrder

/-!
# GraphCalc.Proofs.Expr.Height

The height of the stack, counted without a stack.

What a word of reverse Polish text does to the height depends on the word alone:

```
x, numeral   needs nothing          one higher
operator     needs a height of two  one lower
function     needs a height of one  the same height
```

Any other word is illegal.  Counting in this way decides how reading ends:

* `Climbs.run` — the stack is as high as the words before it say;
* `Illegal.pushWord_eq`, `Lacks.pushWord_eq` — what stops the reading at a word;
* `climbs_or_stops` — the words climb to the end, or there is a first one that stops them;
* `ofReversePolish_by_height` — so the first such word decides, and the height at the end if there is
  none.
-/

namespace GraphCalc.Expr

open Number

/-! ## counting -/

/-- A word in lower case needs a height, and changes it. -/
inductive Changes : List Char → Nat → Int → Prop
  | var : Changes ['x'] 0 1
  | const {w : List Char} {c : Float} (numeral : StandsFor w c) : Changes w 0 1
  | operator (op : Operator) : Changes [op.symbol] 2 (-1)
  | function (fn : Elementary) : Changes fn.name 1 0

/-- A word that is neither the variable nor a numeral, an operator or a function. -/
def Illegal (w : List Char) : Prop := ∀ needs change, ¬Changes w needs change

/-- A word that the height is too low for. -/
def Lacks (w : List Char) (height : Nat) : Prop :=
  ∃ needs change, Changes w needs change ∧ height < needs

/-- The words lead from one height to another, and each of them finds the height it needs. -/
inductive Climbs : Nat → List (List Char) → Nat → Prop
  | nil {height : Nat} : Climbs height [] height
  | cons {height next last needs : Nat} {change : Int} {w : List Char} {ws : List (List Char)}
      (changes : Changes w needs change) (enough : needs ≤ height)
      (isNext : (next : Int) = height + change) (rest : Climbs next ws last) :
      Climbs height (w :: ws) last

/-- Whatever a word takes off, it leaves one expression. -/
theorem Changes.change_eq {w : List Char} {needs : Nat} {change : Int}
    (h : Changes w needs change) : change = 1 - needs := by
  cases h <;> rfl

/-- What a word needs is there to be taken off. -/
theorem Changes.exists_next {w : List Char} {needs height : Nat} {change : Int}
    (h : Changes w needs change) (enough : needs ≤ height) :
    ∃ next : Nat, (next : Int) = height + change := by
  have hchange := h.change_eq
  exact ⟨(height + change).toNat, Int.toNat_of_nonneg (by omega)⟩

/-! ## one word -/

/-- On a stack that is high enough, a word changes the height as it should. -/
theorem Changes.pushWord_eq {w : List Char} {needs : Nat} {change : Int}
    (h : Changes w needs change) {stack : List (Expr Float)} (enough : needs ≤ stack.length) :
    ∃ stack', pushWord stack w = .ok stack' ∧ (stack'.length : Int) = stack.length + change := by
  cases h with
  | var => exact ⟨.var :: stack, rfl, by simp⟩
  | const numeral =>
      exact ⟨_, pushWord_numeral (read?_eq_some_iff.mpr numeral) stack, by simp⟩
  | operator op =>
      match stack, enough with
      | r :: l :: stack, _ =>
          refine ⟨binary op l r :: stack, pushWord_symbol op _, ?_⟩
          simp only [List.length_cons]
          omega
  | function fn =>
      match stack, enough with
      | a :: stack, _ => exact ⟨call fn a :: stack, pushWord_name fn _, by simp⟩

/-- A word has one effect at most, so the order in which words are told apart does not matter. -/
theorem Changes.unique {w : List Char} {needs needs' : Nat} {change change' : Int}
    (h : Changes w needs change) (h' : Changes w needs' change') :
    needs = needs' ∧ change = change' := by
  -- a stack that is high enough for both tells the one height afterwards
  let stack : List (Expr Float) := List.replicate (max needs needs') .var
  have hlength : stack.length = max needs needs' := List.length_replicate
  have henough : needs ≤ stack.length := by omega
  have henough' : needs' ≤ stack.length := by omega
  obtain ⟨after, hpush, hafter⟩ := h.pushWord_eq henough
  obtain ⟨after', hpush', hafter'⟩ := h'.pushWord_eq henough'
  rw [hpush, Except.ok.injEq] at hpush'
  subst hpush'
  have hchange := h.change_eq
  have hchange' := h'.change_eq
  omega

/-- On a stack that is too low, a word has no operands. -/
theorem Lacks.pushWord_eq {w : List Char} {stack : List (Expr Float)} (h : Lacks w stack.length) :
    pushWord stack w = .error .unbalanced := by
  obtain ⟨needs, change, hchanges, hlow⟩ := h
  cases hchanges with
  | var | const => contradiction
  | operator op =>
      rw [pushWord_symbol]
      match stack, hlow with
      | [], _ | [_], _ => rfl
  | function fn =>
      rw [pushWord_name]
      match stack, hlow with
      | [], _ => rfl

/-- On any stack, an illegal word is refused. -/
theorem Illegal.pushWord_eq {w : List Char} (h : Illegal w) (stack : List (Expr Float)) :
    pushWord stack w = .error (.illegalToken w) := by
  have hread : read? w = none := Option.eq_none_iff_forall_ne_some.mpr fun c hc =>
    h 0 1 (.const (read?_eq_some_iff.mp hc))
  have hoperator : Operator.ofText? w = none :=
    Option.eq_none_iff_forall_ne_some.mpr fun op hop =>
      h 2 (-1) (Operator.symbol_of_ofText? hop ▸ .operator op)
  have hfunction : Elementary.ofName? w = none :=
    Option.eq_none_iff_forall_ne_some.mpr fun fn hfn =>
      h 1 0 (Elementary.name_of_ofName? hfn ▸ .function fn)
  have hvar : w ≠ ['x'] := fun hx => h 0 1 (hx ▸ .var)
  rw [pushWord, if_neg hvar, hread, hoperator, hfunction]

/-! ## all words -/

/-- The stack is as high as counting says. -/
theorem Climbs.run {height last : Nat} {ws : List (List Char)} (h : Climbs height ws last)
    {stack : List (Expr Float)} (hstack : stack.length = height) :
    ∃ stack', ws.foldlM pushWord stack = .ok stack' ∧ stack'.length = last := by
  induction h generalizing stack with
  | nil => exact ⟨stack, rfl, hstack⟩
  | @cons _ next _ _ _ _ _ hchanges henough hnext _ ih =>
      obtain ⟨after, hpush, hafter⟩ := hchanges.pushWord_eq (hstack ▸ henough)
      have hheight : after.length = next := by omega
      obtain ⟨stack', hrun, hlast⟩ := ih hheight
      refine ⟨stack', ?_, hlast⟩
      rw [List.foldlM_cons, hpush]
      exact hrun

/-- A word that is refused at its height stops the reading of all of them. -/
theorem Climbs.stopped {height : Nat} {before after : List (List Char)} {w : List Char}
    {reason : Refusal} (h : Climbs 0 before height)
    (hword : ∀ stack : List (Expr Float), stack.length = height →
      pushWord stack w = .error reason) :
    (before ++ w :: after).foldlM pushWord [] = .error reason := by
  obtain ⟨stack, hrun, hstack⟩ := h.run List.length_nil
  rw [List.foldlM_append, hrun]
  simp only [bind, Except.bind, List.foldlM_cons, hword stack hstack]

/-- From any height the words climb to the end, or there is a first one that is illegal or lacks
operands. -/
theorem climbs_or_stops (ws : List (List Char)) (height : Nat) :
    (∃ last, Climbs height ws last) ∨
      ∃ before w after last, ws = before ++ w :: after ∧ Climbs height before last ∧
        (Illegal w ∨ Lacks w last) := by
  induction ws generalizing height with
  | nil => exact .inl ⟨height, .nil⟩
  | cons w ws ih =>
      by_cases hlegal : ∃ needs change, Changes w needs change
      · obtain ⟨needs, change, hchanges⟩ := hlegal
        by_cases henough : needs ≤ height
        · obtain ⟨next, hnext⟩ := hchanges.exists_next henough
          obtain ⟨last, hlast⟩ | ⟨before, v, after, last, rfl, hclimbs, hstop⟩ := ih next
          · exact .inl ⟨last, .cons hchanges henough hnext hlast⟩
          · exact .inr ⟨w :: before, v, after, last, rfl,
              .cons hchanges henough hnext hclimbs, hstop⟩
        · exact .inr ⟨[], w, ws, height, rfl, .nil,
            .inr ⟨needs, change, hchanges, Nat.lt_of_not_le henough⟩⟩
      · exact .inr ⟨[], w, ws, height, rfl, .nil,
          .inl fun needs change hchanges => hlegal ⟨needs, change, hchanges⟩⟩

/-! ## texts -/

/-- A text whose words climb to a height is read if that height is one, and only then. -/
theorem ofReversePolish_of_climbs {text : List Char} {last : Nat}
    (h : Climbs 0 ((Text.words text).map Text.lower) last) :
    ((∃ e, ofReversePolish text = .ok e) ↔ last = 1) ∧
      (last ≠ 1 → ofReversePolish text = .error .unbalanced) := by
  obtain ⟨stack, hrun, rfl⟩ := h.run List.length_nil
  rw [ofReversePolish, hrun]
  rcases stack with - | ⟨e, - | ⟨e', stack⟩⟩
  · refine ⟨⟨?_, fun hone => by contradiction⟩, fun _ => rfl⟩
    rintro ⟨e, he⟩
    contradiction
  · exact ⟨⟨fun _ => rfl, fun _ => ⟨e, rfl⟩⟩, fun hone => absurd rfl hone⟩
  · refine ⟨⟨?_, fun hone => by simp at hone⟩, fun _ => rfl⟩
    rintro ⟨e, he⟩
    contradiction

/-- Counting decides how a text in reverse Polish notation is read.

* A word has one effect at most.
* The first word that is illegal or lacks operands stops the reading: an illegal one is quoted in the
  message, in lower case, and one that lacks operands leaves the text unbalanced.
* Without such a word the text is read if the height at the end is one, and else unbalanced.
* One of the two is always the case. -/
theorem ofReversePolish_by_height (text : List Char) :
    (∀ w needs needs' change change', Changes w needs change → Changes w needs' change' →
      needs = needs' ∧ change = change') ∧
    (∀ before w after height, (Text.words text).map Text.lower = before ++ w :: after →
      Climbs 0 before height →
      (Illegal w → ofReversePolish text = .error (.illegalToken w) ∧
        (Refusal.illegalToken w).message = "Illegal token \"".toList ++ w ++ ['\x22']) ∧
      (Lacks w height → ofReversePolish text = .error .unbalanced)) ∧
    (∀ last, Climbs 0 ((Text.words text).map Text.lower) last →
      ((∃ e, ofReversePolish text = .ok e) ↔ last = 1) ∧
      (last ≠ 1 → ofReversePolish text = .error .unbalanced)) ∧
    ((∃ last, Climbs 0 ((Text.words text).map Text.lower) last) ∨
      ∃ before w after height, (Text.words text).map Text.lower = before ++ w :: after ∧
        Climbs 0 before height ∧ (Illegal w ∨ Lacks w height)) := by
  refine ⟨fun _ _ _ _ _ => Changes.unique, fun before w after height hwords hclimbs => ?_,
    fun last => ofReversePolish_of_climbs, climbs_or_stops _ 0⟩
  have hstop : ∀ reason, (∀ stack : List (Expr Float), stack.length = height →
      pushWord stack w = .error reason) → ofReversePolish text = .error reason := by
    intro reason hword
    rw [ofReversePolish, hwords, hclimbs.stopped hword]
    rfl
  refine ⟨fun hillegal => ⟨hstop _ fun stack _ => hillegal.pushWord_eq stack, rfl⟩,
    fun hlacks => hstop _ fun stack hstack => ?_⟩
  subst hstack
  exact hlacks.pushWord_eq

end GraphCalc.Expr
