import GraphCalc.Engine
import GraphCalc.Proofs.Checked.Outlines
import GraphCalc.Proofs.Grammar.Reading

/-!
# GraphCalc.Proofs.Checked.Builder

Reading a text in steps that are checked.

In algebraic notation the parts of a text are put together to an expression, and the operands are
texts that are split again.  That an operand is there, and has fewer tokens than the text it comes
from, is checked.  In reverse Polish notation every expression that is taken off the stack is
checked for.

* `build_eq` — algebraic notation is read as `Expr.ofAlgebraic` does, without a limit;
* `run_eq` — reverse Polish notation is read as `Expr.ofReversePolish` does;
* `split_operand` — the operands of a text have fewer tokens than the text.
-/

namespace GraphCalc.Checked

open Item

/-! ## algebraic notation -/

/-- The expression that parts stand for, given how their operands are read. -/
def assemble (operand : Option (List Char) → Except Stop (Expr Float)) (parts : Parts) :
    Except Stop (Expr Float) :=
  if Text.lower parts.main = ['x'] then .ok .var
  else if parts.right.isNone && parts.left.isSome && !parts.main.isEmpty
      && parts.main.all Text.isLetter then
    match Elementary.ofName? (Text.lower parts.main) with
    | some fn => do return .call fn (← operand parts.left)
    | none => .error (.refused (.unknownFunction parts.main))
  else
    match Operator.ofText? parts.main with
    | some op => do
      let l ← operand parts.left
      let r ← operand parts.right
      return .binary op l r
    | none =>
      match Number.read? parts.main with
      | some v => .ok (.const v)
      | none => .error (.refused (.unknownToken parts.main))

/-- The expression that a text in algebraic notation stands for. -/
def build (text : List Char) : Except Stop (Expr Float) := do
  let parts ← split text
  assemble (fun operand =>
    match operand with
    | none => .error (.fault .noOperand)
    | some t =>
      if _h : tokenCount t < tokenCount text then build t
      else .error (.fault .noProgress)) parts
termination_by tokenCount text

/-! ## reverse Polish notation -/

/-- The expression on top of the stack, and the rest. -/
def pop : List (Expr Float) → Except Stop (Expr Float × List (Expr Float))
  | e :: stack => .ok (e, stack)
  | [] => .error (.fault .emptyStack)

/-- The stack after a word in lower case. -/
def runWord (stack : List (Expr Float)) (word : List Char) : Except Stop (List (Expr Float)) :=
  if word = ['x'] then .ok (.var :: stack)
  else
    match Number.read? word, Operator.ofText? word, Elementary.ofName? word with
    | some v, _, _ => .ok (.const v :: stack)
    | none, some op, _ =>
      if stack.length < 2 then .error (.refused .unbalanced)
      else do
        let (right, stack) ← pop stack
        let (left, stack) ← pop stack
        return .binary op left right :: stack
    | none, none, some fn =>
      if stack.isEmpty then .error (.refused .unbalanced)
      else do
        let (argument, stack) ← pop stack
        return .call fn argument :: stack
    | none, none, none => .error (.refused (.illegalToken word))

/-- The expression that a text in reverse Polish notation stands for. -/
def run (text : List Char) : Except Stop (Expr Float) := do
  let stack ← ((Text.words text).map Text.lower).foldlM runWord []
  if stack.length ≠ 1 then .error (.refused .unbalanced)
  else do
    let (e, _) ← pop stack
    return e

/-! ## words -/

/-- A function's name in lower case is its name in any case. -/
theorem ofName?_lower (name : List Char) :
    Elementary.ofName? (Text.lower name) = Elementary.ofName? (name.map Char.toLower) := by
  have hiff : ∀ {name fn}, Elementary.ofName? name = some fn ↔ name = fn.name := by
    intro name fn
    constructor
    · exact fun h => (Elementary.name_of_ofName? h).symm
    · rintro rfl
      exact Elementary.ofName?_name fn
  refine Option.ext fun fn => ?_
  rw [hiff, hiff, Text.lower_eq_iff_of_plain (isPlain_name fn)]

/-- Numbers and words are no operators. -/
theorem ofText?_eq_none {t : Token} (h : Token.Formed t.kind t.text)
    (hk : t.kind = .number ∨ t.kind = .word) : Operator.ofText? t.text = none := by
  rw [Option.eq_none_iff_forall_ne_some]
  intro op hop
  rw [← Operator.symbol_of_ofText? hop] at h
  rcases hk with hk | hk
  · rw [hk] at h
    have hnumber := h.inNumber op.symbol (by simp)
    cases op <;> revert hnumber <;> decide
  · rw [hk] at h
    obtain ⟨c, cs, heq, hword, -⟩ := h.startsWord
    rw [List.cons.injEq] at heq
    rw [← heq.1] at hword
    cases op <;> revert hword <;> decide

/-! ## parts read -/

/-- The tokens that stand for themselves in an outline. -/
def IsLeaf (items : List Item) : Outline → Prop
  | .single t => t ∈ flatten items ∧ (t.kind = .number ∨ t.kind = .word)
  | .call name _ => name ∈ flatten items ∧ name.kind = .word
  | .negation operand => operand ≠ []
  | .binary .. => True

/-- A single token is a number or a word, and what is called is a word. -/
theorem isLeaf_of_top {items : List Item} {outline : Outline} (h : Outline.Top items outline)
    (hnested : WellNested items) : IsLeaf items outline := by
  induction h with
  | @parentheses o c inner outline _ ih =>
      cases hnested with
      | group _ hinner =>
          have hinside := ih hinner
          cases outline with
          | single t | call t =>
              refine ⟨?_, hinside.2⟩
              simp [hinside.1]
          | negation => exact hinside
          | binary => trivial
  | @positive sign rest outline _ _ _ _ _ ih =>
      cases hnested with
      | token _ _ hrest =>
          have hafter := ih hrest
          cases outline with
          | single t | call t =>
              refine ⟨?_, hafter.2⟩
              simp [hafter.1]
          | negation => exact hafter
          | binary => trivial
  | sum | product | power => trivial
  | negative _ _ _ hrest => exact hrest
  | call hword => exact ⟨by simp, hword⟩
  | @single t hoperator =>
      refine ⟨by simp, ?_⟩
      cases hnested with
      | token ho hc =>
          cases hk : t.kind with
          | number => exact .inl rfl
          | word => exact .inr rfl
          | opening => exact absurd hk ho
          | closing => exact absurd hk hc
          | operator op => exact absurd hk (hoperator op)

/-- The text of an operand is a line of its own, with as many tokens, and read as the operand is. -/
theorem ofLine_operand {line : List Char} {items operand : List Item} {outline : Outline}
    (hitems : Item.ofLine line = .ok items) (htop : Outline.Top items outline)
    (hoperand : operand ∈ outline.operands) :
    (∃ us, Item.ofLine ((Item.window operand).text line) = .ok us ∧ size us = size operand) ∧
      ∀ n, Expr.ofAlgebraic n ((Item.window operand).text line) =
        Expr.ofItems line n (Item.window operand) operand := by
  obtain ⟨hnested, hscan⟩ := ofLine_eq_ok_iff.mp hitems
  obtain ⟨before, after, hsplit⟩ := htop.infix_operand operand hoperand
  have hoperandNested := htop.wellNested_operand hnested operand hoperand
  rw [← hsplit, List.append_assoc] at hscan
  refine ⟨⟨_, ofLine_window hoperandNested hscan, ?_⟩, ofAlgebraic_window hoperandNested hscan⟩
  rw [size, flatten_allMoved, List.length_map, size]

/-- A negation has a token more than its operand, so it has more than the zero in front of it. -/
theorem one_lt_size_of_negation {items operand : List Item}
    (htop : Outline.Top items (.negation operand)) (hne : operand ≠ []) : 1 < size items := by
  have hpos := size_pos hne
  have hlt := htop.size_operand_lt operand (by simp [Outline.operands])
  omega

theorem scan_zero : Token.scan ['0'] = .ok [⟨.number, ['0'], 0⟩] := by
  have hformed : Token.Formed .number ['0'] :=
    .number (by simp) (List.forall_mem_singleton.mpr (by decide)) (by decide) (by simp)
  exact Token.scanFrom_eq_ok_iff.mpr (.token hformed (by simp) .nil)

theorem tokenCount_zero : tokenCount ['0'] = 1 := by
  rw [tokenCount, scan_zero]
  rfl

/-- The zero that a negation subtracts from. -/
theorem ofAlgebraic_zero : Expr.ofAlgebraic 2 ['0'] = .ok (.num 0) := by
  have hplain : Number.Numeral.Plain ['0'] ['0'] none :=
    ⟨rfl, by simp [Number.Numeral.Digits], by simp [Number.Numeral.Digits], by simp⟩
  have hvalue : Number.Numeral.plainValue ['0'] none = Arithmetic.ofInt 0 := by decide +kernel
  have hderives : Derives .primary [⟨.number, ['0'], 0⟩] (.num 0) := by
    rw [Expr.num, ← hvalue]
    exact .number rfl hplain
  exact hderives.ofPrimary'.ofAlgebraic_eq scan_zero (by decide)

/-- The parts of an outline are put together to what the outline stands for. -/
theorem assemble_eq {line : List Char} {n : Nat} {items : List Item} {outline : Outline}
    {operand : Option (List Char) → Except Stop (Expr Float)} (hleaf : IsLeaf items outline)
    (hformed : ∀ t ∈ flatten items, Token.Formed t.kind t.text)
    (hoperand : ∀ o ∈ outline.operands, operand (some ((Item.window o).text line)) =
      ofRefusal (Expr.ofItems line n (Item.window o) o))
    (hzero : ∀ o, outline = .negation o → operand (some ['0']) = .ok (.num 0)) :
    assemble operand (outline.parts line) = ofRefusal (Expr.ofOutline line n outline) := by
  cases outline with
  | single t =>
      obtain ⟨hmem, hkind⟩ := hleaf
      have hnone := ofText?_eq_none (hformed t hmem) hkind
      rw [assemble, Outline.parts, Expr.ofOutline, Expr.ofToken]
      by_cases hvar : Expr.isVariable t.text = true
      · rw [if_pos hvar, if_pos (isVariable_iff.mp hvar)]
        rfl
      · rw [if_neg hvar, if_neg fun hx => hvar (isVariable_iff.mpr hx)]
        simp only [Option.isSome_none, Bool.and_false, Bool.false_and, Bool.false_eq_true, if_false,
          hnone]
        cases Number.read? t.text <;> rfl
  | call name argument =>
      obtain ⟨hmem, hword⟩ := hleaf
      have hname := hformed name hmem
      have hnone := ofText?_eq_none hname (.inr hword)
      have hargument := hoperand argument (by simp [Outline.operands])
      have hempty : name.text.isEmpty = false := by simpa using hname.ne_nil
      rw [hword] at hname
      rw [assemble, Outline.parts, Expr.ofOutline]
      by_cases hvar : Expr.isVariable name.text = true
      · rw [if_pos hvar, if_pos (isVariable_iff.mp hvar)]
        rfl
      · rw [if_neg hvar, if_neg fun hx => hvar (isVariable_iff.mpr hx)]
        simp only [Option.isNone_none, Option.isSome_some, hempty, Bool.not_false, Bool.true_and,
          hnone, read?_word hname, Expr.callee, ofName?_lower]
        cases hletters : name.text.all Text.isLetter with
        | false => rfl
        | true =>
            simp only [if_true]
            cases Elementary.ofName? (name.text.map Char.toLower) with
            | none => rfl
            | some fn =>
                simp only [hargument, bind, Except.bind]
                cases Expr.ofItems line n (Item.window argument) argument <;> rfl
  | negation o =>
      have hread := hoperand o (by simp [Outline.operands])
      have hminus : Text.lower ['-'] ≠ ['x'] := by decide
      rw [assemble, Outline.parts, Expr.ofOutline, if_neg hminus]
      simp only [Option.isNone_some, Bool.false_and, Bool.false_eq_true, if_false,
        Operator.ofText?, Operator.ofSymbol?, hzero o rfl, hread, bind, Except.bind]
      cases Expr.ofItems line n (Item.window o) o <;> rfl
  | binary op left right =>
      have hleft := hoperand left (by simp [Outline.operands])
      have hright := hoperand right (by simp [Outline.operands])
      have hsymbol : Text.lower [op.symbol] ≠ ['x'] := by cases op <;> decide
      rw [assemble, Outline.parts, Expr.ofOutline, if_neg hsymbol]
      simp only [Option.isNone_some, Bool.false_and, Bool.false_eq_true, if_false,
        Operator.ofText?, Operator.ofSymbol?_symbol, hleft, hright, bind, Except.bind]
      cases Expr.ofItems line n (Item.window left) left with
      | error reason => rfl
      | ok l => cases Expr.ofItems line n (Item.window right) right <;> rfl

/-- Algebraic notation is read as by items, without a limit and without a fault. -/
theorem build_eq {line : List Char} {levels : Nat} (hlevels : tokenCount line < levels) :
    build line = ofRefusal (Expr.ofAlgebraic levels line) := by
  induction hcount : tokenCount line using Nat.strongRecOn generalizing line levels with
  | ind count ih =>
      subst hcount
      obtain ⟨n, rfl⟩ := Nat.exists_eq_succ_of_ne_zero (n := levels) (by omega)
      rw [build, split_eq hlevels, Parts.ofLine, Expr.ofAlgebraic]
      cases hitems : Item.ofLine line with
      | error flaw => rfl
      | ok items =>
          rw [tokenCount_eq hitems] at hlevels ih
          simp only [bind, Except.bind, Expr.ofItems_succ]
          cases hfound : Outline.ofItems (n + 1) items with
          | error flaw => rfl
          | ok outline =>
              have htop := Outline.top_of_ofItems hfound
              have hleaf := isLeaf_of_top htop (ofLine_eq_ok_iff.mp hitems).1
              have hformed := (scanned_of_ofLine hitems).formed
              have hoperand : ∀ operand ∈ outline.operands,
                  tokenCount ((Item.window operand).text line) < size items ∧
                    build ((Item.window operand).text line) =
                      ofRefusal (Expr.ofItems line n (Item.window operand) operand) := by
                intro operand hmem
                obtain ⟨⟨us, hus, hlength⟩, hread⟩ := ofLine_operand hitems htop hmem
                have hsize := htop.size_operand_lt operand hmem
                rw [← hlength, ← tokenCount_eq hus] at hsize
                refine ⟨hsize, ?_⟩
                rw [← hread]
                exact ih _ hsize (by omega) rfl
              rw [tokenCount_eq hitems]
              refine assemble_eq hleaf hformed (fun o ho => ?_) fun o hnegation => ?_
              · obtain ⟨hsize, hread⟩ := hoperand o ho
                simp only [hsize, hread, dif_pos]
              · have htwo : tokenCount ['0'] < size items := by
                  subst hnegation
                  rw [tokenCount_zero]
                  exact one_lt_size_of_negation htop hleaf
                have henough : tokenCount ['0'] < 2 := by
                  rw [tokenCount_zero]
                  decide
                have hread := ih _ htwo henough rfl
                simp only [htwo, hread, dif_pos, ofAlgebraic_zero]
                rfl

/-- The operands of a text have fewer tokens than the text. -/
theorem split_operand {text operand : List Char} {parts : Parts} (h : split text = .ok parts)
    (hoperand : parts.left = some operand ∨ parts.right = some operand) :
    ∃ ts us, Token.scan text = .ok ts ∧ Token.scan operand = .ok us ∧ us.length < ts.length := by
  rw [split_eq (Nat.lt_succ_self _), Parts.ofLine] at h
  cases hitems : Item.ofLine text with
  | error flaw =>
      rw [hitems] at h
      contradiction
  | ok items =>
      rw [hitems] at h
      simp only [bind, Except.bind] at h
      cases hfound : Outline.ofItems (tokenCount text).succ items with
      | error flaw =>
          rw [hfound] at h
          contradiction
      | ok outline =>
          rw [hfound] at h
          have hparts : parts = outline.parts text := (Except.ok.inj h).symm
          have htop := Outline.top_of_ofItems hfound
          obtain ⟨-, hscan⟩ := ofLine_eq_ok_iff.mp hitems
          have hleaf := isLeaf_of_top htop (ofLine_eq_ok_iff.mp hitems).1
          have hwhole : ∀ o ∈ outline.operands, operand = (Item.window o).text text →
              ∃ ts us, Token.scan text = .ok ts ∧ Token.scan operand = .ok us ∧
                us.length < ts.length := by
            rintro o ho rfl
            obtain ⟨⟨us, hus, hlength⟩, -⟩ := ofLine_operand hitems htop ho
            have hlt := htop.size_operand_lt o ho
            rw [← hlength] at hlt
            exact ⟨_, _, hscan, (ofLine_eq_ok_iff.mp hus).2, hlt⟩
          subst hparts
          cases outline with
          | single t => simp [Outline.parts] at hoperand
          | call name argument =>
              have htext : operand = (Item.window argument).text text := by
                simpa [Outline.parts, eq_comm] using hoperand
              exact hwhole argument (by simp [Outline.operands]) htext
          | negation o =>
              simp only [Outline.parts, Option.some.injEq] at hoperand
              rcases hoperand with rfl | rfl
              · exact ⟨_, _, hscan, scan_zero, one_lt_size_of_negation htop hleaf⟩
              · exact hwhole o (by simp [Outline.operands]) rfl
          | binary op left right =>
              simp only [Outline.parts, Option.some.injEq] at hoperand
              rcases hoperand with rfl | rfl
              · exact hwhole left (by simp [Outline.operands]) rfl
              · exact hwhole right (by simp [Outline.operands]) rfl

/-! ## reverse Polish notation is read -/

/-- A word does to the stack what `Expr.pushWord` says, and takes off what is there. -/
theorem runWord_eq (stack : List (Expr Float)) (word : List Char) :
    runWord stack word = ofRefusal (Expr.pushWord stack word) := by
  rw [runWord, Expr.pushWord]
  split
  · rfl
  · cases Number.read? word with
    | some v => rfl
    | none =>
        cases Operator.ofText? word with
        | some op =>
            match stack with
            | [] | [_] => rfl
            | right :: left :: stack =>
                simp [Expr.pushOperator, pop, ofRefusal, bind, Except.bind, pure, Except.pure]
        | none =>
            cases Elementary.ofName? word with
            | none => rfl
            | some fn => cases stack <;> rfl

theorem foldlM_runWord_eq (words : List (List Char)) (stack : List (Expr Float)) :
    words.foldlM runWord stack = ofRefusal (words.foldlM Expr.pushWord stack) := by
  induction words generalizing stack with
  | nil => rfl
  | cons word words ih =>
      rw [List.foldlM_cons, List.foldlM_cons, runWord_eq]
      cases Expr.pushWord stack word with
      | error reason => rfl
      | ok stack => exact ih stack

/-- Reverse Polish notation is read without a fault. -/
theorem run_eq (text : List Char) : run text = ofRefusal (Expr.ofReversePolish text) := by
  rw [run, Expr.ofReversePolish, foldlM_runWord_eq]
  cases ((Text.words text).map Text.lower).foldlM Expr.pushWord [] with
  | error reason => rfl
  | ok stack =>
      match stack with
      | [] | [_] | _ :: _ :: _ => simp [pop, ofRefusal, bind, Except.bind, pure, Except.pure]

end GraphCalc.Checked
