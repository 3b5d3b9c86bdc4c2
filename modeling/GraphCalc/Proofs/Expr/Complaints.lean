import GraphCalc.Proofs.Expr.Moved
import GraphCalc.Proofs.Item.Partners
import GraphCalc.Proofs.Token.Stumbles

/-!
# GraphCalc.Proofs.Expr.Complaints

Complaints point at the input.

```
ERROR: x *          the text of the operand that was being read
         ^          carets under the token that lacks an operand
Missing operand
```

A complaint about a line is about the line as a whole, or it is the complaint about the text of an
operand: `complains_or_operand` is that step, and `ofAlgebraic_points` goes from operand to operand.
What a complaint marks is the character that scanning stumbles over, or a whole token.
-/

namespace GraphCalc

open Item

/-- The characters that a complaint marks. -/
def Complaint.marked (c : Complaint) : List Char := (c.text.drop c.index).take c.length

/-- What stands in the text from a position on, and what the problem is with it: it is the character
that scanning stumbles over there, or a whole token of the text. -/
inductive Offends (text : List Char) (index : Nat) : Problem → List Char → Prop
  | character {problem : Problem} {ch : Char} (stumbles : Token.Stumbles 0 text problem index)
      (isCharacter : problem.character? = some ch) : Offends text index problem [ch]
  | token {problem : Problem} {ts : List Token} {t : Token} (scanned : Token.scan text = .ok ts)
      (isToken : t ∈ ts) (starts : t.start = index) (concerns : problem.Concerns t.kind) :
      Offends text index problem t.text

/-- A complaint shows a part of the line, and what it marks in there is what offends. -/
structure Complaint.Points (line : List Char) (c : Complaint) : Prop where
  part : c.text <:+: line
  marks : 1 ≤ c.length
  inside : c.index + c.length ≤ c.text.length
  offends : Offends c.text c.index c.problem c.marked
  visible : ∀ ch ∈ c.marked, Text.isBlank ch = false
  /-- Below the text stand blanks up to what is marked, and then a caret for each of its characters. -/
  carets : ∃ before after, c.text = before ++ (c.marked ++ after) ∧
    c.message = "\nERROR: ".toList ++ c.text ++ "\n       ".toList ++ before.map (fun _ => ' ') ++
      c.marked.map (fun _ => '^') ++ '\n' :: c.problem.message

/-- What is marked within the text has the carets below it. -/
theorem Complaint.carets_of_inside {c : Complaint} (h : c.index + c.length ≤ c.text.length) :
    ∃ before after, c.text = before ++ (c.marked ++ after) ∧
      c.message = "\nERROR: ".toList ++ c.text ++ "\n       ".toList ++
        before.map (fun _ => ' ') ++ c.marked.map (fun _ => '^') ++ '\n' :: c.problem.message := by
  have hmarked : c.marked.length = c.length := by
    rw [Complaint.marked, List.length_take, List.length_drop]
    omega
  refine ⟨c.text.take c.index, c.text.drop (c.index + c.length), ?_, ?_⟩
  · rw [Complaint.marked, ← List.drop_drop, List.take_append_drop, List.take_append_drop]
  · rw [List.map_const', List.map_const', hmarked, List.length_take, Nat.min_eq_left (by omega)]
    rfl

theorem Complaint.Points.mono {line part : List Char} {c : Complaint} (h : c.Points part)
    (hpart : part <:+: line) : c.Points line :=
  { h with part := h.part.trans hpart }

section

variable {line : List Char} {problem : Problem} {c : Complaint}

/-! ## complaints about a whole line -/

/-- The character that scanning stumbles over is marked. -/
theorem points_of_stumbles {i : Nat} (h : Token.Stumbles 0 line problem i) :
    Complaint.Points line ⟨problem, line, i, 1⟩ := by
  obtain ⟨before, ch, after, rfl, rfl, hblank, hch⟩ := h.marks
  rw [Nat.zero_add] at h ⊢
  have hmarked : Complaint.marked ⟨problem, before ++ ch :: after, before.length, 1⟩ = [ch] := by
    rw [Complaint.marked, List.drop_left, List.take_succ_cons, List.take_zero]
  have hinside : before.length + 1 ≤ (before ++ ch :: after).length := by simp
  refine ⟨List.infix_refl _, Nat.le_refl 1, hinside, ?_, ?_, Complaint.carets_of_inside hinside⟩
  · rw [hmarked]
    exact .character h hch
  · rw [hmarked]
    exact List.forall_mem_singleton.mpr hblank

/-- The whole of a token is marked. -/
theorem points_of_token {ts : List Token} {t : Token} (hscan : Token.scan line = .ok ts)
    (ht : t ∈ ts) (hconcerns : problem.Concerns t.kind) :
    Complaint.Points line ⟨problem, line, t.start, t.text.length⟩ := by
  have hspells := Token.spells_of_scanFrom hscan
  have hformed := hspells.formed t ht
  have hwithin := hspells.within t ht
  rw [Nat.zero_add] at hwithin
  have hmarked : Complaint.marked ⟨problem, line, t.start, t.text.length⟩ = t.text := by
    have hspan : (line.take (t.start + t.text.length)).drop t.start = t.text :=
      hspells.lexedFrom.2 t ht
    rwa [List.drop_take, Nat.add_sub_cancel_left] at hspan
  refine ⟨List.infix_refl _, List.length_pos_iff.mpr hformed.ne_nil, hwithin.2, ?_, ?_,
    Complaint.carets_of_inside hwithin.2⟩
  · rw [hmarked]
    exact .token hscan ht rfl hconcerns
  · rw [hmarked]
    exact hformed.not_isBlank

/-- A complaint about a flaw of the line shows all of it. -/
theorem flaw_of_refusal_whole {flaw : Flaw}
    (h : flaw.refusal line ⟨0, line.length⟩ = .located c) :
    flaw = .located c.problem c.index c.length ∧ c.text = line := by
  cases flaw with
  | located problem start length =>
      cases h
      simp [Window.text]
  | empty | tooDeep => contradiction

/-- A line without items is refused for a character or a parenthesis. -/
theorem points_of_ofLine {start length : Nat}
    (h : Item.ofLine line = .error (.located problem start length)) :
    Complaint.Points line ⟨problem, line, start, length⟩ := by
  rcases bind_eq_error.mp h with hscan | ⟨ts, hscan, hgroup⟩
  · obtain ⟨_, _, hflaw, hstumbles⟩ := Token.stumbles_of_scanFrom hscan
    cases hflaw
    exact points_of_stumbles hstumbles
  · obtain ⟨t, ht, problem, hconcerns, hflaw⟩ := exists_flaw_of_groupTokens hgroup
    cases hflaw
    exact points_of_token hscan ht hconcerns

/-- Items without an outline are refused for one of their tokens. -/
theorem points_of_outline {n start length : Nat} {items : List Item}
    (hscan : Token.scan line = .ok (flatten items))
    (h : Outline.ofItems n items = .error (.located problem start length)) :
    Complaint.Points line ⟨problem, line, start, length⟩ := by
  obtain ⟨-, t, ht, hconcerns, rfl, rfl⟩ := Outline.blames_of_ne_tooDeep h (by simp)
  exact points_of_token hscan ht hconcerns

end

namespace Expr

variable {levels : Nat} {line : List Char} {c : Complaint}

/-! ## from operand to operand -/

/-- A complaint is about the line, or it is the one about the text of an operand. -/
theorem complains_or_operand (h : ofAlgebraic levels line = .error (.located c)) :
    c.Points line ∨ ∃ n part, levels = n + 1 ∧ part <:+: line ∧
      ofAlgebraic n part = .error (.located c) := by
  unfold ofAlgebraic at h
  cases hitems : Item.ofLine line with
  | error flaw =>
      rw [hitems] at h
      obtain ⟨rfl, htext⟩ := flaw_of_refusal_whole (Except.error.inj h)
      obtain ⟨problem, text, index, length⟩ := c
      subst htext
      exact .inl (points_of_ofLine hitems)
  | ok items =>
      obtain ⟨hnested, hscan⟩ := ofLine_eq_ok_iff.mp hitems
      rw [hitems] at h
      dsimp only at h
      cases levels with
      | zero => simp [ofItems] at h
      | succ n =>
          rw [ofItems_succ] at h
          cases hfound : Outline.ofItems (n + 1) items with
          | error flaw =>
              rw [hfound] at h
              obtain ⟨rfl, htext⟩ := flaw_of_refusal_whole (Except.error.inj h)
              obtain ⟨problem, text, index, length⟩ := c
              subst htext
              exact .inl (points_of_outline hscan hfound)
          | ok outline =>
              rw [hfound] at h
              have htop := Outline.top_of_ofItems hfound
              rcases ofOutline_eq_error h with hunknown | ⟨operand, hmem, hoperand⟩
              · exact hunknown.elim
              · obtain ⟨before, after, hflat⟩ := htop.infix_operand operand hmem
                rw [← hflat, List.append_assoc] at hscan
                rw [← ofAlgebraic_window (htop.wellNested_operand hnested operand hmem) hscan]
                  at hoperand
                refine .inr ⟨n, _, rfl, ?_, hoperand⟩
                exact (List.drop_suffix _ _).isInfix.trans (List.take_prefix _ _).isInfix

/-- Every complaint points at the line: it shows a part of it, and marks in there at least one
character, none beyond the end and none that is blank.  What it marks is the character that cannot be
recognized, the period that is one too many or alone, or all of the token that is complained about. -/
theorem ofAlgebraic_points (h : ofAlgebraic levels line = .error (.located c)) :
    c.Points line := by
  induction levels generalizing line with
  | zero =>
      rcases complains_or_operand h with hpoints | ⟨n, part, hlevels, -⟩
      · exact hpoints
      · contradiction
  | succ levels ih =>
      rcases complains_or_operand h with hpoints | ⟨n, part, hlevels, hpart, hcomplains⟩
      · exact hpoints
      · obtain rfl := Nat.succ.inj hlevels
        exact (ih hcomplains).mono hpart

/-- In `x + x *` the product lacks an operand, and the complaint shows it without the sum. -/
theorem ofAlgebraic_points_in_operand :
    let c : Complaint := ⟨.missingOperand, "x *".toList, 2, 1⟩
    ofAlgebraic 2 "x + x *".toList = .error (.located c) ∧ c.Points "x + x *".toList ∧
      c.marked = ['*'] := by
  intro c
  let first : Token := ⟨.word, ['x'], 0⟩
  let sum : Token := ⟨.operator .add, ['+'], 2⟩
  let second : Token := ⟨.word, ['x'], 4⟩
  let product : Token := ⟨.operator .mul, ['*'], 6⟩
  have hword : Token.Kind.word.extends ' ' = false := by decide
  have hspells : Token.Spells 0 "x + x *".toList [first, sum, second, product] :=
    .token Token.formed_variable (Token.Kind.stops_cons hword _) (.blank rfl
      (.token (.single rfl) (fun _ _ => rfl) (.blank rfl
        (.token Token.formed_variable (Token.Kind.stops_cons hword _) (.blank rfl
          (.token (.single rfl) (fun _ _ => rfl) .nil))))))
  have hline : Item.ofLine "x + x *".toList =
      .ok [.token first, .token sum, .token second, .token product] := by
    rw [ofLine, Token.scan, hspells.scanFrom_eq]
    rfl
  have hbare : ∀ t rest, unwrap (.token t :: rest) = .token t :: rest :=
    fun t rest => Outline.unwrap_split [] rest t
  have hsum : Outline.ofItems 2 [.token first, .token sum, .token second, .token product] =
      .ok (.binary .add [.token first] [.token second, .token product]) := by
    rw [Outline.ofItems_succ, hbare]
    rfl
  have hleft : Outline.ofItems 1 [.token first] = .ok (.single first) := by
    rw [Outline.ofItems_succ, hbare]
    rfl
  have hright : Outline.ofItems 1 [.token second, .token product] =
      .error (product.flaw .missingOperand) := by
    rw [Outline.ofItems_succ, hbare]
    rfl
  have hcomplains : ofAlgebraic 2 "x + x *".toList = .error (.located c) := by
    rw [ofAlgebraic, hline]
    dsimp only
    rw [ofItems_of_outline hsum, ofOutline, ofItems_of_outline hleft, ofItems_succ, hright]
    rfl
  exact ⟨hcomplains, ofAlgebraic_points hcomplains, rfl⟩

end Expr

end GraphCalc
