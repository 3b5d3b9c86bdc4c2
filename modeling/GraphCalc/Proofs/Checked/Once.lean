import GraphCalc.Proofs.Checked.Builder

/-!
# GraphCalc.Proofs.Checked.Once

Reading a text by ranges of its tokens.

`build` cuts the text of every operand out and scans it again.  `buildOnce` scans the whole text and
then works on ranges of the tokens found.  An operand's text has the tokens of its range and nothing
else, so both come to the same expression, or to the same complaint about the same token: the one
shows the operand in which that token stands, the other the whole text.

* `Splitter.slice_of_covers` — the text of a range scans to the tokens of the range, moved, and its
  parentheses match;
* `SameOutcome.assemble` — parts put together to the same outcome, if their operands are;
* `Splitter.sameOutcome_build` — a range is built as its items are read;
* `build_sameOutcome_buildOnce` — both ways for a whole text, and what no way gets past: a token or
  a parenthesis that is wrong is complained about before, in the whole text.
-/

namespace GraphCalc.Checked

open Item

/-! ## building by ranges -/

/-- The expression that a top level stands for, given how its operands are read. -/
def assembleWith {ω : Type} (operand : Option ω → Except Stop (Expr Float)) (main : List Char)
    (left right : Option ω) : Except Stop (Expr Float) :=
  if Text.lower main = ['x'] then .ok .var
  else if right.isNone && left.isSome && !main.isEmpty && main.all Text.isLetter then
    match Elementary.ofName? (Text.lower main) with
    | some fn => do return .call fn (← operand left)
    | none => .error (.refused (.unknownFunction main))
  else
    match Operator.ofText? main with
    | some op => do
      let l ← operand left
      let r ← operand right
      return .binary op l r
    | none =>
      match Number.read? main with
      | some v => .ok (.const v)
      | none => .error (.refused (.unknownToken main))

theorem assemble_eq_assembleWith (operand : Option (List Char) → Except Stop (Expr Float))
    (parts : Parts) :
    assemble operand parts = assembleWith operand parts.main parts.left parts.right :=
  rfl

namespace Splitter

/-- The expression that the tokens from `lo` up to `hi` stand for. -/
def build (s : Splitter) (lo hi : Nat) : Except Stop (Expr Float) := do
  let d ← s.divide lo hi
  assembleWith (fun operand : Option Operand =>
    match operand with
    | none => .error (.fault .noOperand)
    | some .zero => .ok (.num 0)
    | some (.range l h) =>
      if _h : h - l < hi - lo then build s l h
      else .error (.fault .noProgress)) d.main d.left d.right
termination_by hi - lo

end Splitter

/-- The expression that a text in algebraic notation stands for, its tokens found once. -/
def buildOnce (text : List Char) : Except Stop (Expr Float) := do
  let s ← Splitter.make text
  s.build 0 s.tokens.length

/-! ## the same outcome -/

/-- Two outcomes of reading a line with the given tokens are the same, but for the part of the line
that a complaint shows: the first one shows a window that has the token to blame in it, the second
one shows the line. -/
inductive SameOutcome {α : Type} (line : List Char) (tokens : List Token) :
    Except Stop α → Except Stop α → Prop
  | read (a : α) : SameOutcome line tokens (.ok a) (.ok a)
  | blamed {problem : Problem} {t : Token} (w : Window) (outline : problem.OfOutline)
      (mem : t ∈ tokens) (low : w.start ≤ t.start) (high : t.stop ≤ w.stop) :
      SameOutcome line tokens
        (.error (.refused (.located ⟨problem, w.text line, t.start - w.start, t.text.length⟩)))
        (.error (.refused (.located ⟨problem, line, t.start, t.text.length⟩)))
  | stopped {stop : Stop} (unlocated : ∀ c, stop ≠ .refused (.located c)) :
      SameOutcome line tokens (.error stop) (.error stop)

namespace SameOutcome

variable {α β : Type} {line : List Char} {tokens : List Token}

/-- Steps in a row have the same outcome if each of them has. -/
theorem bind {x y : Except Stop α} {f g : α → Except Stop β} (hfirst : SameOutcome line tokens x y)
    (hnext : ∀ a, SameOutcome line tokens (f a) (g a)) :
    SameOutcome line tokens (x >>= f) (y >>= g) := by
  cases hfirst with
  | read a => exact hnext a
  | blamed w houtline hmem hlow hhigh => exact .blamed w houtline hmem hlow hhigh
  | stopped hstop => exact .stopped hstop

/-- Parts are put together to the same outcome if their operands are. -/
theorem assemble {ω ω' : Type} {operand : Option ω → Except Stop (Expr Float)}
    {operand' : Option ω' → Except Stop (Expr Float)} {left right : Option ω}
    {left' right' : Option ω'} (main : List Char) (hleft : left.isSome = left'.isSome)
    (hright : right.isSome = right'.isSome)
    (hreadLeft : SameOutcome line tokens (operand left) (operand' left'))
    (hreadRight : SameOutcome line tokens (operand right) (operand' right')) :
    SameOutcome line tokens (assembleWith operand main left right)
      (assembleWith operand' main left' right') := by
  have hnone : right.isNone = right'.isNone := by
    rw [← Option.not_isSome, hright, Option.not_isSome]
  unfold assembleWith
  rw [hleft, hnone]
  split
  · exact .read _
  · split
    · cases Elementary.ofName? (Text.lower main) with
      | some fn => exact hreadLeft.bind fun a => .read _
      | none => exact .stopped (by simp)
    · cases Operator.ofText? main with
      | some op => exact hreadLeft.bind fun l => hreadRight.bind fun r => .read _
      | none =>
          cases Number.read? main with
          | some v => exact .read _
          | none => exact .stopped (by simp)

/-- A complaint about a line with tokens is one of an outline. -/
theorem ofOutline {y : Except Stop α} {c : Complaint}
    (h : SameOutcome line tokens (.error (.refused (.located c))) y) : c.problem.OfOutline := by
  cases h with
  | blamed _ houtline => exact houtline
  | stopped hstop => exact absurd rfl (hstop c)

end SameOutcome

/-! ## slices -/

/-- The token, its position counted from `d` in front of it. -/
def shifted (d : Nat) (t : Token) : Token := { t with start := t.start + d }

theorem shifted_moved {d : Nat} {t : Token} (h : d ≤ t.start) : shifted d (t.moved d) = t := by
  rw [shifted, Token.moved, Nat.sub_add_cancel h]

namespace Splitter

/-- A text has the tokens from `lo` up to `hi`, all of them shifted alike, and its parentheses
match. -/
structure Slice (s : Splitter) (lo hi : Nat) (text : List Char) : Prop where
  ordered : lo ≤ hi
  inside : hi ≤ s.tokens.length
  scanned : ∃ d ts, Token.scan text = .ok ts ∧
    (s.tokens.drop lo).take (hi - lo) = ts.map (shifted d)
  matched : ∃ inner, Splitter.make text = .ok inner

/-- An operand's text is that of its range.  There is no range for the zero that a negation
subtracts from. -/
inductive IsText (s : Splitter) : Option Operand → Option (List Char) → Prop
  | none : IsText s none none
  | zero : IsText s (some .zero) (some ['0'])
  | range {lo hi : Nat} {text : List Char} (slice : s.Slice lo hi text) :
      IsText s (some (.range lo hi)) (some text)

/-- Parts in texts are a division in ranges, and only a negation has a zero in it. -/
structure Matches (s : Splitter) (d : Division) (parts : Parts) : Prop where
  main : parts.main = d.main
  left : s.IsText d.left parts.left
  right : s.IsText d.right parts.right
  leftZero : d.left = some .zero → d.main = ['-']
  rightRange : d.right ≠ some .zero

variable {s : Splitter} {lo : Nat} {items : List Item}

/-- The line has the tokens of the range among its own. -/
theorem scan_of_covers (hs : s.Sound) (h : Covers s.tokens lo items) :
    ∃ before after, Token.scan s.line = .ok (before ++ (flatten items ++ after)) := by
  obtain ⟨before, after, htokens, -⟩ := h.place
  exact ⟨before, after, htokens ▸ hs.scanned⟩

/-- The tokens of a range lie in the part of the line that its items cover. -/
theorem allWithin_of_covers (hs : s.Sound) (h : Covers s.tokens lo items) :
    Token.AllWithin (Item.window items).start (Item.window items).stop (flatten items) := by
  obtain ⟨before, after, hscan⟩ := scan_of_covers hs h
  intro t ht
  have hne : items ≠ [] := by
    rintro rfl
    simp at ht
  exact (window_spans hne hscan).2 t ht

/-- The items of a range are read as their text is. -/
theorem ofAlgebraic_of_covers (hs : s.Sound) (h : Covers s.tokens lo items) (n : Nat) :
    Expr.ofAlgebraic n ((Item.window items).text s.line) =
      Expr.ofItems s.line n (Item.window items) items := by
  obtain ⟨before, after, hscan⟩ := scan_of_covers hs h
  exact ofAlgebraic_window h.nested hscan n

/-- The text of a range has the tokens of the range. -/
theorem slice_of_covers (hs : s.Sound) (h : Covers s.tokens lo items) :
    s.Slice lo (lo + size items) ((Item.window items).text s.line) := by
  obtain ⟨before, after, hscan⟩ := scan_of_covers hs h
  have hline := ofLine_window h.nested hscan
  obtain ⟨inner, hinner, -⟩ := (make_eq _).2 _ hline
  have hmoved : flatten items = (flatten (allMoved (Item.window items).start items)).map
      (shifted (Item.window items).start) := by
    rw [flatten_allMoved, List.map_map]
    refine (List.map_id _).symm.trans (List.map_congr_left fun t ht => ?_)
    exact (shifted_moved (allWithin_of_covers hs h t ht).1).symm
  obtain ⟨before, after, htokens, hlo⟩ := h.place
  refine ⟨Nat.le_add_right _ _, ?_,
    ⟨(Item.window items).start, _, (ofLine_eq_ok_iff.mp hline).2, ?_⟩, ⟨inner, hinner⟩⟩
  · rw [htokens, List.length_append, List.length_append, hlo, size]
    omega
  · rw [htokens, ← hlo, List.drop_left, Nat.add_sub_cancel_left, size, List.take_left]
    exact hmoved

/-- The parts of an outline are its division. -/
theorem matches_of_divides (hs : s.Sound) {outline : Outline} {d : Division}
    (h : s.Divides outline d) : s.Matches d (outline.parts s.line) := by
  cases h with
  | single t => exact ⟨rfl, .none, .none, by simp, by simp⟩
  | call covers => exact ⟨rfl, .range (slice_of_covers hs covers), .none, by simp, by simp⟩
  | negation covers => exact ⟨rfl, .zero, .range (slice_of_covers hs covers), by simp, by simp⟩
  | binary leftCovers rightCovers =>
      exact ⟨rfl, .range (slice_of_covers hs leftCovers), .range (slice_of_covers hs rightCovers),
        by simp, by simp⟩

/-! ## the two ways -/

/-- The expression that an operand's text stands for, nested to at most `n` levels. -/
def readText (n : Nat) : Option (List Char) → Except Stop (Expr Float)
  | none => .error (.fault .noOperand)
  | some text => ofRefusal (Expr.ofAlgebraic n text)

/-- The operands of an outline cover ranges. -/
theorem Divides.covers {outline : Outline} {d : Division} (h : s.Divides outline d) :
    ∀ o ∈ outline.operands, ∃ i, Covers s.tokens i o := by
  cases h with
  | single t => simp [Outline.operands]
  | call covers | negation covers => simpa [Outline.operands] using ⟨_, covers⟩
  | binary leftCovers rightCovers =>
      simpa [Outline.operands] using ⟨⟨_, leftCovers⟩, ⟨_, rightCovers⟩⟩

/-- A flaw of items of a line is shown in a window, and in the line. -/
theorem sameOutcome_of_blames {α : Type} {w : Window} {flaw : Flaw}
    (hitems : flatten items ⊆ s.tokens)
    (hwithin : Token.AllWithin w.start w.stop (flatten items)) (h : Outline.Blames items flaw) :
    SameOutcome s.line s.tokens (.error (.refused (flaw.refusal s.line w)) : Except Stop α)
      (ofFlaw s.line (.error flaw)) := by
  cases flaw with
  | empty => exact .stopped (by simp [Flaw.refusal])
  | tooDeep => exact h.elim
  | located problem start length =>
      obtain ⟨hproblem, t, ht, -, rfl, rfl⟩ := h
      have hwhole : Window.text ⟨0, s.line.length⟩ s.line = s.line := by simp [Window.text]
      rw [ofFlaw, Flaw.refusal, Flaw.refusal, hwhole, Nat.sub_zero]
      exact .blamed w hproblem (hitems ht) (hwithin t ht).1 (hwithin t ht).2

/-- Texts and ranges of the same operands are put together to the same outcome, if they are read to
the same outcome. -/
theorem sameOutcome_assemble {outline : Outline} {d : Division}
    {ofText : Option (List Char) → Except Stop (Expr Float)}
    {ofRange : Option Operand → Except Stop (Expr Float)} (hdivides : s.Divides outline d)
    (hnone : SameOutcome s.line s.tokens (ofText none) (ofRange none))
    (hzero : ∀ o, outline = .negation o →
      SameOutcome s.line s.tokens (ofText (some ['0'])) (ofRange (some .zero)))
    (hrange : ∀ i, ∀ o ∈ outline.operands, Covers s.tokens i o →
      SameOutcome s.line s.tokens (ofText (some ((Item.window o).text s.line)))
        (ofRange (some (.range i (i + size o))))) :
    SameOutcome s.line s.tokens (assemble ofText (outline.parts s.line))
      (assembleWith ofRange d.main d.left d.right) := by
  rw [assemble_eq_assembleWith]
  cases hdivides with
  | single t => exact .assemble _ (by rfl) (by rfl) hnone hnone
  | call covers =>
      exact .assemble _ (by rfl) (by rfl) (hrange _ _ (by simp [Outline.operands]) covers) hnone
  | negation covers =>
      exact .assemble _ (by rfl) (by rfl) (hzero _ rfl)
        (hrange _ _ (by simp [Outline.operands]) covers)
  | binary leftCovers rightCovers =>
      exact .assemble _ (by rfl) (by rfl) (hrange _ _ (by simp [Outline.operands]) leftCovers)
        (hrange _ _ (by simp [Outline.operands]) rightCovers)

/-- A range is built as its items are read. -/
theorem sameOutcome_build (hs : s.Sound) {n : Nat} {w : Window} (h : Covers s.tokens lo items)
    (hwithin : Token.AllWithin w.start w.stop (flatten items)) (hn : size items < n) :
    SameOutcome s.line s.tokens (ofRefusal (Expr.ofItems s.line n w items))
      (s.build lo (lo + size items)) := by
  induction n generalizing lo items w with
  | zero => omega
  | succ n ih =>
      obtain ⟨before, after, htokens, -⟩ := h.place
      have hmem : flatten items ⊆ s.tokens := fun t ht => by simp [htokens, ht]
      have hformed := (Token.scanFrom_eq_ok_iff.mp hs.scanned).formed
      have hdivide := divide_as hs h hn
      rw [Expr.ofItems_succ, build]
      cases hfound : Outline.ofItems (n + 1) items with
      | error flaw =>
          rw [hfound] at hdivide
          rw [show s.divide lo (lo + size items) = _ from hdivide]
          exact sameOutcome_of_blames hmem hwithin (Outline.blames_of_ofItems hn hfound)
      | ok outline =>
          rw [hfound] at hdivide
          obtain ⟨d, hd, hdivides⟩ := hdivide
          have htop := Outline.top_of_ofItems hfound
          have hleaf := isLeaf_of_top htop h.nested
          have hoperand : ∀ o ∈ outline.operands,
              readText n (some ((Item.window o).text s.line)) =
                ofRefusal (Expr.ofItems s.line n (Item.window o) o) := by
            intro o ho
            obtain ⟨i, hcovers⟩ := hdivides.covers o ho
            rw [readText, ofAlgebraic_of_covers hs hcovers]
          have hzero : ∀ o, outline = .negation o → readText n (some ['0']) = .ok (.num 0) := by
            rintro o rfl
            have htwo := one_lt_size_of_negation htop hleaf
            rw [readText, Expr.ofAlgebraic_of_le (n := 2) (by simp [ofAlgebraic_zero]) (by omega),
              ofAlgebraic_zero]
            rfl
          rw [hd, ← assemble_eq hleaf (fun t ht => hformed t (hmem ht)) hoperand hzero]
          simp only [bind, Except.bind]
          refine sameOutcome_assemble hdivides ?_ ?_ ?_
          · exact .stopped (by simp)
          · intro o ho
            rw [hzero o ho]
            exact .read _
          · intro i o ho hcovers
            have hsize := htop.size_operand_lt o ho
            rw [hoperand o ho]
            dsimp only
            rw [dif_pos (by omega)]
            exact ih hcovers (allWithin_of_covers hs hcovers) (by omega)

end Splitter

/-! ## whole texts -/

/-- What is wrong with the tokens or parentheses of a text is complained about in the whole text. -/
theorem build_of_make_error {text : List Char} {stop : Stop}
    (h : Splitter.make text = .error stop) :
    ∃ c, stop = .refused (.located c) ∧ c.text = text ∧ ¬c.problem.OfOutline ∧
      build text = .error stop ∧ buildOnce text = .error stop := by
  obtain ⟨hrefused, hmade⟩ := make_eq text
  cases hitems : Item.ofLine text with
  | ok items =>
      obtain ⟨s, hs, -⟩ := hmade items hitems
      rw [h] at hs
      contradiction
  | error flaw =>
      have hstop := hrefused flaw hitems
      rw [h, ofFlaw, Except.error.injEq] at hstop
      have hflaw := beforeOutline_of_ofLine hitems
      cases flaw with
      | empty | tooDeep => exact hflaw.elim
      | located problem start length =>
          refine ⟨_, hstop, by simp [Window.text], hflaw, ?_, ?_⟩
          · rw [build, split, h]
            rfl
          · rw [buildOnce, h]
            rfl

/-- The operands' texts are those of the operands' ranges. -/
theorem matches_of_split {text : List Char} {s : Splitter} {parts : Parts}
    (hmake : Splitter.make text = .ok s) (hparts : split text = .ok parts) :
    ∃ d, s.divide 0 s.tokens.length = .ok d ∧ s.Matches d parts := by
  obtain ⟨items, hitems, hs, rfl, hcovers, hlength⟩ := covers_of_make hmake
  have hdivide := Splitter.divide_as hs hcovers (Nat.lt_succ_self _)
  rw [split, hmake] at hparts
  replace hparts : s.split 0 s.tokens.length = .ok parts := hparts
  rw [s.split_eq_divide, hlength] at hparts
  rw [hlength]
  cases hfound : Outline.ofItems (size items).succ items with
  | error flaw =>
      rw [hfound] at hdivide
      rw [show s.divide 0 (0 + size items) = _ from hdivide] at hparts
      contradiction
  | ok outline =>
      rw [hfound] at hdivide
      obtain ⟨d, hd, hdivides⟩ := hdivide
      rw [hd] at hparts
      replace hparts : s.parts d = .ok parts := hparts
      rw [Splitter.parts_of_divides hs hdivides, Except.ok.injEq] at hparts
      rw [← hparts]
      exact ⟨d, hd, Splitter.matches_of_divides hs hdivides⟩

/-- A text whose tokens and parentheses are right comes to the same outcome both ways. -/
theorem sameOutcome_of_make {text : List Char} {s : Splitter} (hmake : Splitter.make text = .ok s) :
    SameOutcome text s.tokens (build text) (buildOnce text) := by
  obtain ⟨items, hitems, hs, rfl, hcovers, hlength⟩ := covers_of_make hmake
  have hlevels : tokenCount s.line < (size items).succ :=
    (tokenCount_eq hitems).trans_lt (Nat.lt_succ_self _)
  have hwithin : Token.AllWithin 0 s.line.length (flatten items) := by
    intro t ht
    have hspells := Token.scanFrom_eq_ok_iff.mp (ofLine_eq_ok_iff.mp hitems).2
    have hinside := hspells.within t ht
    omega
  have hbuild := @Splitter.sameOutcome_build s 0 items hs _ ⟨0, s.line.length⟩ hcovers hwithin
    (Nat.lt_succ_self _)
  rw [build_eq hlevels, Expr.ofAlgebraic, hitems, buildOnce, hmake]
  simp only [bind, Except.bind]
  rw [hlength]
  exact hbuild

/-- A text comes to the same outcome both ways: with the tokens of every operand found again in its
text, which has the tokens of the operand's range and no others, and with the tokens of the whole
found once.  What is wrong with tokens or parentheses is found before either begins. -/
theorem build_sameOutcome_buildOnce (text : List Char) :
    (∀ s, Splitter.make text = .ok s →
      (∀ parts, split text = .ok parts →
        ∃ d, s.divide 0 s.tokens.length = .ok d ∧ s.Matches d parts) ∧
      (∀ fault, build text ≠ .error (.fault fault)) ∧
      SameOutcome text s.tokens (build text) (buildOnce text)) ∧
    (∀ stop, Splitter.make text = .error stop →
      ∃ c, stop = .refused (.located c) ∧ c.text = text ∧ ¬c.problem.OfOutline ∧
        build text = .error stop ∧ buildOnce text = .error stop) ∧
    ∀ c, build text = .error (.refused (.located c)) → ¬c.problem.OfOutline → c.text = text := by
  refine ⟨fun s hmake => ⟨fun parts hparts => matches_of_split hmake hparts, ?_,
    sameOutcome_of_make hmake⟩, fun stop h => build_of_make_error h, fun c hc hproblem => ?_⟩
  · intro fault
    rw [build_eq (Nat.lt_succ_self _)]
    cases Expr.ofAlgebraic (tokenCount text).succ text <;> simp [ofRefusal]
  cases hmake : Splitter.make text with
  | ok s =>
      have hsame := sameOutcome_of_make hmake
      rw [hc] at hsame
      exact absurd hsame.ofOutline hproblem
  | error stop =>
      obtain ⟨c', rfl, htext, -, hbuild, -⟩ := build_of_make_error hmake
      rw [hc] at hbuild
      cases hbuild
      exact htext

end GraphCalc.Checked
