import Mathlib.Data.List.Nodup
import GraphCalc.Proofs.Expr.Moved
import GraphCalc.Proofs.Grammar.Basic
import GraphCalc.Proofs.Item.Partners
import GraphCalc.Proofs.Token.Spans

/-!
# GraphCalc.Proofs.Expr.Twins

Spacing and letter case say nothing.

Lines are twins if they have the same tokens but for blanks around them and for the case of their
letters.  Numbered from left to right and written in small letters, the tokens of one line are those
of the other, so grouping and outlining take the same course on both.

```
sin ( X      1.5)  +  x
SIN(x  1.5) +x
   0 1 2   3 4  5  6       the tokens, of which the fourth is unexpected in both lines
```

* `Twins.relabelled_eq` — numbered and in small letters, the tokens are the same;
* `sameAnswer_ofToken`, `sameAnswer_callee` — the case of letters does not matter;
* `Twins.sameAnswer_ofItems` — items that correspond are read alike, by induction on the levels;
* `ofAlgebraic_twins` — so twins are read alike: as the same expression, or refused for the same
  reason, which is found at the same token if it has a place.
-/

namespace GraphCalc

open Item

/-! ## shapes of tokens -/

/-- What is the same for tokens in other places and in other letter case. -/
def Token.shape (t : Token) : Token.Kind × List Char := (t.kind, t.text.map Char.toLower)

/-- Only words are written in letters. -/
theorem Token.Formed.text_eq {kind : Token.Kind} {text text' : List Char}
    (h : Token.Formed kind text) (h' : Token.Formed kind text')
    (hcase : text.map Char.toLower = text'.map Char.toLower) (hword : kind ≠ .word) :
    text = text' := by
  have hsingle : ∀ c c', Token.single? c = some kind → Token.single? c' = some kind → c = c' := by
    intro c c' hc hc'
    rw [single?_eq_some_iff] at hc hc'
    exact Option.some.inj (hc.symm.trans hc')
  cases h with
  | word => exact absurd rfl hword
  | number hne hdigits hperiods halone =>
      have hlower : ∀ {cs : List Char}, (∀ c ∈ cs, Token.inNumber c = true) →
          cs.map Char.toLower = cs := by
        intro cs hcs
        exact (List.map_congr_left fun c hc => Text.toLower_of_inNumber (hcs c hc)).trans
          (List.map_id cs)
      rwa [hlower hdigits, hlower h'.inNumber] at hcase
  | @single c _ his =>
      cases h' with
      | number => exact absurd rfl (kind_of_single? his).1
      | word => exact absurd rfl hword
      | @single c' _ his' => rw [hsingle c c' his his']

/-! ## the numbers of tokens -/

section

variable {line : List Char} {ts : List Token}

/-- No two tokens of a line start at the same place. -/
theorem nodup_starts (h : Token.scan line = .ok ts) : (ts.map Token.start).Nodup := by
  have hspells := Token.spells_of_scanFrom h
  have hordered := List.pairwise_map.mp hspells.lexedFrom.1.ordered
  refine List.pairwise_map.mpr (hordered.imp_of_mem fun {t u} ht _ hlt heq => ?_)
  have hpos := List.length_pos_iff.mpr (hspells.formed t ht).ne_nil
  simp only [Token.span, Token.stop] at hlt
  omega

/-- Tokens in small letters, each at the place that is its number. -/
def Relabelling.numbering (ts : List Token) : Relabelling :=
  ⟨List.map Char.toLower, fun start => (ts.map Token.start).idxOf start, fun _ => List.length_map _⟩

/-- The number of a token is where it stands among the tokens of the line. -/
theorem place_of_getElem? {k : Nat} {t : Token} (h : (ts.map Token.start).Nodup)
    (ht : ts[k]? = some t) : (Relabelling.numbering ts).place t.start = k := by
  obtain ⟨hk, rfl⟩ := List.getElem?_eq_some_iff.mp ht
  have hlength : k < (ts.map Token.start).length := by rwa [List.length_map]
  have hfound := h.idxOf_getElem k hlength
  rwa [List.getElem_map] at hfound

theorem getElem?_place {t : Token} (h : (ts.map Token.start).Nodup) (ht : t ∈ ts) :
    ts[(Relabelling.numbering ts).place t.start]? = some t := by
  obtain ⟨k, hk⟩ := List.mem_iff_getElem?.mp ht
  rwa [place_of_getElem? h hk]

end

/-! ## twins -/

/-- Two lines have the same tokens but for spacing and letter case. -/
structure Twins (a b : List Char) (ts us : List Token) : Prop where
  left : Token.scan a = .ok ts
  right : Token.scan b = .ok us
  shapes : ts.map Token.shape = us.map Token.shape

/-- The two tokens have the same number. -/
def SameNumber (ts us : List Token) (t u : Token) : Prop :=
  ∃ k : Nat, ts[k]? = some t ∧ us[k]? = some u

/-- The window is that of a line, or goes from one of its tokens to another, and the other window is
that of the other line, or goes between the tokens of the same numbers. -/
inductive SameWindow (a b : List Char) (ts us : List Token) : Window → Window → Prop
  | whole : SameWindow a b ts us ⟨0, a.length⟩ ⟨0, b.length⟩
  | part {first last first' last' : Token} (starts : SameNumber ts us first first')
      (stops : SameNumber ts us last last') :
      SameWindow a b ts us ⟨first.start, last.stop⟩ ⟨first'.start, last'.stop⟩

/-- The token lies in the window. -/
def Window.Holds (w : Window) (t : Token) : Prop := w.start ≤ t.start ∧ t.stop ≤ w.stop

/-- Two lines are read as the same, or refused for the same reason.  A complaint about a token shows
corresponding parts of the lines and marks, in these, tokens of the same number. -/
inductive SameAnswer {α : Type} (a b : List Char) (ts us : List Token) :
    Except Refusal α → Except Refusal α → Prop
  | read (x : α) : SameAnswer a b ts us (.ok x) (.ok x)
  | located (problem : Problem) {t u : Token} {w v : Window} (number : SameNumber ts us t u)
      (window : SameWindow a b ts us w v) (left : w.Holds t) (right : v.Holds u) :
      SameAnswer a b ts us
        (.error (.located ⟨problem, w.text a, t.start - w.start, t.text.length⟩))
        (.error (.located ⟨problem, v.text b, u.start - v.start, u.text.length⟩))
  | empty : SameAnswer a b ts us (.error .empty) (.error .empty)
  | tooDeep : SameAnswer a b ts us (.error .tooDeep) (.error .tooDeep)
  | unknownFunction {name name' : List Char}
      (case : name.map Char.toLower = name'.map Char.toLower) :
      SameAnswer a b ts us (.error (.unknownFunction name)) (.error (.unknownFunction name'))
  | unknownToken {text text' : List Char}
      (case : text.map Char.toLower = text'.map Char.toLower) :
      SameAnswer a b ts us (.error (.unknownToken text)) (.error (.unknownToken text'))

section

variable {a b : List Char} {ts us : List Token}

/-- Steps in a row are answered alike if each of them is. -/
theorem SameAnswer.bind {α β : Type} {x y : Except Refusal α} {f g : α → Except Refusal β}
    (hfirst : SameAnswer a b ts us x y) (hnext : ∀ e, SameAnswer a b ts us (f e) (g e)) :
    SameAnswer a b ts us (x >>= f) (y >>= g) := by
  cases hfirst with
  | read e => exact hnext e
  | located problem number window left right => exact .located problem number window left right
  | empty => exact .empty
  | tooDeep => exact .tooDeep
  | unknownFunction case => exact .unknownFunction case
  | unknownToken case => exact .unknownToken case

/-! ## letter case -/

theorem isVariable_eq {text text' : List Char}
    (h : text.map Char.toLower = text'.map Char.toLower) :
    Expr.isVariable text = Expr.isVariable text' := by
  have hplain : ∀ d ∈ ['x'], Text.isPlain d = true := List.forall_mem_singleton.mpr (by decide)
  rw [Bool.eq_iff_iff, isVariable_iff, isVariable_iff, Text.lower_eq_iff_of_plain hplain,
    Text.lower_eq_iff_of_plain hplain, h]

/-- A name is a function's in any case. -/
theorem sameAnswer_callee {name name' : List Char}
    (h : name.map Char.toLower = name'.map Char.toLower) :
    SameAnswer a b ts us (Expr.callee name) (Expr.callee name') := by
  have hletters : ∀ cs : List Char,
      cs.all Text.isLetter = (cs.map Char.toLower).all Text.isLetter := by
    intro cs
    rw [List.all_map]
    exact List.all_congr rfl fun c => (Text.isLetter_toLower c).symm
  rw [Expr.callee, Expr.callee, hletters name, hletters name', ← h]
  split
  · cases Elementary.ofName? (name.map Char.toLower) with
    | some fn => exact .read fn
    | none => exact .unknownFunction h
  · exact .unknownToken h

/-- Tokens of one shape stand for the same. -/
theorem sameAnswer_ofToken {t u : Token} (ht : Token.Formed t.kind t.text)
    (hu : Token.Formed u.kind u.text) (hshape : t.shape = u.shape) :
    SameAnswer a b ts us (Expr.ofToken t) (Expr.ofToken u) := by
  obtain ⟨hkind, hcase⟩ := Prod.mk.inj hshape
  have hread : Number.read? t.text = Number.read? u.text := by
    rw [← hkind] at hu
    by_cases hword : t.kind = .word
    · rw [hword] at ht hu
      rw [read?_word ht, read?_word hu]
    · rw [ht.text_eq hu hcase hword]
  rw [Expr.ofToken, Expr.ofToken, isVariable_eq hcase, hread]
  split
  · exact .read _
  · cases Number.read? u.text with
    | some v => exact .read _
    | none => exact .unknownToken hcase

/-! ## windows -/

theorem holds_whole {line : List Char} {t : Token} (h : Token.scan line = .ok ts) (ht : t ∈ ts) :
    Window.Holds ⟨0, line.length⟩ t := by
  have hwithin := (Token.spells_of_scanFrom h).within t ht
  rwa [Nat.zero_add] at hwithin

/-- The window of items holds their tokens. -/
theorem holds_window {line : List Char} {items : List Item} {t : Token}
    (h : Token.scan line = .ok ts) (hitems : flatten items <:+: ts) (ht : t ∈ flatten items) :
    (Item.window items).Holds t := by
  obtain ⟨before, after, hsplit⟩ := hitems
  rw [← hsplit, List.append_assoc] at h
  exact (window_spans (ne_nil_of_mem_flatten ht) h).2 t ht

/-! ## items that correspond -/

/-- Items of one line, and items of the other one with the same numbers and shapes. -/
structure SameItems (ts us : List Token) (items items' : List Item) : Prop where
  left : flatten items <:+: ts
  right : flatten items' <:+: us
  relabelled : allRelabelled (.numbering ts) items = allRelabelled (.numbering us) items'

theorem SameItems.flatten_eq {items items' : List Item} (h : SameItems ts us items items') :
    (flatten items).map (Token.relabelled (.numbering ts)) =
      (flatten items').map (Token.relabelled (.numbering us)) := by
  rw [← flatten_allRelabelled, h.relabelled, flatten_allRelabelled]

/-- What is shown while items of two lines are read: all of both lines, or the text of the items. -/
inductive Frames (a b : List Char) (items items' : List Item) : Window → Window → Prop
  | whole : Frames a b items items' ⟨0, a.length⟩ ⟨0, b.length⟩
  | operand : Frames a b items items' (Item.window items) (Item.window items')

namespace Twins

variable (h : Twins a b ts us)
include h

theorem sameNumber {t u : Token} (ht : t ∈ ts) (hu : u ∈ us)
    (hplace : (Relabelling.numbering ts).place t.start = (Relabelling.numbering us).place u.start) :
    SameNumber ts us t u := by
  refine ⟨_, getElem?_place (nodup_starts h.left) ht, ?_⟩
  rw [hplace]
  exact getElem?_place (nodup_starts h.right) hu

/-- Numbered and in small letters, the tokens are the same. -/
theorem relabelled_eq :
    ts.map (Token.relabelled (.numbering ts)) = us.map (Token.relabelled (.numbering us)) := by
  refine List.ext_getElem? fun k => ?_
  have hshape := congrArg (·[k]?) h.shapes
  simp only [List.getElem?_map] at hshape ⊢
  cases ht : ts[k]? with
  | none =>
      rw [ht] at hshape
      rw [Option.map_eq_none_iff.mp hshape.symm]
      rfl
  | some t =>
      rw [ht] at hshape
      obtain ⟨u, hu, hut⟩ := Option.map_eq_some_iff.mp hshape.symm
      obtain ⟨hkind, hcase⟩ := Prod.mk.inj hut
      have htext : (Relabelling.numbering us).text u.text =
          (Relabelling.numbering ts).text t.text := hcase
      rw [hu, Option.map_some, Option.map_some, Token.relabelled, Token.relabelled,
        place_of_getElem? (nodup_starts h.left) ht, place_of_getElem? (nodup_starts h.right) hu,
        hkind, htext]

/-- Items that correspond are read in windows that correspond. -/
theorem sameWindow {items items' : List Item} (hi : SameItems ts us items items')
    (hne : items ≠ []) : SameWindow a b ts us (Item.window items) (Item.window items') := by
  have hflat := hi.flatten_eq
  have hne' : items' ≠ [] := by
    rintro rfl
    have hempty := hi.relabelled
    rw [allRelabelled_nil, ← List.isEmpty_iff, isEmpty_allRelabelled, List.isEmpty_iff] at hempty
    exact hne hempty
  obtain ⟨first, last, hfirst, hlast, hwindow⟩ := exists_window hne
  obtain ⟨first', last', hfirst', hlast', hwindow'⟩ := exists_window hne'
  have hstart : first.relabelled (.numbering ts) = first'.relabelled (.numbering us) := by
    have hheads := congrArg List.head? hflat
    rwa [List.head?_map, List.head?_map, hfirst, hfirst', Option.map_some, Option.map_some,
      Option.some.injEq] at hheads
  have hstop : last.relabelled (.numbering ts) = last'.relabelled (.numbering us) := by
    have hlasts := congrArg List.getLast? hflat
    rwa [List.getLast?_map, List.getLast?_map, hlast, hlast', Option.map_some, Option.map_some,
      Option.some.injEq] at hlasts
  rw [hwindow, hwindow']
  exact .part
    (h.sameNumber (hi.left.subset (List.mem_of_mem_head? hfirst))
      (hi.right.subset (List.mem_of_mem_head? hfirst')) (congrArg Token.start hstart))
    (h.sameNumber (hi.left.subset (List.mem_of_getLast? hlast))
      (hi.right.subset (List.mem_of_getLast? hlast')) (congrArg Token.start hstop))

/-! ## flaws that correspond -/

/-- Flaws of tokens with the same number are shown alike. -/
theorem sameAnswer_located {α : Type} {t u : Token} {w v : Window} {problem problem' : Problem}
    (ht : t ∈ ts) (hu : u ∈ us)
    (hflaw : (t.flaw problem).relabelled (.numbering ts) =
      (u.flaw problem').relabelled (.numbering us))
    (hwindow : SameWindow a b ts us w v) (hholds : w.Holds t) (hholds' : v.Holds u) :
    SameAnswer a b ts us (.error ((t.flaw problem).refusal a w) : Except Refusal α)
      (.error ((u.flaw problem').refusal b v)) := by
  obtain ⟨rfl, hplace, -⟩ := Flaw.located.inj hflaw
  exact .located problem (h.sameNumber ht hu hplace) hwindow hholds hholds'

/-- Where items that correspond have no outline, they are refused alike. -/
theorem sameAnswer_flaw {α : Type} {n : Nat} {items items' : List Item} {w v : Window}
    {flaw flaw' : Flaw} (hi : SameItems ts us items items') (hw : Frames a b items items' w v)
    (hfound : Outline.ofItems n items = .error flaw)
    (hfound' : Outline.ofItems n items' = .error flaw')
    (hflaw : flaw.relabelled (.numbering ts) = flaw'.relabelled (.numbering us)) :
    SameAnswer a b ts us (.error (flaw.refusal a w) : Except Refusal α)
      (.error (flaw'.refusal b v)) := by
  cases flaw with
  | empty =>
      cases flaw' with
      | empty => exact .empty
      | located | tooDeep => contradiction
  | tooDeep =>
      cases flaw' with
      | tooDeep => exact .tooDeep
      | located | empty => contradiction
  | located problem start length =>
      cases flaw' with
      | empty | tooDeep => contradiction
      | located problem' start' length' =>
          obtain ⟨-, t, ht, -, rfl, rfl⟩ := Outline.blames_of_ne_tooDeep hfound (by simp)
          obtain ⟨-, u, hu, -, rfl, rfl⟩ := Outline.blames_of_ne_tooDeep hfound' (by simp)
          have htoken := hi.left.subset ht
          have htoken' := hi.right.subset hu
          cases hw with
          | whole =>
              exact h.sameAnswer_located htoken htoken' hflaw .whole
                (holds_whole h.left htoken) (holds_whole h.right htoken')
          | operand =>
              have hne := ne_nil_of_mem_flatten ht
              exact h.sameAnswer_located htoken htoken' hflaw (h.sameWindow hi hne)
                (holds_window h.left hi.left ht) (holds_window h.right hi.right hu)

/-! ## expressions that correspond -/

/-- Outlines that correspond are read alike if their operands are. -/
theorem sameAnswer_ofOutline {n : Nat} {outline outline' : Outline}
    (hsame : outline.relabelled (.numbering ts) = outline'.relabelled (.numbering us))
    (hleaf : ∀ t, outline = .single t → t ∈ ts) (hleaf' : ∀ u, outline' = .single u → u ∈ us)
    (hoperand : ∀ operand ∈ outline.operands, ∀ operand' ∈ outline'.operands,
      allRelabelled (.numbering ts) operand = allRelabelled (.numbering us) operand' →
        SameAnswer a b ts us (Expr.ofItems a n (Item.window operand) operand)
          (Expr.ofItems b n (Item.window operand') operand')) :
    SameAnswer a b ts us (Expr.ofOutline a n outline) (Expr.ofOutline b n outline') := by
  cases outline with
  | single t =>
      cases outline' with
      | call | negation | binary => simp [Outline.relabelled] at hsame
      | single u =>
          obtain ⟨hkind, hcase, -⟩ := Token.mk.inj (Outline.single.inj hsame)
          have hshape : t.shape = u.shape := Prod.ext hkind hcase
          exact sameAnswer_ofToken ((Token.spells_of_scanFrom h.left).formed t (hleaf t rfl))
            ((Token.spells_of_scanFrom h.right).formed u (hleaf' u rfl)) hshape
  | call name argument =>
      cases outline' with
      | single | negation | binary => simp [Outline.relabelled] at hsame
      | call name' argument' =>
          obtain ⟨hname, hargument⟩ := Outline.call.inj hsame
          have hcase : name.text.map Char.toLower = name'.text.map Char.toLower :=
            (Token.mk.inj hname).2.1
          simp only [Expr.ofOutline, isVariable_eq hcase]
          split
          · exact .read _
          · refine .bind (sameAnswer_callee hcase) fun fn => .bind ?_ fun e => .read _
            exact hoperand _ (by simp [Outline.operands]) _ (by simp [Outline.operands]) hargument
  | negation operand =>
      cases outline' with
      | single | call | binary => simp [Outline.relabelled] at hsame
      | negation operand' =>
          refine .bind ?_ fun e => .read _
          exact hoperand _ (by simp [Outline.operands]) _ (by simp [Outline.operands])
            (Outline.negation.inj hsame)
  | binary op left right =>
      cases outline' with
      | single | call | negation => simp [Outline.relabelled] at hsame
      | binary op' left' right' =>
          obtain ⟨rfl, hleft, hright⟩ := Outline.binary.inj hsame
          refine .bind ?_ fun l => .bind ?_ fun r => .read _
          · exact hoperand _ (by simp [Outline.operands]) _ (by simp [Outline.operands]) hleft
          · exact hoperand _ (by simp [Outline.operands]) _ (by simp [Outline.operands]) hright

/-- Items that correspond are read alike. -/
theorem sameAnswer_ofItems {n : Nat} {items items' : List Item} {w v : Window}
    (hi : SameItems ts us items items') (hw : Frames a b items items' w v) :
    SameAnswer a b ts us (Expr.ofItems a n w items) (Expr.ofItems b n v items') := by
  induction n generalizing items items' w v with
  | zero => exact .tooDeep
  | succ n ih =>
      have hsame := Outline.ofItems_relabelled (.numbering ts) (n + 1) items
      rw [hi.relabelled, Outline.ofItems_relabelled] at hsame
      rw [Expr.ofItems_succ, Expr.ofItems_succ]
      cases hfound : Outline.ofItems (n + 1) items with
      | error flaw =>
          cases hfound' : Outline.ofItems (n + 1) items' with
          | ok => simp [hfound, hfound', relabelOutcome] at hsame
          | error flaw' =>
              rw [hfound, hfound'] at hsame
              exact h.sameAnswer_flaw hi hw hfound hfound' (Except.error.inj hsame).symm
      | ok outline =>
          cases hfound' : Outline.ofItems (n + 1) items' with
          | error => simp [hfound, hfound', relabelOutcome] at hsame
          | ok outline' =>
              rw [hfound, hfound'] at hsame
              have htop := Outline.top_of_ofItems hfound
              have htop' := Outline.top_of_ofItems hfound'
              refine h.sameAnswer_ofOutline (Except.ok.inj hsame).symm ?_ ?_ ?_
              · rintro t rfl
                exact hi.left.subset htop.single_mem
              · rintro u rfl
                exact hi.right.subset htop'.single_mem
              · intro operand hmem operand' hmem' hrelabelled
                exact ih ⟨(htop.infix_operand operand hmem).trans hi.left,
                  (htop'.infix_operand operand' hmem').trans hi.right, hrelabelled⟩ .operand

end Twins

/-- Spacing and letter case say nothing.  Two lines with the same tokens but for these are read as
the same expression, or refused for the same reason: nested too deep, empty, for a name or a number
that is the same in small letters, or for a problem of a token, which is the same problem of the token
with the same number, shown in the corresponding part of the line. -/
theorem ofAlgebraic_twins (h : Twins a b ts us) (levels : Nat) :
    SameAnswer a b ts us (Expr.ofAlgebraic levels a) (Expr.ofAlgebraic levels b) := by
  have hsame := groupTokens_relabelled (.numbering ts) ts
  rw [h.relabelled_eq, groupTokens_relabelled] at hsame
  have hline : Item.ofLine a = groupTokens ts := by rw [ofLine, h.left]; rfl
  have hline' : Item.ofLine b = groupTokens us := by rw [ofLine, h.right]; rfl
  unfold Expr.ofAlgebraic
  rw [hline, hline']
  cases hgroup : groupTokens ts with
  | error flaw =>
      cases hgroup' : groupTokens us with
      | ok => simp [hgroup, hgroup', relabelOutcome] at hsame
      | error flaw' =>
          rw [hgroup, hgroup'] at hsame
          obtain ⟨t, ht, problem, -, rfl⟩ := exists_flaw_of_groupTokens hgroup
          obtain ⟨u, hu, problem', -, rfl⟩ := exists_flaw_of_groupTokens hgroup'
          exact h.sameAnswer_located ht hu (Except.error.inj hsame).symm .whole
            (holds_whole h.left ht) (holds_whole h.right hu)
  | ok items =>
      cases hgroup' : groupTokens us with
      | error => simp [hgroup, hgroup', relabelOutcome] at hsame
      | ok items' =>
          rw [hgroup, hgroup'] at hsame
          have hall := (groupTokens_eq_ok_iff.mp hgroup).2
          have hall' := (groupTokens_eq_ok_iff.mp hgroup').2
          exact h.sameAnswer_ofItems ⟨hall ▸ List.infix_refl _, hall' ▸ List.infix_refl _,
            (Except.ok.inj hsame).symm⟩ .whole

/-- The product lacks an operand in `x*` as in ` X *`. -/
theorem ofAlgebraic_twins_missing_operand :
    ∃ ts us, Twins "x*".toList " X *".toList ts us ∧
      SameAnswer "x*".toList " X *".toList ts us (Expr.ofAlgebraic 1 "x*".toList)
        (Expr.ofAlgebraic 1 " X *".toList) ∧
      Expr.ofAlgebraic 1 "x*".toList = .error (.located ⟨.missingOperand, "x*".toList, 1, 1⟩) ∧
      Expr.ofAlgebraic 1 " X *".toList =
        .error (.located ⟨.missingOperand, " X *".toList, 3, 1⟩) := by
  have hcomplains : ∀ (line name : List Char) (i k : Nat),
      Token.scan line = .ok [⟨.word, name, i⟩, ⟨.operator .mul, ['*'], k⟩] →
        Expr.ofAlgebraic 1 line = .error (.located ⟨.missingOperand, line, k, 1⟩) := by
    intro line name i k hscan
    have hline : Item.ofLine line =
        .ok [token ⟨.word, name, i⟩, token ⟨.operator .mul, ['*'], k⟩] := by
      rw [ofLine, hscan]
      rfl
    have hbare : unwrap [token ⟨.word, name, i⟩, token ⟨.operator .mul, ['*'], k⟩] = _ :=
      Outline.unwrap_split [] _ _
    have hfound : Outline.ofItems 1 [token ⟨.word, name, i⟩, token ⟨.operator .mul, ['*'], k⟩] =
        .error (.located .missingOperand k 1) := by
      rw [Outline.ofItems_succ, hbare]
      rfl
    rw [Expr.ofAlgebraic, hline]
    dsimp only
    rw [Expr.ofItems_succ, hfound]
    simp [Flaw.refusal, Window.text]
  have hcapital : Token.Formed .word ['X'] := .word (by decide) (by decide) (by simp)
  have hstops : Token.Kind.word.extends '*' = false := by decide
  have hblank : Token.Kind.word.extends ' ' = false := by decide
  have hleft : Token.scan "x*".toList = .ok [⟨.word, ['x'], 0⟩, ⟨.operator .mul, ['*'], 1⟩] :=
    Token.scanFrom_eq_ok_iff.mpr
      (.token Token.formed_variable (Token.Kind.stops_cons hstops _)
        (.token (.single rfl) (fun _ _ => rfl) .nil))
  have hright : Token.scan " X *".toList = .ok [⟨.word, ['X'], 1⟩, ⟨.operator .mul, ['*'], 3⟩] :=
    Token.scanFrom_eq_ok_iff.mpr (.blank rfl (.token hcapital
      (Token.Kind.stops_cons hblank _) (.blank rfl (.token (.single rfl) (fun _ _ => rfl) .nil))))
  have htwins : Twins "x*".toList " X *".toList _ _ := ⟨hleft, hright, by decide⟩
  exact ⟨_, _, htwins, ofAlgebraic_twins htwins 1, hcomplains _ _ _ _ hleft,
    hcomplains _ _ _ _ hright⟩

end

end GraphCalc
