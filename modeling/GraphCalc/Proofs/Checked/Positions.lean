import GraphCalc.Proofs.Checked.Splitter
import GraphCalc.Proofs.Expr.Moved

/-!
# GraphCalc.Proofs.Checked.Positions

Positions and items.

`Covers ts lo items` says that the tokens from position `lo` on are those of the items.  What the
splitter looks for in a range that items cover is found, and it is what the items have there:

* `make_eq` — the table of matching parentheses is found, or the text refused, where the items are;
* `stripParens_eq` — the parentheses around a range are those around its items;
* `candidates_eq`, `cutAt?_eq` — the operators that a range may be cut at, and the one it is cut at.
-/

namespace GraphCalc.Checked

open Item

/-- An outcome without faults, as one that could have had them. -/
def ofRefusal {α : Type} : Except Refusal α → Except Stop α
  | .ok a => .ok a
  | .error reason => .error (.refused reason)

/-- Apart from faults, outcomes are told apart as before. -/
theorem ofRefusal_injective {α : Type} : Function.Injective (@ofRefusal α) := by
  intro a b h
  cases a with
  | ok a => cases b <;> cases h; rfl
  | error reason => cases b <;> cases h; rfl

/-- An outcome of reading a line, as one that could have had faults. -/
def ofFlaw {α : Type} (line : List Char) : Except Flaw α → Except Stop α
  | .ok a => .ok a
  | .error flaw => .error (.refused (flaw.refusal line ⟨0, line.length⟩))

/-- A token is blamed in its line. -/
theorem blame_eq {α : Type} (line : List Char) (t : Token) (problem : Problem) :
    (blame line t problem : Except Stop α) = ofFlaw line (.error (t.flaw problem)) := by
  simp [blame, ofFlaw, Token.flaw, Flaw.refusal, Window.text]

/-! ## matching parentheses -/

/-- The positions of the parentheses around the groups of items that start at position `i`, the pair
that is closed last in front. -/
def groupPairs : Nat → List Item → List (Nat × Nat)
  | _, [] => []
  | i, token _ :: rest => groupPairs (i + 1) rest
  | i, group _ inner _ :: rest =>
    groupPairs (i + size inner + 2) rest ++ (i, i + 1 + size inner) :: groupPairs (i + 1) inner

section

variable {line : List Char} {tokens : List Token} {i : Nat} {t : Token} {ts : List Token}

theorem matchFrom_opening (h : t.kind = .opening) (stack : List Nat) (pairs : List (Nat × Nat)) :
    matchFrom line tokens i stack pairs (t :: ts) =
      matchFrom line tokens (i + 1) (i :: stack) pairs ts := by
  simp only [matchFrom, h]

theorem matchFrom_closing (h : t.kind = .closing) (j : Nat) (stack : List Nat)
    (pairs : List (Nat × Nat)) : matchFrom line tokens i (j :: stack) pairs (t :: ts) =
      matchFrom line tokens (i + 1) stack ((j, i) :: pairs) ts := by
  simp only [matchFrom, h]

theorem matchFrom_token (ho : t.kind ≠ .opening) (hc : t.kind ≠ .closing) (stack : List Nat)
    (pairs : List (Nat × Nat)) : matchFrom line tokens i stack pairs (t :: ts) =
      matchFrom line tokens (i + 1) stack pairs ts := by
  cases hk : t.kind <;> simp_all [matchFrom]

/-- Matching stops where grouping does, and complains of the same. -/
theorem matchFrom_of_groupFrom {stack : List Nat} {pending : List Pending}
    {pairs : List (Nat × Nat)} {done : List Item}
    (hstack : List.Forall₂ (fun j p => tokens[j]? = some p.opening) stack pending)
    (hts : tokens.drop i = ts) :
    (∀ flaw, groupFrom pending done ts = .error flaw →
      matchFrom line tokens i stack pairs ts = ofFlaw line (.error flaw)) ∧
    (∀ items, groupFrom pending done ts = .ok items →
      ∃ found, matchFrom line tokens i stack pairs ts = .ok found) := by
  induction ts generalizing stack pending pairs done i with
  | nil =>
      cases hstack with
      | nil => simp [groupFrom, matchFrom]
      | @cons j p _ _ hj _ =>
          simp only [groupFrom, matchFrom, tokenAt, hj]
          refine ⟨fun flaw h => ?_, fun items h => by contradiction⟩
          rw [← Except.error.inj h, ← blame_eq]
          rfl
  | cons t ts ih =>
      have hrest : tokens.drop (i + 1) = ts := by
        rw [← List.drop_drop, hts, List.drop_one, List.tail_cons]
      have hat : tokens[i]? = some t := by
        rw [← List.head?_drop, hts, List.head?_cons]
      by_cases ho : t.kind = .opening
      · rw [groupFrom_opening ho]
        rw [matchFrom_opening ho]
        exact ih (.cons hat hstack) hrest
      · by_cases hc : t.kind = .closing
        · cases hstack with
          | nil =>
              rw [groupFrom_unmatched hc]
              simp only [matchFrom, hc]
              refine ⟨fun flaw h => ?_, fun items h => by contradiction⟩
              rw [← Except.error.inj h, blame_eq]
          | cons _ htail =>
              rw [groupFrom_closing hc, matchFrom_closing hc]
              exact ih htail hrest
        · rw [groupFrom_token ho hc, matchFrom_token ho hc]
          exact ih hstack hrest

/-- A pair that has been found stays, for only open parentheses get a partner. -/
theorem lookup_of_matchFrom {stack : List Nat} {pairs found : List (Nat × Nat)} {k : Nat}
    (h : matchFrom line tokens i stack pairs ts = .ok found) (hk : k < i)
    (hstack : k ∉ stack) : found.lookup k = pairs.lookup k := by
  induction ts generalizing i stack pairs with
  | nil =>
      cases stack with
      | nil => rw [Except.ok.inj h]
      | cons j stack =>
          obtain ⟨t, -, h⟩ := bind_eq_ok.mp h
          contradiction
  | cons t ts ih =>
      unfold matchFrom at h
      split at h
      · refine ih h (by omega) ?_
        simp only [List.mem_cons, not_or]
        exact ⟨by omega, hstack⟩
      · split at h
        · contradiction
        · simp only [List.mem_cons, not_or] at hstack
          rw [ih h (by omega) hstack.2, List.lookup_cons, beq_false_of_ne hstack.1]
      · exact ih h (by omega) hstack

/-- Well-nested tokens leave the open parentheses as they are, and put the pairs of their groups into
the table. -/
theorem matchFrom_flatten {items : List Item} (h : WellNested items) (i : Nat) (stack : List Nat)
    (pairs : List (Nat × Nat)) (ts : List Token) :
    matchFrom line tokens i stack pairs (flatten items ++ ts) =
      matchFrom line tokens (i + size items) stack (groupPairs i items ++ pairs) ts := by
  induction h generalizing i stack pairs ts with
  | nil => simp [size, groupPairs]
  | @token t rest ho hc _ ih =>
      rw [flatten_token_cons, List.cons_append, matchFrom_token ho hc, ih, size_token_cons,
        Nat.add_assoc, Nat.add_comm 1, groupPairs]
  | @group o c inner rest ho _ hc _ ihInner ihRest =>
      have htokens : flatten (group o inner c :: rest) ++ ts =
          o :: (flatten inner ++ (c :: (flatten rest ++ ts))) := by simp
      have hnext : i + 1 + size inner + 1 = i + size inner + 2 := by omega
      have hend : i + size inner + 2 + size rest = i + size (group o inner c :: rest) := by
        rw [size_group_cons]
        omega
      rw [htokens, matchFrom_opening ho, ihInner, matchFrom_closing hc, hnext, ihRest, hend,
        groupPairs, List.append_assoc, List.cons_append]

/-- What is open after some tokens was opened among them. -/
theorem matchFrom_append {stack : List Nat} {pairs found : List (Nat × Nat)}
    {a b : List Token} (h : matchFrom line tokens i stack pairs (a ++ b) = .ok found)
    (hstack : ∀ j ∈ stack, j < i) : ∃ stack' pairs',
      matchFrom line tokens (i + a.length) stack' pairs' b = .ok found ∧
        ∀ j ∈ stack', j < i + a.length := by
  induction a generalizing i stack pairs with
  | nil => exact ⟨stack, pairs, h, hstack⟩
  | cons t a ih =>
      have hlater : ∀ j ∈ stack, j < i + 1 := fun j hj => Nat.lt_succ_of_lt (hstack j hj)
      have hlength : i + (t :: a).length = i + 1 + a.length := by
        rw [List.length_cons]
        omega
      rw [hlength]
      rw [List.cons_append] at h
      unfold matchFrom at h
      split at h
      · refine ih h fun j hj => ?_
        rcases List.mem_cons.mp hj with rfl | hj
        · exact Nat.lt_succ_self j
        · exact hlater j hj
      · split at h
        · contradiction
        · exact ih h fun j hj => hlater j (List.mem_cons_of_mem _ hj)
      · exact ih h hlater

end

/-- The table has the partner of every parenthesis around well-nested tokens. -/
def Matched (tokens : List Token) (pairs : List (Nat × Nat)) : Prop :=
  ∀ before o inner c after, WellNested inner → o.kind = .opening → c.kind = .closing →
    tokens = before ++ o :: (flatten inner ++ c :: after) →
      pairs.lookup before.length = some (before.length + 1 + size inner)

theorem matched_of_matchFrom {line : List Char} {tokens : List Token} {pairs : List (Nat × Nat)}
    (h : matchFrom line tokens 0 [] [] tokens = .ok pairs) : Matched tokens pairs := by
  intro before o inner c after hinner ho hc htokens
  rw [htokens] at h
  obtain ⟨stack, known, h, hstack⟩ := matchFrom_append h (by simp)
  rw [Nat.zero_add] at h hstack
  rw [matchFrom_opening ho, matchFrom_flatten hinner, matchFrom_closing hc] at h
  have hkept := lookup_of_matchFrom (k := before.length) h (by omega)
    fun hmem => Nat.lt_irrefl _ (hstack _ hmem)
  rw [hkept, List.lookup_cons, beq_self_eq_true]

/-- A splitter that knows the tokens of its line and every pair of parentheses among them. -/
structure Splitter.Sound (s : Splitter) : Prop where
  scanned : Token.scan s.line = .ok s.tokens
  matched : Matched s.tokens s.pairs

/-- A line has a splitter where it has items, and is refused for the same reason otherwise. -/
theorem make_eq (line : List Char) :
    (∀ flaw, Item.ofLine line = .error flaw → Splitter.make line = ofFlaw line (.error flaw)) ∧
      ∀ items, Item.ofLine line = .ok items → ∃ s, Splitter.make line = .ok s ∧ s.Sound ∧
        s.line = line ∧ s.tokens = flatten items := by
  unfold Item.ofLine Splitter.make
  cases hscan : Token.scan line with
  | error flaw =>
      refine ⟨fun _ h => ?_, fun _ h => by contradiction⟩
      rw [← Except.error.inj h]
      rfl
  | ok tokens =>
      have hopen :
          List.Forall₂ (fun (j : Nat) (p : Pending) => tokens[j]? = some p.opening) [] [] := .nil
      obtain ⟨hrefused, hfound⟩ :=
        @matchFrom_of_groupFrom line tokens 0 tokens [] [] [] [] hopen rfl
      refine ⟨fun flaw h => ?_, fun items h => ?_⟩
      · dsimp only
        rw [hrefused flaw h]
        rfl
      · obtain ⟨pairs, hpairs⟩ := hfound items h
        refine ⟨⟨line, tokens, pairs⟩, ?_, ⟨hscan, matched_of_matchFrom hpairs⟩, rfl, ?_⟩
        · dsimp only
          rw [hpairs]
          rfl
        · exact (groupTokens_eq_ok_iff.mp h).2.symm

/-! ## ranges -/

/-- The tokens from a position on are those of well-nested items. -/
structure Covers (tokens : List Token) (lo : Nat) (items : List Item) : Prop where
  nested : WellNested items
  place : ∃ before after, tokens = before ++ (flatten items ++ after) ∧ before.length = lo

namespace Covers

variable {tokens : List Token} {lo : Nat} {items a b inner rest : List Item} {o c : Token}

theorem left (h : Covers tokens lo (a ++ b)) : Covers tokens lo a := by
  obtain ⟨before, after, htokens, hlo⟩ := h.place
  exact ⟨(wellNested_append.mp h.nested).1, before, flatten b ++ after, by simp [htokens], hlo⟩

theorem right (h : Covers tokens lo (a ++ b)) : Covers tokens (lo + size a) b := by
  obtain ⟨before, after, htokens, hlo⟩ := h.place
  exact ⟨(wellNested_append.mp h.nested).2, before ++ flatten a, after, by simp [htokens],
    by simp [size, hlo]⟩

/-- A token takes up one position. -/
theorem tail {t : Token} (h : Covers tokens lo (token t :: rest)) :
    Covers tokens (lo + 1) rest := by
  have hafter := h.right (a := [token t])
  have hone : size [token t] = 1 := by simp [size]
  rwa [hone] at hafter

theorem inside (h : Covers tokens lo (group o inner c :: rest)) : Covers tokens (lo + 1) inner := by
  obtain ⟨before, after, htokens, hlo⟩ := h.place
  cases h.nested with
  | group _ hinner =>
      exact ⟨hinner, before ++ [o], c :: (flatten rest ++ after), by simp [htokens], by simp [hlo]⟩

/-- The table has the partner of a group's opening parenthesis. -/
theorem partner {s : Splitter} (h : Covers s.tokens lo (group o inner c :: rest)) (hs : s.Sound) :
    s.partner lo = .ok (lo + 1 + size inner) := by
  obtain ⟨before, after, htokens, hlo⟩ := h.place
  cases h.nested with
  | group ho hinner hc =>
      have hpair := hs.matched before o inner c (flatten rest ++ after) hinner ho hc
        (by simp [htokens])
      rw [hlo] at hpair
      rw [Splitter.partner, hpair]

/-- The tokens of the items are at their places. -/
theorem tokenAt_eq (h : Covers tokens lo items) {i : Nat} {t : Token}
    (ht : (flatten items)[i]? = some t) : tokenAt tokens (lo + i) = .ok t := by
  obtain ⟨before, after, htokens, hlo⟩ := h.place
  have hi := (List.getElem?_eq_some_iff.mp ht).1
  have hat : tokens[lo + i]? = some t := by
    rw [htokens, ← hlo, List.getElem?_append_right (by omega), Nat.add_sub_cancel_left,
      List.getElem?_append_left hi, ht]
  rw [tokenAt, hat]

/-- The first token is at the start. -/
theorem tokenAt_first {item : Item} (h : Covers tokens lo (item :: rest)) :
    tokenAt tokens lo = .ok item.first := by
  refine h.tokenAt_eq (i := 0) ?_
  rw [← List.head?_eq_getElem?, head?_flatten, List.head?_cons, Option.map_some]

/-- The last token is before the end. -/
theorem tokenAt_last (h : Covers tokens lo items) {t : Token}
    (ht : (flatten items).getLast? = some t) : tokenAt tokens (lo + size items - 1) = .ok t := by
  have hpos : 0 < size items := by
    rw [size, List.length_pos_iff]
    rintro hnil
    simp [hnil] at ht
  have hplace : lo + size items - 1 = lo + (size items - 1) := by omega
  rw [hplace]
  exact h.tokenAt_eq (by rw [size, ← List.getLast?_eq_getElem?, ht])

end Covers

/-- The items of a line cover all of the tokens that its splitter has. -/
theorem covers_of_make {line : List Char} {s : Splitter} (h : Splitter.make line = .ok s) :
    ∃ items, Item.ofLine line = .ok items ∧ s.Sound ∧ s.line = line ∧ Covers s.tokens 0 items ∧
      s.tokens.length = 0 + size items := by
  obtain ⟨hrefused, hmade⟩ := make_eq line
  cases hitems : Item.ofLine line with
  | error flaw =>
      rw [hrefused flaw hitems] at h
      contradiction
  | ok items =>
      obtain ⟨s', hmake, hs, hline, htokens⟩ := hmade items hitems
      rw [h, Except.ok.injEq] at hmake
      subst hmake
      refine ⟨items, rfl, hs, hline, ⟨(ofLine_eq_ok_iff.mp hitems).1, [], [], ?_, rfl⟩, ?_⟩
      · simp [htokens]
      · rw [htokens, size, Nat.zero_add]

/-- Items that are not empty have tokens. -/
theorem size_pos {items : List Item} (h : items ≠ []) : 0 < size items := by
  cases items with
  | nil => exact absurd rfl h
  | cons item rest => cases item <;> simp

namespace Splitter

variable {s : Splitter} {lo : Nat} {items : List Item}

/-- The text of a range is the text of its items, which has no blanks at its ends. -/
theorem text_eq (hs : s.Sound) (h : Covers s.tokens lo items) :
    s.text lo (lo + size items) = .ok ((Item.window items).text s.line) := by
  by_cases hne : items = []
  · rw [hne, text_window_nil]
    simp [text, size]
  · obtain ⟨first, last, hfirst, hlast, hwindow⟩ := exists_window hne
    obtain ⟨before, after, htokens, -⟩ := h.place
    have hpos := size_pos hne
    have hspells := Token.scanFrom_eq_ok_iff.mp hs.scanned
    rw [htokens] at hspells
    have hat := h.tokenAt_eq (i := 0) (by rw [← List.head?_eq_getElem?, hfirst])
    rw [Nat.add_zero] at hat
    rw [text, if_neg (by omega), hat, h.tokenAt_last hlast, hwindow,
      ← (hspells.window hfirst hlast).2]
    rfl

/-- Taking the parentheses off a range takes them off its items. -/
theorem stripParens_eq (hs : s.Sound) (h : Covers s.tokens lo items) :
    ∃ low, s.stripParens lo (lo + size items) = .ok (low, low + size (unwrap items)) ∧
      Covers s.tokens low (unwrap items) := by
  fun_induction unwrap items generalizing lo with
  | case1 o inner c ih =>
      obtain ⟨low, hstrip, hcovers⟩ := ih h.inside
      refine ⟨low, ?_, hcovers⟩
      have hopening : o.kind = .opening := by
        cases h.nested with
        | group ho => exact ho
      have hclose : lo + 1 + size inner = lo + size [group o inner c] - 1 := by
        simp [size]
        omega
      have hlength : 2 ≤ lo + size [group o inner c] - lo := by
        simp [size]
      rw [stripParens, dif_pos hlength, h.tokenAt_first, h.partner hs, ← hclose]
      simp only [bind, Except.bind, first, hopening, if_true]
      exact hstrip
  | case2 items hbare =>
      refine ⟨lo, ?_, h⟩
      rw [stripParens]
      split
      · next hlength =>
        cases items with
        | nil => simp [size] at hlength
        | cons item rest =>
            rw [h.tokenAt_first]
            cases item with
            | token t =>
                have hkind : t.kind ≠ .opening := by
                  cases h.nested with
                  | token ho => exact ho
                simp [bind, Except.bind, first, hkind, pure, Except.pure]
            | group o inner c =>
                have hrest := @size_pos rest fun hnil => hbare o inner c (by rw [hnil])
                have hclose : lo + 1 + size inner ≠ lo + size (group o inner c :: rest) - 1 := by
                  rw [size_group_cons]
                  omega
                rw [h.partner hs]
                simp only [bind, Except.bind, pure, Except.pure, if_neg hclose]
                split <;> rfl
      · rfl

/-! ## the weakest operator -/

/-- The positions of the single tokens among items that start at position `i`. -/
def positions : Nat → List Item → List Nat
  | _, [] => []
  | i, token _ :: rest => i :: positions (i + 1) rest
  | i, group _ inner _ :: rest => positions (i + size inner + 2) rest

/-- The positions among items that start at position `i` where they can be cut. -/
def places (wanted : Operator → Bool) : Bool → Nat → List Item → List Nat
  | _, _, [] => []
  | e, i, item :: rest =>
    if (Cut.here? wanted e item rest).isSome then
      i :: places wanted item.isOperator (i + size [item]) rest
    else places wanted item.isOperator (i + size [item]) rest

/-- Outside of any parentheses are the single tokens. -/
theorem topLevelFrom_eq {i m : Nat} {depth : Int} {later : List Nat} (h : Covers s.tokens i items)
    (hdepth : 0 ≤ depth) (hlater : s.topLevelFrom m (i + size items) depth = .ok later) :
    s.topLevelFrom (size items + m) i depth =
      .ok ((if depth = 0 then positions i items else []) ++ later) := by
  have hnested := h.nested
  induction hnested generalizing i m depth later with
  | nil =>
      have hsize : size [] = 0 := by simp [size]
      rw [hsize, Nat.add_zero] at hlater
      rw [hsize, Nat.zero_add, hlater]
      simp [positions]
  | @token t rest ho hc _ ih =>
      have hrest := h.tail
      rw [size_token_cons, Nat.add_comm (size rest) 1, ← Nat.add_assoc] at hlater
      have hstep := ih hrest hdepth hlater
      have hcount : size (token t :: rest) + m = size rest + m + 1 := by
        rw [size_token_cons]
        omega
      have hfirst := h.tokenAt_first
      rw [first] at hfirst
      rw [hcount, topLevelFrom, hfirst]
      simp only [bind, Except.bind, hstep, positions]
      by_cases hzero : depth = 0 <;> simp [hzero, pure, Except.pure]
  | @group o c inner rest ho _ hc _ ihInner ihRest =>
      have hrest := h.right (a := [group o inner c])
      have hsize : size [group o inner c] = size inner + 2 := by simp [size]
      rw [hsize, ← Nat.add_assoc] at hrest
      have hlast : i + size (group o inner c :: rest) = i + size inner + 2 + size rest := by
        rw [size_group_cons]
        omega
      rw [hlast] at hlater
      have hafter := ihRest hrest hdepth hlater
      have hclose : tokenAt s.tokens (i + 1 + size inner) = .ok c := by
        rw [Nat.add_assoc]
        refine h.tokenAt_eq ?_
        rw [flatten_group_cons, Nat.add_comm 1, List.getElem?_cons_succ, size,
          List.getElem?_append_right (Nat.le_refl _), Nat.sub_self, List.getElem?_cons_zero]
      have hwithin : s.topLevelFrom (size rest + m + 1) (i + 1 + size inner) (depth + 1) =
          .ok ((if depth = 0 then positions (i + size inner + 2) rest else []) ++ later) := by
        have hnext : i + 1 + size inner + 1 = i + size inner + 2 := by omega
        rw [topLevelFrom, hclose]
        simp only [bind, Except.bind, hc, Int.add_sub_cancel, hnext]
        exact hafter
      have hinside := ihInner h.inside (by omega) hwithin
      have hcount : size (group o inner c :: rest) + m = size inner + (size rest + m + 1) + 1 := by
        rw [size_group_cons]
        omega
      have hfirst := h.tokenAt_first
      rw [first] at hfirst
      rw [hcount, topLevelFrom, hfirst]
      simp only [bind, Except.bind, ho]
      rw [hinside, if_neg (by omega), List.nil_append, positions]

theorem topLevel_eq (h : Covers s.tokens lo items) :
    s.topLevel lo (lo + size items) = .ok (positions lo items) := by
  have hend : s.topLevelFrom 0 (lo + size items) 0 = .ok [] := rfl
  have hall := topLevelFrom_eq h (Int.le_refl 0) hend
  rw [topLevel, Nat.add_sub_cancel_left]
  simpa using hall

/-- An operator is a sign where an operand is expected. -/
theorem isSign_eq {done rest : List Item} {t : Token} {op : Operator}
    (h : Covers s.tokens lo (done ++ token t :: rest)) (hk : t.kind = .operator op) :
    s.isSign lo (lo + size done) = .ok (ofLast isOperator true done && op.isSign) := by
  have hat := h.right.tokenAt_first
  rw [first] at hat
  rw [isSign, hat]
  simp only [bind, Except.bind, hk]
  cases hop : op.isSign with
  | false => simp [pure, Except.pure]
  | true =>
      simp only [Bool.not_true, Bool.false_eq_true, if_false, Bool.and_true]
      by_cases hdone : done = []
      · subst hdone
        simp [size, pure, Except.pure]
      · have hpos := size_pos hdone
        obtain ⟨_, last, _, hlast, _⟩ := exists_window hdone
        have hexpects := Token.ofLast_flatten h.left.nested true
        rw [ofLast, hlast] at hexpects
        rw [if_neg (by omega), h.left.tokenAt_last hlast, ← hexpects]
        rfl

/-- A position is a candidate where the items can be cut. -/
theorem isCandidate_eq (wanted : Operator → Bool) {done rest : List Item} {t : Token}
    (h : Covers s.tokens lo (done ++ token t :: rest)) :
    s.isCandidate wanted lo (lo + size done) =
      .ok (Cut.here? wanted (ofLast isOperator true done) (token t) rest).isSome := by
  have hat := h.right.tokenAt_first
  rw [first] at hat
  rw [isCandidate, hat]
  simp only [bind, Except.bind, Cut.here?, binaryOperator?]
  split
  · next op hk =>
    rw [isSign_eq h hk, operator?_token hk]
    cases hw : wanted op <;> cases hsign : ofLast isOperator true done && op.isSign <;>
      simp [hw, hsign, Option.filter, pure, Except.pure]
  · next hk =>
    rw [operator?_eq_none hk]
    rfl

/-- The candidates are the places to cut. -/
theorem candidates_eq (wanted : Operator → Bool) {done rest : List Item}
    (h : Covers s.tokens lo (done ++ rest)) :
    s.candidates wanted lo (positions (lo + size done) rest) =
      .ok (places wanted (ofLast isOperator true done) (lo + size done) rest) := by
  induction rest generalizing done with
  | nil => rfl
  | cons item rest ih =>
      have hdone : Covers s.tokens lo ((done ++ [item]) ++ rest) := by simpa using h
      have hlater := ih hdone
      rw [size_append, ← Nat.add_assoc, ofLast_append, ofLast_cons, ofLast_nil] at hlater
      cases item with
      | token t =>
          have hone : size [token t] = 1 := by simp [size]
          rw [hone] at hlater
          rw [positions, candidates, isCandidate_eq wanted h, places, hone]
          simp only [bind, Except.bind, hlater]
          split <;> rfl
      | group o inner c =>
          have hsize : size [group o inner c] = size inner + 2 := by simp [size]
          rw [hsize, ← Nat.add_assoc] at hlater
          rw [positions, places, hsize, ← Nat.add_assoc]
          exact hlater

theorem size_cons (item : Item) (rest : List Item) :
    size (item :: rest) = size [item] + size rest :=
  size_append [item] rest

/-- The last place to cut is where the search from the right finds one. -/
theorem getLast?_places (wanted : Operator → Bool) (e : Bool) (i : Nat) (items : List Item) :
    (places wanted e i items).getLast? =
      (Cut.last? wanted e items).map fun cut => i + size cut.before := by
  induction items generalizing e i with
  | nil => rfl
  | cons item rest ih =>
      have ih := ih item.isOperator (i + size [item])
      rw [places, Cut.last?]
      cases hlast : Cut.last? wanted item.isOperator rest with
      | some cut =>
          rw [hlast, Option.map_some] at ih
          have hplace : i + size (item :: cut.before) = i + size [item] + size cut.before := by
            rw [size_cons item cut.before, Nat.add_assoc]
          rw [Option.map_some, hplace]
          split
          · rw [List.getLast?_cons, ih]
            rfl
          · exact ih
      | none =>
          rw [hlast, Option.map_none, List.getLast?_eq_none_iff] at ih
          rw [ih]
          cases hhere : Cut.here? wanted e item rest with
          | none => rfl
          | some cut =>
              have hbefore := (Cut.here?_eq_some_iff.mp hhere).2
              simp [hbefore, size]

/-- The first place to cut is where the search from the left finds one. -/
theorem head?_places (wanted : Operator → Bool) (e : Bool) (i : Nat) (items : List Item) :
    (places wanted e i items).head? =
      (Cut.first? wanted e items).map fun cut => i + size cut.before := by
  induction items generalizing e i with
  | nil => rfl
  | cons item rest ih =>
      rw [places, Cut.first?]
      cases hhere : Cut.here? wanted e item rest with
      | some cut =>
          have hbefore := (Cut.here?_eq_some_iff.mp hhere).2
          simp [hbefore, size]
      | none =>
          rw [Option.isSome_none, if_neg Bool.false_ne_true, ih, Option.map_map]
          congr 1
          funext cut
          rw [Function.comp, size_cons item cut.before, Nat.add_assoc]

/-- The place to cut at, if the items have no sign in front or there is one weaker than a power. -/
def cut? (signed : Bool) (items : List Item) : Option Cut :=
  match Cut.last? Operator.isSign true items with
  | some cut => some cut
  | none =>
    match Cut.last? Operator.isFactor true items with
    | some cut => some cut
    | none => if signed then none else Cut.first? Operator.isPower true items

/-- The strengths are tried one after the other, and each search finds its place. -/
theorem cutAt?_eq (h : Covers s.tokens lo items) (signed : Bool) :
    s.cutAt? lo (lo + size items) signed precedence =
      .ok ((cut? signed items).map fun cut => lo + size cut.before) := by
  have hfound : ∀ wanted, s.candidates wanted lo (positions lo items) =
      .ok (places wanted true lo items) := fun wanted => by
    have hall := @candidates_eq _ _ wanted [] _ h
    simpa [size] using hall
  simp only [precedence, cutAt?, topLevel_eq h, hfound, bind, Except.bind, getLast?_places,
    head?_places, if_true, Bool.false_eq_true, if_false, cut?, Operator.isSign,
    Operator.isFactor, Operator.isPower, Bool.and_false, Bool.and_true]
  cases Cut.last? Operator.isSign true items with
  | some cut => rfl
  | none =>
      cases Cut.last? Operator.isFactor true items with
      | some cut => rfl
      | none =>
          cases signed with
          | true => rfl
          | false => cases Cut.first? Operator.isPower true items <;> rfl

end Splitter

end GraphCalc.Checked
