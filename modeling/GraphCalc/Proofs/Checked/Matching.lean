import GraphCalc.Proofs.Checked.Positions
import GraphCalc.Proofs.Item.Partners

/-!
# GraphCalc.Proofs.Checked.Matching

The table of matching parentheses is exact.

```
x * ( ( 1 + x ) / ( x ) )        the tokens
    2                   12       the pairs
      3       7
                  9   11
```

* `lookup_eq_some_iff` — the table of a line knows the partners, and nothing else;
* `matching_of_make` — so it is a one-to-one table from the opening onto the closing parentheses whose
  pairs do not cross;
* `make_by_counting` — where a line has no such table, counting parentheses tells which one is to
  blame: the first `)` too many, or else the last `(` without a partner.
-/

namespace GraphCalc.Checked

open Item

/-! ## the pairs of items -/

/-- The pairs of items are partners where the items are. -/
theorem Covers.partners {tokens : List Token} {lo i j : Nat} {items : List Item}
    (h : Covers tokens lo items) (hij : (i, j) ∈ groupPairs lo items) : Partners tokens i j := by
  have hnested := h.nested
  induction hnested generalizing lo with
  | nil => simp [groupPairs] at hij
  | token _ _ _ ih =>
      rw [groupPairs] at hij
      exact ih h.tail hij
  | @group o c inner rest ho hinner hc _ ihInner ih =>
      rw [groupPairs, List.mem_append, List.mem_cons, Prod.mk.injEq] at hij
      rcases hij with hrest | ⟨rfl, rfl⟩ | hinside
      · have hbehind := h.right (a := [group o inner c])
        have hsize : lo + size [group o inner c] = lo + size inner + 2 := by simp [size]; omega
        rw [hsize] at hbehind
        exact ih hbehind hrest
      · obtain ⟨before, after, htokens, rfl⟩ := h.place
        refine ⟨before, o, flatten inner, c, flatten rest ++ after, ?_, ho,
          balanced_iff.mpr ⟨inner, hinner, rfl⟩, hc, rfl, rfl⟩
        rw [htokens]
        simp
      · exact ihInner h.inside hinside

/-- A table that has the partner of every parenthesis around well-nested tokens has all partners. -/
theorem Matched.lookup_eq {tokens : List Token} {pairs : List (Nat × Nat)} {i j : Nat}
    (h : Matched tokens pairs) (hij : Partners tokens i j) : pairs.lookup i = some j := by
  obtain ⟨before, o, inner, c, after, htokens, ho, hinner, hc, rfl, rfl⟩ := hij
  obtain ⟨items, hnested, rfl⟩ := balanced_iff.mp hinner
  exact h before o items c after hnested ho hc htokens

/-! ## the table of a line -/

section

variable {line : List Char} {s : Splitter}

/-- The table of a line has the pairs of its items. -/
theorem pairs_of_make {items : List Item} (h : Splitter.make line = .ok s)
    (hitems : Item.ofLine line = .ok items) : s.pairs = groupPairs 0 items := by
  obtain ⟨hnested, hscan⟩ := ofLine_eq_ok_iff.mp hitems
  have hfound : matchFrom line (flatten items) 0 [] [] (flatten items ++ []) = _ :=
    matchFrom_flatten hnested 0 [] [] []
  rw [List.append_nil, List.append_nil] at hfound
  unfold Splitter.make at h
  rw [hscan] at h
  dsimp only at h
  rw [hfound] at h
  cases h
  rfl

/-- The table of a line knows the partners, and nothing else. -/
theorem lookup_eq_some_iff (h : Splitter.make line = .ok s) {i j : Nat} :
    s.pairs.lookup i = some j ↔ Partners s.tokens i j := by
  obtain ⟨items, hitems, hs, -, hcovers, -⟩ := covers_of_make h
  constructor
  · intro hlookup
    obtain ⟨front, back, hpairs, -⟩ := List.lookup_eq_some_iff.mp hlookup
    refine hcovers.partners ?_
    rw [← pairs_of_make h hitems, hpairs]
    simp
  · exact hs.matched.lookup_eq

end

/-- A table that pairs the opening parentheses with the closing ones, one to one, so that the pairs
are balanced inside and do not cross. -/
structure Matching (ts : List Token) (partner : Nat → Option Nat) : Prop where
  defined : ∀ i, (∃ j, partner i = some j) ↔ ∃ t, ts[i]? = some t ∧ t.kind = .opening
  onto : ∀ j, (∃ i, partner i = some j) ↔ ∃ t, ts[j]? = some t ∧ t.kind = .closing
  injective : ∀ i i' j, partner i = some j → partner i' = some j → i = i'
  before : ∀ i j, partner i = some j → i < j
  balanced : ∀ i j, partner i = some j → Balanced ((ts.take j).drop (i + 1))
  /-- Of two pairs, the one that is opened later is behind the other one, or inside. -/
  noncrossing : ∀ i j i' j', partner i = some j → partner i' = some j' → i < i' →
    j < i' ∨ j' < j

/-- Balanced tokens are matched by their partners. -/
theorem matching_of_partners {ts : List Token} {partner : Nat → Option Nat} (hts : Balanced ts)
    (h : ∀ i j, partner i = some j ↔ Partners ts i j) : Matching ts partner where
  defined i := by
    constructor
    · rintro ⟨j, hj⟩
      exact ((h i j).mp hj).opening
    · rintro ⟨t, ht, ho⟩
      obtain ⟨j, hj⟩ := (hts.hasPartner ht).1 ho
      exact ⟨j, (h i j).mpr hj⟩
  onto j := by
    constructor
    · rintro ⟨i, hi⟩
      exact ((h i j).mp hi).closing
    · rintro ⟨t, ht, hc⟩
      obtain ⟨i, hi⟩ := (hts.hasPartner ht).2 hc
      exact ⟨i, (h i j).mpr hi⟩
  injective i i' j hi hi' := ((h i j).mp hi).left_inj ((h i' j).mp hi')
  before i j hij := ((h i j).mp hij).lt
  balanced i j hij := ((h i j).mp hij).balanced
  noncrossing i j i' j' hij hij' hlt := ((h i j).mp hij).inside_or_apart ((h i' j').mp hij') hlt

/-- The table of a line pairs its parentheses. -/
theorem matching_of_make {line : List Char} {s : Splitter} (h : Splitter.make line = .ok s)
    (hs : Balanced s.tokens) : Matching s.tokens (List.lookup · s.pairs) :=
  matching_of_partners hs fun _ _ => lookup_eq_some_iff h

/-! ## the parenthesis to blame -/

/-- A line with such a flaw is refused for it, by items and by positions. -/
theorem make_of_groupTokens {line : List Char} {ts : List Token} {t : Token} {problem : Problem}
    (hscan : Token.scan line = .ok ts) (h : groupTokens ts = .error (t.flaw problem)) :
    Splitter.make line = blame line t problem ∧
      Item.ofLine line = .error (t.flaw problem) := by
  have hline : Item.ofLine line = .error (t.flaw problem) := by rw [ofLine, hscan]; exact h
  exact ⟨((make_eq line).1 _ hline).trans (blame_eq line t problem).symm, hline⟩

/-- Matching parentheses is exact, for every line that has tokens.

* If more parentheses are closed than opened in some of its first tokens, the first closing
  parenthesis that makes it so is to blame.
* Otherwise, if some opening parentheses have no partner, the last of them is to blame.
* Otherwise the table pairs the opening parentheses with the closing ones, and it is the table of the
  line's items. -/
theorem make_by_counting {line : List Char} {ts : List Token} (h : Token.scan line = .ok ts) :
    ((∃ k, Excess (ts.take k)) →
      ∃ k t, ts[k]? = some t ∧ t.kind = .closing ∧ Excess (ts.take (k + 1)) ∧
        (∀ m ≤ k, ¬Excess (ts.take m)) ∧
        Splitter.make line = blame line t .unmatchedClosing ∧
        Item.ofLine line = .error (t.flaw .unmatchedClosing)) ∧
    ((∀ k, ¬Excess (ts.take k)) → (∃ i, Unclosed ts i) →
      ∃ i t, ts[i]? = some t ∧ Unclosed ts i ∧ (∀ k, Unclosed ts k → k ≤ i) ∧
        Splitter.make line = blame line t .unmatchedOpening ∧
        Item.ofLine line = .error (t.flaw .unmatchedOpening)) ∧
    ((∀ k, ¬Excess (ts.take k)) → (∀ i, ¬Unclosed ts i) →
      ∃ s items, Splitter.make line = .ok s ∧ s.line = line ∧ s.tokens = ts ∧
        Matching ts (List.lookup · s.pairs) ∧
        Item.ofLine line = .ok items ∧ s.pairs = groupPairs 0 items) := by
  rcases groupTokens_cases ts with
    ⟨items, hitems, hts⟩ | ⟨before, t, after, rfl, ⟨hbefore, ht, herror⟩ |
      ⟨hbefore, ht, hafter, herror⟩⟩
  case inl =>
    have hline : Item.ofLine line = .ok items := by rw [ofLine, h]; exact hitems
    obtain ⟨s, hmake, -, hs, htokens⟩ := (make_eq line).2 items hline
    rw [(groupTokens_eq_ok_iff.mp hitems).2] at htokens
    refine ⟨?_, ?_, fun _ _ => ?_⟩
    · rintro ⟨k, hk⟩
      exact absurd hk (hts.steady k)
    · rintro - ⟨i, hi⟩
      exact absurd hi (hts.not_unclosed i)
    · subst htokens
      exact ⟨s, items, hmake, hs, rfl, matching_of_make hmake hts, hline,
        pairs_of_make hmake hline⟩
  case inr.inl =>
    obtain ⟨hmany, hfew⟩ := excess_of_closing after hbefore ht
    obtain ⟨hmake, hline⟩ := make_of_groupTokens h herror
    refine ⟨fun _ => ⟨before.length, t, by simp, ht, hmany, hfew, hmake, hline⟩, ?_, ?_⟩
    · intro hsteady
      exact absurd hmany (hsteady _)
    · intro hsteady
      exact absurd hmany (hsteady _)
  case inr.inr =>
    have hopen := unclosed_of_opening before ht hafter.steady
    obtain ⟨hmake, hline⟩ := make_of_groupTokens h herror
    have hsteady := hbefore.append (hafter.steady.opening ht)
    refine ⟨?_, fun _ _ => ⟨before.length, t, by simp, hopen, fun _ => le_of_unclosed hafter,
      hmake, hline⟩, ?_⟩
    · rintro ⟨k, hk⟩
      exact absurd hk (hsteady k)
    · intro _ hall
      exact absurd hopen (hall _)

/-- The first and the last parenthesis of `((x)(` are never closed, and the last one is to blame. -/
theorem make_blames_last_unclosed :
    ∃ ts, Token.scan "((x)(".toList = .ok ts ∧ Unclosed ts 0 ∧ Unclosed ts 4 ∧
      Splitter.make "((x)(".toList =
        blame "((x)(".toList ⟨.opening, ['('], 4⟩ .unmatchedOpening := by
  let first : Token := ⟨.opening, ['('], 0⟩
  let group : List Token := [⟨.opening, ['('], 1⟩, ⟨.word, ['x'], 2⟩, ⟨.closing, [')'], 3⟩]
  let last : Token := ⟨.opening, ['('], 4⟩
  have hscan : Token.scan "((x)(".toList = .ok (first :: group ++ [last]) :=
    Token.scanFrom_eq_ok_iff.mpr (.token (.single rfl) (fun _ _ => rfl)
      (.token (.single rfl) (fun _ _ => rfl) (.token Token.formed_variable
        (Token.Kind.stops_cons (by decide) _) (.token (.single rfl) (fun _ _ => rfl)
          (.token (.single rfl) (fun _ _ => rfl) .nil)))))
  have hvar : Balanced [⟨.word, ['x'], 2⟩] := .token nofun nofun .nil
  have hgroup : Balanced group := .parentheses rfl hvar rfl .nil
  have hrest : Steady (group ++ [last]) := hgroup.steady.append (Balanced.nil.steady.opening rfl)
  have hfirst : Unclosed (first :: group ++ [last]) 0 :=
    unclosed_of_opening [] rfl hrest
  have hlast : Unclosed (first :: group ++ [last]) 4 :=
    unclosed_of_opening (first :: group) rfl Balanced.nil.steady
  obtain ⟨i, t, ht, hi, hbounded, hmake, -⟩ :=
    (make_by_counting hscan).2.1 (hrest.opening rfl) ⟨4, hlast⟩
  have hle : i ≤ (first :: group).length := le_of_unclosed .nil hi
  obtain rfl : i = 4 := Nat.le_antisymm hle (hbounded 4 hlast)
  obtain rfl : last = t := Option.some.inj ht
  exact ⟨_, hscan, hfirst, hlast, hmake⟩

end GraphCalc.Checked
