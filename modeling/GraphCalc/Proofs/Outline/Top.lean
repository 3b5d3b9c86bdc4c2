import GraphCalc.Proofs.Item.Nesting
import GraphCalc.Proofs.Outline.Cuts

/-!
# GraphCalc.Proofs.Outline.Top

What the outline of items is, without a search and without a limit.

`Outline.look` is one look at the top of items: it finds the outline, or what is wrong, or a sign
`+` to drop.  `Outline.Top` says by rules which outline items have.

* `ofItems_succ` — an outline is found by looking until no `+` is left in front;
* `top_of_ofItems`, `Top.ofItems_eq` — what is found is the outline, and it is found whenever the
  limit exceeds the number of tokens;
* `blames_of_ofItems` — where none is found, one of the tokens is to blame;
* `ofItems_ne_tooDeep`, `ofItems_succ_of_ne` — beyond that number the limit says nothing.
-/

namespace GraphCalc

open Item

/-! ## sizes -/

/-- The number of tokens items are made of. -/
def Item.size (items : List Item) : Nat := (flatten items).length

@[simp] theorem Item.size_append (a b : List Item) : size (a ++ b) = size a + size b := by
  simp [size]

@[simp] theorem Item.size_token_cons (t : Token) (rest : List Item) :
    size (token t :: rest) = size rest + 1 := by
  simp [size]

@[simp] theorem Item.size_group_cons (o c : Token) (inner rest : List Item) :
    size (group o inner c :: rest) = size inner + size rest + 2 := by
  simp [size]
  omega

/-- Taking parentheses off adds no tokens. -/
theorem Item.size_unwrap_le (items : List Item) : size (unwrap items) ≤ size items := by
  fun_induction unwrap items with
  | case1 o inner c ih =>
      rw [size_group_cons]
      omega
  | case2 => exact Nat.le_refl _

/-- A cut shares the tokens out, but for the operator. -/
theorem Cut.At.size {wanted : Operator → Bool} {e : Bool} {items : List Item} {cut : Cut}
    (h : Cut.At wanted e items cut) :
    Item.size items = Item.size cut.before + Item.size cut.after + 1 := by
  rw [h.split, size_append, size_token_cons]
  omega

/-- The sign in front of items is a token with a sign's operator. -/
theorem leadingSign?_eq_some_iff {items rest : List Item} {op : Operator} {sign : Token} :
    leadingSign? items = some (op, sign, rest) ↔
      items = token sign :: rest ∧ sign.kind = .operator op ∧ op.isSign = true := by
  cases items with
  | nil => simp [leadingSign?]
  | cons item items =>
      constructor
      · intro h
        obtain ⟨found, hfound, heq⟩ := Option.map_eq_some_iff.mp h
        obtain ⟨hop, hsign⟩ := Option.filter_eq_some_iff.mp hfound
        obtain ⟨rfl, rfl, rfl⟩ := heq
        obtain ⟨hitem, hkind⟩ := eq_token_of_operator? hop
        exact ⟨by rw [← hitem], hkind, hsign⟩
      · rintro ⟨heq, hkind, hsign⟩
        obtain ⟨rfl, rfl⟩ := List.cons.inj heq
        simp [leadingSign?, operator?_token hkind, hsign, Item.first]

namespace Outline

/-! ## one look -/

/-- What one look at items shows: their outline or what is wrong with them, or a sign `+` with the
items after it. -/
def look (items : List Item) : Except Flaw Outline ⊕ List Item :=
  match Cut.last? Operator.isSign true items with
  | some cut => .inl cut.outline
  | none =>
    match Cut.last? Operator.isFactor true items with
    | some cut => .inl cut.outline
    | none =>
      match leadingSign? items with
      | some (op, sign, rest) =>
        if rest.isEmpty then .inl (.error (sign.flaw .missingOperand))
        else if op = .sub then .inl (.ok (.negation rest))
        else .inr rest
      | none =>
        match Cut.first? Operator.isPower true items with
        | some cut => .inl cut.outline
        | none => .inl (ofOperand items)

theorem ofItems_succ (n : Nat) (items : List Item) :
    ofItems (n + 1) items =
      match look (unwrap items) with
      | .inl outcome => outcome
      | .inr rest => ofItems n rest := by
  rw [ofItems, look]
  cases Cut.last? Operator.isSign true (unwrap items) with
  | some cut => rfl
  | none =>
      cases Cut.last? Operator.isFactor true (unwrap items) with
      | some cut => rfl
      | none =>
          cases leadingSign? (unwrap items) with
          | none => cases Cut.first? Operator.isPower true (unwrap items) <;> rfl
          | some found =>
              obtain ⟨op, sign, rest⟩ := found
              dsimp only
              split
              · rfl
              · split <;> rfl

/-! ## the rules -/

/-- The outlines of items.  The rules exclude each other. -/
inductive Top : List Item → Outline → Prop
  | parentheses {o c : Token} {inner : List Item} {outline : Outline} (inside : Top inner outline) :
      Top [group o inner c] outline
  | sum {items : List Item} {cut : Cut} (cutAt : Cut.At Operator.isSign true items cut)
      (isLast : Cut.last? Operator.isSign true cut.after = none) (left : cut.before ≠ [])
      (right : cut.after ≠ []) : Top items (.binary cut.op cut.before cut.after)
  | product {items : List Item} {cut : Cut} (noSum : Cut.last? Operator.isSign true items = none)
      (cutAt : Cut.At Operator.isFactor true items cut)
      (isLast : Cut.last? Operator.isFactor true cut.after = none) (left : cut.before ≠ [])
      (right : cut.after ≠ []) : Top items (.binary cut.op cut.before cut.after)
  | negative {sign : Token} {rest : List Item}
      (noSum : Cut.last? Operator.isSign true (token sign :: rest) = none)
      (noProduct : Cut.last? Operator.isFactor true (token sign :: rest) = none)
      (isMinus : sign.kind = .operator .sub) (operand : rest ≠ []) :
      Top (token sign :: rest) (.negation rest)
  | positive {sign : Token} {rest : List Item} {outline : Outline}
      (noSum : Cut.last? Operator.isSign true (token sign :: rest) = none)
      (noProduct : Cut.last? Operator.isFactor true (token sign :: rest) = none)
      (isPlus : sign.kind = .operator .add) (operand : rest ≠ []) (after : Top rest outline) :
      Top (token sign :: rest) outline
  | power {items : List Item} {cut : Cut} (noSum : Cut.last? Operator.isSign true items = none)
      (noProduct : Cut.last? Operator.isFactor true items = none)
      (noSign : leadingSign? items = none) (cutAt : Cut.At Operator.isPower true items cut)
      (isFirst : Cut.last? Operator.isPower true cut.before = none) (left : cut.before ≠ [])
      (right : cut.after ≠ []) : Top items (.binary cut.op cut.before cut.after)
  | call {name o c : Token} {argument : List Item} (isWord : name.kind = .word) :
      Top [token name, group o argument c] (.call name argument)
  | single {t : Token} (notOperator : ∀ op, t.kind ≠ .operator op) : Top [token t] (.single t)

/-! ## what is found is the outline -/

theorem outline_eq_ok_iff {cut : Cut} {outline : Outline} :
    cut.outline = .ok outline ↔
      cut.before ≠ [] ∧ cut.after ≠ [] ∧ outline = .binary cut.op cut.before cut.after := by
  unfold Cut.outline
  split
  · next h =>
    simp only [Bool.or_eq_true, List.isEmpty_iff] at h
    simp only [reduceCtorEq, false_iff, not_and]
    intro hbefore hafter
    exact absurd h (by simp [hbefore, hafter])
  · next h =>
    simp only [Bool.or_eq_true, List.isEmpty_iff, not_or] at h
    simp [h.1, h.2, eq_comm]

/-- Items that have no place to cut and no sign in front do not start with an operator. -/
theorem not_operator_of_noCut {t : Token} {rest : List Item}
    (noProduct : Cut.last? Operator.isFactor true (token t :: rest) = none)
    (noSign : leadingSign? (token t :: rest) = none)
    (noPower : Cut.last? Operator.isPower true (token t :: rest) = none) (op : Operator) :
    t.kind ≠ .operator op := by
  intro hk
  have hcut : ∀ {wanted : Operator → Bool}, wanted op = true → op.isSign = false →
      Cut.last? wanted true (token t :: rest) ≠ none := by
    intro wanted hw hs hnone
    have hfirst := Cut.first?_eq_none_iff.mpr hnone
    have hat : Cut.At wanted true (token t :: rest) ⟨[], op, t, rest⟩ :=
      ⟨rfl, hk, hw, by simp [hs]⟩
    rw [Cut.first?_eq_some_iff.mpr ⟨hat, rfl⟩] at hfirst
    contradiction
  cases op with
  | add => rw [leadingSign?_eq_some_iff.mpr ⟨rfl, hk, rfl⟩] at noSign; contradiction
  | sub => rw [leadingSign?_eq_some_iff.mpr ⟨rfl, hk, rfl⟩] at noSign; contradiction
  | mul => exact hcut rfl rfl noProduct
  | div => exact hcut rfl rfl noProduct
  | pow => exact hcut rfl rfl noPower

/-- An operand is a single item, or a word before a group. -/
theorem ofOperand_eq_ok {items : List Item} {outline : Outline}
    (h : ofOperand items = .ok outline) :
    (∃ item, items = [item] ∧ outline = .single item.first) ∨
      ∃ name o argument c, items = [token name, group o argument c] ∧ name.kind = .word ∧
        outline = .call name argument := by
  match items, h with
  | [], h => contradiction
  | [item], h => exact .inl ⟨item, rfl, (Except.ok.inj h).symm⟩
  | [token name, group o argument c], h =>
      simp only [ofOperand] at h
      split at h
      · next hword => exact .inr ⟨name, o, argument, c, rfl, hword, (Except.ok.inj h).symm⟩
      · contradiction
  | [token _, token _], h => simp [ofOperand] at h
  | [group .., _], h => simp [ofOperand] at h
  | _ :: _ :: _ :: _, h => simp [ofOperand] at h

/-- Items that are not a group in parentheses have the outline that a look at them shows. -/
theorem top_of_look {items : List Item} {outline : Outline}
    (bare : ∀ o inner c, items ≠ [group o inner c]) (h : look items = .inl (.ok outline)) :
    Top items outline := by
  unfold look at h
  split at h
  · next cut hcut =>
    obtain ⟨hat, hlast⟩ := Cut.last?_eq_some_iff.mp hcut
    obtain ⟨hleft, hright, rfl⟩ := outline_eq_ok_iff.mp (Sum.inl.inj h)
    exact .sum hat hlast hleft hright
  next hsum =>
  split at h
  · next cut hcut =>
    obtain ⟨hat, hlast⟩ := Cut.last?_eq_some_iff.mp hcut
    obtain ⟨hleft, hright, rfl⟩ := outline_eq_ok_iff.mp (Sum.inl.inj h)
    exact .product hsum hat hlast hleft hright
  next hproduct =>
  split at h
  · next op sign rest hsign =>
    obtain ⟨rfl, hkind, -⟩ := leadingSign?_eq_some_iff.mp hsign
    split at h
    · cases h
    next hrest =>
    split at h
    · next hop =>
      cases h
      rw [hop] at hkind
      exact .negative hsum hproduct hkind (by simpa using hrest)
    · cases h
  next hnoSign =>
  split at h
  · next cut hcut =>
    obtain ⟨hat, hfirst⟩ := Cut.first?_eq_some_iff.mp hcut
    obtain ⟨hleft, hright, rfl⟩ := outline_eq_ok_iff.mp (Sum.inl.inj h)
    exact .power hsum hproduct hnoSign hat hfirst hleft hright
  next hpower =>
  obtain ⟨item, rfl, rfl⟩ | ⟨name, o, argument, c, rfl, hword, rfl⟩ :=
    ofOperand_eq_ok (Sum.inl.inj h)
  · cases item with
    | group o inner c => exact absurd rfl (bare o inner c)
    | token t =>
        exact .single (not_operator_of_noCut hproduct hnoSign (Cut.first?_eq_none_iff.mp hpower))
  · exact .call hword

/-- A sign `+` is dropped where there is no place to cut. -/
theorem look_eq_inr_iff {items rest : List Item} :
    look items = .inr rest ↔ ∃ sign, items = token sign :: rest ∧ sign.kind = .operator .add ∧
      rest ≠ [] ∧ Cut.last? Operator.isSign true items = none ∧
      Cut.last? Operator.isFactor true items = none := by
  constructor
  · intro h
    unfold look at h
    split at h
    · contradiction
    next hsum =>
    split at h
    · contradiction
    next hproduct =>
    split at h
    · next op sign after hsign =>
      obtain ⟨hitems, hkind, hop⟩ := leadingSign?_eq_some_iff.mp hsign
      split at h
      · contradiction
      next hrest =>
      split at h
      · contradiction
      next hsub =>
      rw [Sum.inr.injEq] at h
      subst h
      cases op with
      | add => exact ⟨sign, hitems, hkind, by simpa using hrest, hsum, hproduct⟩
      | sub => contradiction
      | mul | div | pow => contradiction
    · split at h <;> contradiction
  · rintro ⟨sign, hitems, hkind, hrest, hsum, hproduct⟩
    have hsign := leadingSign?_eq_some_iff.mpr ⟨hitems, hkind, rfl⟩
    simp [look, hsum, hproduct, hsign, hrest]

theorem top_unwrap {items : List Item} {outline : Outline} (h : Top (unwrap items) outline) :
    Top items outline := by
  fun_induction unwrap items with
  | case1 o inner c ih => exact .parentheses (ih h)
  | case2 => exact h

theorem unwrap_ne_group (items : List Item) (o c : Token) (inner : List Item) :
    unwrap items ≠ [group o inner c] := by
  fun_induction unwrap items with
  | case1 _ _ _ ih => exact ih
  | case2 items h => exact h o inner c

/-- What is found is the outline. -/
theorem top_of_ofItems {n : Nat} {items : List Item} {outline : Outline}
    (h : ofItems n items = .ok outline) : Top items outline := by
  induction n generalizing items with
  | zero =>
      rw [ofItems] at h
      contradiction
  | succ n ih =>
      rw [ofItems_succ] at h
      refine top_unwrap ?_
      cases hlook : look (unwrap items) with
      | inl outcome =>
          rw [hlook] at h
          dsimp only at h
          rw [h] at hlook
          exact top_of_look (fun o inner c => unwrap_ne_group items o c inner) hlook
      | inr rest =>
          rw [hlook] at h
          obtain ⟨sign, hitems, hkind, hrest, hsum, hproduct⟩ := look_eq_inr_iff.mp hlook
          rw [hitems] at hsum hproduct ⊢
          exact .positive hsum hproduct hkind hrest (ih h)

/-! ## the outline is found -/

theorem unwrap_eq_self {items : List Item} (bare : ∀ o inner c, items ≠ [group o inner c]) :
    unwrap items = items := by
  unfold unwrap
  split
  · next o inner c => exact absurd rfl (bare o inner c)
  · rfl

/-- Items with a token at the top are not a group in parentheses. -/
theorem unwrap_split (a b : List Item) (t : Token) :
    unwrap (a ++ token t :: b) = a ++ token t :: b := by
  refine unwrap_eq_self fun o inner c h => ?_
  have hmem : token t ∈ [group o inner c] := h ▸ (by simp)
  simp at hmem

/-- Items without an operator are looked at as an operand. -/
theorem look_of_noOperator {items : List Item} (h : ∀ item ∈ items, item.operator? = none) :
    look items = .inl (ofOperand items) := by
  have hnone : ∀ wanted, Cut.last? wanted true items = none :=
    fun wanted => Cut.last?_eq_none_of_noOperator h
  have hsign : leadingSign? items = none := by
    cases items with
    | nil => rfl
    | cons item items => simp [leadingSign?, h item (by simp)]
  rw [look, hnone, hnone, hsign, Cut.first?_eq_none_iff.mpr (hnone _)]

theorem signs_inner_le {o c : Token} {inner : List Item} (h : WellNested [group o inner c]) :
    Token.signs .add true (flatten inner) ≤ Token.signs .add true (flatten [group o inner c]) := by
  cases h with
  | group ho =>
      rw [flatten_group_cons, Token.signs, Token.expectsOperand_of_opening ho, Token.signs_append]
      omega

/-- The outline is found, and only signs `+` in front count against the limit. -/
theorem Top.ofItems_eq {n : Nat} {items : List Item} {outline : Outline} (h : Top items outline)
    (hnested : WellNested items) (hn : Token.signs .add true (flatten items) < n) :
    ofItems n items = .ok outline := by
  obtain ⟨n, rfl⟩ := Nat.exists_eq_succ_of_ne_zero (Nat.ne_of_gt (Nat.zero_lt_of_lt hn))
  induction h generalizing n with
  | @parentheses o c inner outline _ ih =>
      have hsigns := signs_inner_le hnested
      cases hnested with
      | group _ hinner =>
          have hstep := ih hinner n (by omega)
          rw [ofItems_succ] at hstep ⊢
          rwa [unwrap]
  | @sum items cut hat hlast hleft hright =>
      have hbare : unwrap items = items := by rw [hat.split, unwrap_split]
      rw [ofItems_succ, hbare, look, Cut.last?_eq_some_iff.mpr ⟨hat, hlast⟩]
      exact outline_eq_ok_iff.mpr ⟨hleft, hright, rfl⟩
  | @product items cut hsum hat hlast hleft hright =>
      have hbare : unwrap items = items := by rw [hat.split, unwrap_split]
      rw [ofItems_succ, hbare, look, hsum, Cut.last?_eq_some_iff.mpr ⟨hat, hlast⟩]
      exact outline_eq_ok_iff.mpr ⟨hleft, hright, rfl⟩
  | @negative sign rest hsum hproduct hkind hrest =>
      have hbare : unwrap (token sign :: rest) = token sign :: rest := unwrap_split [] rest sign
      rw [ofItems_succ, hbare, look, hsum, hproduct, leadingSign?_eq_some_iff.mpr ⟨rfl, hkind, rfl⟩]
      simp [hrest]
  | @positive sign rest outline hsum hproduct hkind hrest _ ih =>
      have hbare : unwrap (token sign :: rest) = token sign :: rest := unwrap_split [] rest sign
      have hlook := look_eq_inr_iff.mpr ⟨sign, rfl, hkind, hrest, hsum, hproduct⟩
      rw [flatten_token_cons, Token.signs, Token.expectsOperand_of_operator hkind] at hn
      simp only [hkind, Bool.true_and, beq_self_eq_true, if_true] at hn
      obtain ⟨m, rfl⟩ := Nat.exists_eq_succ_of_ne_zero (n := n) (by omega)
      rw [ofItems_succ, hbare, hlook]
      cases hnested with
      | token _ _ hrestNested => exact ih hrestNested m (by omega)
  | @power items cut hsum hproduct hsign hat hfirst hleft hright =>
      have hbare : unwrap items = items := by rw [hat.split, unwrap_split]
      rw [ofItems_succ, hbare, look, hsum, hproduct, hsign,
        Cut.first?_eq_some_iff.mpr ⟨hat, hfirst⟩]
      exact outline_eq_ok_iff.mpr ⟨hleft, hright, rfl⟩
  | @call name o c argument hword =>
      have hbare : unwrap [token name, group o argument c] = [token name, group o argument c] :=
        unwrap_split [] _ name
      have hnone : ∀ item ∈ [token name, group o argument c], item.operator? = none := by
        simp [operator?, hword]
      rw [ofItems_succ, hbare, look_of_noOperator hnone]
      simp [ofOperand, hword]
  | @single t hop =>
      have hbare : unwrap [token t] = [token t] := unwrap_split [] [] t
      have hnone : ∀ item ∈ [token t], item.operator? = none := by
        simpa using operator?_eq_none hop
      rw [ofItems_succ, hbare, look_of_noOperator hnone]
      rfl

/-! ## operands and the limit -/

/-- The operands of an outline. -/
def operands : Outline → List (List Item)
  | single _ => []
  | call _ argument => [argument]
  | negation operand => [operand]
  | binary _ left right => [left, right]

/-- Every operand has fewer tokens than the whole. -/
theorem Top.size_operand_lt {items : List Item} {outline : Outline} (h : Top items outline) :
    ∀ operand ∈ outline.operands, size operand < size items := by
  induction h with
  | parentheses _ ih =>
      intro operand hoperand
      have := ih operand hoperand
      rw [size_group_cons]
      omega
  | sum hat | product _ hat | power _ _ _ hat =>
      intro operand hoperand
      have hsize := hat.size
      simp only [operands, List.mem_cons, List.not_mem_nil, or_false] at hoperand
      rcases hoperand with rfl | rfl <;> omega
  | negative =>
      intro operand hoperand
      rw [List.mem_singleton.mp hoperand, size_token_cons]
      omega
  | positive _ _ _ _ _ ih =>
      intro operand hoperand
      have := ih operand hoperand
      rw [size_token_cons]
      omega
  | call =>
      intro operand hoperand
      rw [List.mem_singleton.mp hoperand, size_token_cons, size_group_cons]
      omega
  | single => simp [operands]

/-- The tokens of every operand stand next to each other in the whole. -/
theorem Top.infix_operand {items : List Item} {outline : Outline} (h : Top items outline) :
    ∀ operand ∈ outline.operands, flatten operand <:+: flatten items := by
  induction h with
  | @parentheses o c inner _ _ ih =>
      intro operand hoperand
      refine (ih operand hoperand).trans ⟨[o], [c], ?_⟩
      simp
  | sum hat | product _ hat | power _ _ _ hat =>
      intro operand hoperand
      rw [hat.split, flatten_append, flatten_token_cons]
      simp only [operands, List.mem_cons, List.not_mem_nil, or_false] at hoperand
      rcases hoperand with rfl | rfl
      · exact (List.prefix_append _ _).isInfix
      · exact ((List.suffix_cons _ _).trans (List.suffix_append _ _)).isInfix
  | negative =>
      intro operand hoperand
      rw [List.mem_singleton.mp hoperand, flatten_token_cons]
      exact (List.suffix_cons _ _).isInfix
  | positive _ _ _ _ _ ih =>
      intro operand hoperand
      rw [flatten_token_cons]
      exact (ih operand hoperand).trans (List.suffix_cons _ _).isInfix
  | @call name o c argument =>
      intro operand hoperand
      rw [List.mem_singleton.mp hoperand]
      exact ⟨[name, o], [c], by simp⟩
  | single => simp [operands]

/-- A token that is left by itself is one of the whole. -/
theorem Top.single_mem {items : List Item} {t : Token} (h : Top items (.single t)) :
    t ∈ flatten items := by
  generalize hsingle : Outline.single t = outline at h
  induction h with
  | parentheses _ ih => simp [ih hsingle]
  | positive _ _ _ _ _ ih => simp [ih hsingle]
  | single => simpa using hsingle
  | sum | product | negative | power | call => contradiction

/-- Operands are as well nested as the whole. -/
theorem Top.wellNested_operand {items : List Item} {outline : Outline} (h : Top items outline)
    (hnested : WellNested items) : ∀ operand ∈ outline.operands, WellNested operand := by
  induction h with
  | parentheses _ ih =>
      cases hnested with
      | group _ hinner => exact ih hinner
  | sum hat | product _ hat | power _ _ _ hat =>
      rw [hat.split] at hnested
      obtain ⟨hbefore, hafter⟩ := wellNested_append.mp hnested
      cases hafter with
      | token _ _ hafter => simp [operands, hbefore, hafter]
  | negative =>
      cases hnested with
      | token _ _ hrest => simpa [operands] using hrest
  | positive _ _ _ _ _ ih =>
      cases hnested with
      | token _ _ hrest => exact ih hrest
  | call =>
      cases hnested with
      | token _ _ hrest =>
          cases hrest with
          | group _ hinner => simpa [operands] using hinner
  | single => simp [operands]

/-! ## complaints -/

/-- What may be wrong with items: there are none, or one of their operators has no operand, or one of
their tokens no place.  A limit on signs is not among it. -/
def Blames (items : List Item) : Flaw → Prop
  | .empty => True
  | .located problem start length => problem.OfOutline ∧
      ∃ t ∈ flatten items, problem.Concerns t.kind ∧ t.start = start ∧ t.text.length = length
  | .tooDeep => False

theorem Blames.mono {a b : List Item} {flaw : Flaw} (h : Blames a flaw)
    (hmem : ∀ t ∈ flatten a, t ∈ flatten b) : Blames b flaw := by
  cases flaw with
  | empty => trivial
  | tooDeep => exact h
  | located problem start length =>
      obtain ⟨hproblem, t, ht, hplace⟩ := h
      exact ⟨hproblem, t, hmem t ht, hplace⟩

/-- An operator without an operand is to blame. -/
theorem blames_of_cut {wanted : Operator → Bool} {items : List Item} {cut : Cut} {flaw : Flaw}
    (hat : Cut.At wanted true items cut) (h : cut.outline = .error flaw) : Blames items flaw := by
  unfold Cut.outline at h
  split at h
  · cases h
    exact ⟨.inl rfl, cut.place, by simp [hat.split], ⟨_, hat.kind⟩, rfl, rfl⟩
  · contradiction

/-- The token after the first one of several items is one of theirs. -/
theorem second_mem (item next : Item) (rest : List Item) :
    item.second?.getD next.first ∈ flatten (item :: next :: rest) := by
  cases item with
  | token t => cases next <;> simp [Item.second?, Item.first]
  | group o inner c =>
      cases inner with
      | nil => simp [Item.second?]
      | cons item inner => cases item <;> simp [Item.second?, Item.first]

/-- What is no operand has no items, or a second token that has no place. -/
theorem blames_of_ofOperand {items : List Item} {flaw : Flaw}
    (h : ofOperand items = .error flaw) : Blames items flaw := by
  have hsecond : ∀ item next rest,
      Blames (item :: next :: rest)
        ((item.second?.getD next.first).flaw .unexpectedToken) :=
    fun item next rest => ⟨.inr rfl, _, second_mem item next rest, trivial, rfl, rfl⟩
  unfold ofOperand at h
  split at h
  · cases h
    trivial
  · contradiction
  · split at h
    · split at h
      · contradiction
      · cases h
        exact hsecond _ _ _
    · cases h
      exact hsecond _ _ _

/-- A look at items blames one of their tokens, if there are any. -/
theorem blames_of_look {items : List Item} {flaw : Flaw}
    (h : look items = .inl (.error flaw)) : Blames items flaw := by
  unfold look at h
  split at h
  · next cut hcut =>
    exact blames_of_cut (Cut.last?_eq_some_iff.mp hcut).1 (Sum.inl.inj h)
  split at h
  · next cut hcut =>
    exact blames_of_cut (Cut.last?_eq_some_iff.mp hcut).1 (Sum.inl.inj h)
  split at h
  · next op sign rest hsign =>
    obtain ⟨rfl, hkind, -⟩ := leadingSign?_eq_some_iff.mp hsign
    split at h
    · cases h
      exact ⟨.inl rfl, sign, by simp, ⟨op, hkind⟩, rfl, rfl⟩
    · split at h <;> cases h
  split at h
  · next cut hcut =>
    exact blames_of_cut (Cut.first?_eq_some_iff.mp hcut).1 (Sum.inl.inj h)
  · exact blames_of_ofOperand (Sum.inl.inj h)

theorem mem_of_mem_unwrap {items : List Item} {t : Token} (h : t ∈ flatten (unwrap items)) :
    t ∈ flatten items := by
  fun_induction unwrap items with
  | case1 o inner c ih => simp [ih h]
  | case2 => exact h

/-- With as many levels as tokens the limit is not reached, and one of the tokens is blamed. -/
theorem blames_of_ofItems {n : Nat} {items : List Item} {flaw : Flaw} (hn : size items < n)
    (h : ofItems n items = .error flaw) : Blames items flaw := by
  induction n generalizing items with
  | zero => omega
  | succ n ih =>
      have hsize := size_unwrap_le items
      rw [ofItems_succ] at h
      cases hlook : look (unwrap items) with
      | inl outcome =>
          rw [hlook] at h
          obtain rfl : outcome = .error flaw := h
          exact (blames_of_look hlook).mono fun t => mem_of_mem_unwrap
      | inr rest =>
          rw [hlook] at h
          obtain ⟨sign, hitems, -⟩ := look_eq_inr_iff.mp hlook
          rw [hitems, size_token_cons] at hsize
          refine (ih (by omega) h).mono fun t ht => mem_of_mem_unwrap ?_
          rw [hitems, flatten_token_cons]
          exact List.mem_cons_of_mem sign ht

theorem ofItems_ne_tooDeep {n : Nat} {items : List Item} (h : size items < n) :
    ofItems n items ≠ .error .tooDeep :=
  blames_of_ofItems h

/-- A limit that is not reached can be raised. -/
theorem ofItems_succ_of_ne {n : Nat} {items : List Item} (h : ofItems n items ≠ .error .tooDeep) :
    ofItems (n + 1) items = ofItems n items := by
  induction n generalizing items with
  | zero => exact absurd rfl h
  | succ n ih =>
      rw [ofItems_succ] at h
      rw [ofItems_succ, ofItems_succ n]
      cases hlook : look (unwrap items) with
      | inl outcome => rfl
      | inr rest =>
          rw [hlook] at h
          exact ih h

/-- Whatever the limit, one of the tokens is blamed if it is not the limit. -/
theorem blames_of_ne_tooDeep {n : Nat} {items : List Item} {flaw : Flaw}
    (h : ofItems n items = .error flaw) (hflaw : flaw ≠ .tooDeep) : Blames items flaw := by
  have hraised : ∀ k, ofItems (n + k) items = .error flaw := by
    intro k
    induction k with
    | zero => exact h
    | succ k ih =>
        have hne : ofItems (n + k) items ≠ .error .tooDeep := by
          rw [ih]
          exact fun hdeep => hflaw (Except.error.inj hdeep)
        exact (ofItems_succ_of_ne hne).trans ih
  exact blames_of_ofItems (n := n + size items + 1) (by omega) (hraised (size items + 1))

end Outline

end GraphCalc
