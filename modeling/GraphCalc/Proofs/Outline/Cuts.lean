import GraphCalc.Proofs.Token.Signs

/-!
# GraphCalc.Proofs.Outline.Cuts

Where items are cut.

`Cut.At wanted expectOperand items cut` says what a place to cut is without saying which one is
taken: an operator of the wanted strength that is no sign.  Searching from the right and searching
from the left find the two ends of the list of these places:

* `last?_eq_some_iff` — a place with no other after it;
* `first?_eq_some_iff` — a place with no other before it;
* `last?_append_eq_none`, `first?_eq_none_iff` — when there is none.
-/

namespace GraphCalc

namespace Item

/-- Only a token is an operator. -/
theorem eq_token_of_operator? {item : Item} {op : Operator} (h : item.operator? = some op) :
    item = token item.first ∧ item.first.kind = .operator op := by
  cases item with
  | group o inner c => simp [operator?] at h
  | token t =>
      refine ⟨rfl, ?_⟩
      show t.kind = _
      simp only [operator?] at h
      split at h
      · next hk => rw [hk, Option.some.inj h]
      · contradiction

theorem operator?_eq_none {t : Token} (h : ∀ op, t.kind ≠ .operator op) :
    (token t).operator? = none := by
  rw [Option.eq_none_iff_forall_ne_some]
  intro op hop
  exact h op (eq_token_of_operator? hop).2

@[simp] theorem operator?_token {t : Token} {op : Operator} (h : t.kind = .operator op) :
    (token t).operator? = some op := by
  simp [operator?, h]

theorem isOperator_token {t : Token} {op : Operator} (h : t.kind = .operator op) :
    (token t).isOperator = true := by
  simp [isOperator, operator?_token h]

theorem binaryOperator?_eq_some_iff {e : Bool} {item : Item} {op : Operator} :
    item.binaryOperator? e = some op ↔ item.operator? = some op ∧ (e && op.isSign) = false := by
  rw [binaryOperator?, Option.filter_eq_some_iff, Bool.not_eq_true']

end Item

open Item

namespace Cut

variable {wanted : Operator → Bool}

/-! ## places -/

/-- A place to cut: an operator of the wanted strength that is no sign, with what stands on either
side. -/
structure At (wanted : Operator → Bool) (e : Bool) (items : List Item) (cut : Cut) : Prop where
  split : items = cut.before ++ token cut.place :: cut.after
  kind : cut.place.kind = .operator cut.op
  wanted : wanted cut.op = true
  noSign : (ofLast isOperator e cut.before && cut.op.isSign) = false

theorem here?_eq_some_iff {e : Bool} {item : Item} {rest : List Item} {cut : Cut} :
    here? wanted e item rest = some cut ↔ At wanted e (item :: rest) cut ∧ cut.before = [] := by
  constructor
  · intro h
    unfold here? at h
    split at h
    · next op hop =>
      split at h
      · next hw =>
        rw [← Option.some.inj h]
        obtain ⟨hop, hsign⟩ := binaryOperator?_eq_some_iff.mp hop
        obtain ⟨hitem, hkind⟩ := eq_token_of_operator? hop
        exact ⟨⟨by rw [List.nil_append, ← hitem], hkind, hw, hsign⟩, rfl⟩
      · contradiction
    · contradiction
  · rintro ⟨⟨hsplit, hkind, hw, hsign⟩, hbefore⟩
    obtain ⟨before, op, place, after⟩ := cut
    dsimp only at hsplit hkind hw hsign hbefore
    subst hbefore
    rw [List.nil_append, List.cons.injEq] at hsplit
    obtain ⟨rfl, rfl⟩ := hsplit
    have hop : (token place).binaryOperator? e = some op :=
      binaryOperator?_eq_some_iff.mpr ⟨operator?_token hkind, hsign⟩
    simp [here?, hop, hw, Item.first]

/-- Whether a place can be cut at does not depend on what comes after it. -/
theorem here?_eq_none_iff {e : Bool} {item : Item} {rest : List Item} :
    here? wanted e item rest = none ↔
      ∀ op, item.binaryOperator? e = some op → wanted op = false := by
  unfold here?
  cases item.binaryOperator? e with
  | none => simp
  | some op => cases hw : wanted op <;> simp [hw]

/-- At a place to cut, the cut is there. -/
theorem At.here? {e : Bool} {items : List Item} {cut : Cut} (h : At wanted e items cut) :
    Cut.here? wanted (ofLast isOperator e cut.before) (token cut.place) cut.after =
      some ⟨[], cut.op, cut.place, cut.after⟩ :=
  here?_eq_some_iff.mpr ⟨⟨rfl, h.kind, h.wanted, h.noSign⟩, rfl⟩

/-! ## the last place -/

theorem last?_append (e : Bool) (a b : List Item) :
    last? wanted e (a ++ b) =
      match last? wanted (ofLast isOperator e a) b with
      | some cut => some ⟨a ++ cut.before, cut.op, cut.place, cut.after⟩
      | none => (last? wanted e a).map fun cut =>
          ⟨cut.before, cut.op, cut.place, cut.after ++ b⟩ := by
  induction a generalizing e with
  | nil => cases h : last? wanted e b <;> simp [h, last?]
  | cons item a ih =>
      rw [List.cons_append, last?, last?, ih, ofLast_cons]
      cases last? wanted (ofLast isOperator item.isOperator a) b with
      | some cut => rfl
      | none =>
          cases last? wanted item.isOperator a with
          | some cut => rfl
          | none =>
              simp only [Option.map_none, here?]
              cases item.binaryOperator? e with
              | none => rfl
              | some op => by_cases hw : wanted op <;> simp [hw]

/-- There is no place in items put together if there is none in either part. -/
theorem last?_append_eq_none {e : Bool} {a b : List Item} :
    last? wanted e (a ++ b) = none ↔
      last? wanted e a = none ∧ last? wanted (ofLast isOperator e a) b = none := by
  rw [last?_append]
  cases last? wanted (ofLast isOperator e a) b with
  | some cut => simp
  | none => simp

/-- There is no place from an operator on if it is of another strength or a sign, and there is none
after it. -/
theorem last?_operator_cons {e : Bool} {t : Token} {op : Operator} {rest : List Item}
    (hk : t.kind = .operator op) :
    last? wanted e (token t :: rest) = none ↔
      last? wanted true rest = none ∧ (wanted op = true → (e && op.isSign) = true) := by
  rw [last?, isOperator_token hk]
  cases last? wanted true rest with
  | some cut => simp
  | none =>
      simp only [here?_eq_none_iff, binaryOperator?_eq_some_iff, operator?_token hk,
        Option.some.injEq, true_and]
      constructor
      · intro h hw
        by_contra hsign
        rw [h op ⟨rfl, by simpa using hsign⟩] at hw
        contradiction
      · rintro h other ⟨rfl, hsign⟩
        by_contra hw
        rw [h (by simpa using hw)] at hsign
        contradiction

/-- Where there is a place to cut, the search finds one. -/
theorem At.last?_ne_none {e : Bool} {items : List Item} {cut : Cut} (h : At wanted e items cut) :
    last? wanted e items ≠ none := by
  intro hnone
  rw [h.split, last?_append_eq_none, last?_operator_cons h.kind] at hnone
  have hsign := hnone.2.2 h.wanted
  rw [h.noSign] at hsign
  contradiction

/-- Without an operator there is no place. -/
theorem last?_eq_none_of_noOperator {e : Bool} {items : List Item}
    (h : ∀ item ∈ items, item.operator? = none) : last? wanted e items = none := by
  induction items generalizing e with
  | nil => rfl
  | cons item items ih =>
      rw [last?, ih fun other hother => h other (by simp [hother])]
      refine here?_eq_none_iff.mpr fun op hop => ?_
      have hsome := (binaryOperator?_eq_some_iff.mp hop).1
      rw [h item (by simp)] at hsome
      contradiction

/-- The search from the right finds the place that has no other after it. -/
theorem last?_eq_some_iff {e : Bool} {items : List Item} {cut : Cut} :
    last? wanted e items = some cut ↔
      At wanted e items cut ∧ last? wanted true cut.after = none := by
  constructor
  · intro h
    induction items generalizing e cut with
    | nil => simp [last?] at h
    | cons item items ih =>
        rw [last?] at h
        split at h
        · next inner hinner =>
          obtain ⟨⟨hsplit, hkind, hw, hsign⟩, hafter⟩ := ih hinner
          rw [← Option.some.inj h]
          exact ⟨⟨by rw [hsplit]; rfl, hkind, hw, by simpa using hsign⟩, hafter⟩
        · next hnone =>
          obtain ⟨hat, hbefore⟩ := here?_eq_some_iff.mp h
          refine ⟨hat, ?_⟩
          have hsplit := hat.split
          rw [hbefore, List.nil_append, List.cons.injEq] at hsplit
          obtain ⟨rfl, rfl⟩ := hsplit
          rwa [isOperator_token hat.kind] at hnone
  · rintro ⟨hat, hafter⟩
    have hhere : last? wanted (ofLast isOperator e cut.before) (token cut.place :: cut.after) =
        some ⟨[], cut.op, cut.place, cut.after⟩ := by
      rw [last?, isOperator_token hat.kind, hafter]
      exact hat.here?
    rw [hat.split, last?_append, hhere]
    simp

/-! ## the first place -/

theorem first?_append (e : Bool) (a b : List Item) :
    first? wanted e (a ++ b) =
      match first? wanted e a with
      | some cut => some ⟨cut.before, cut.op, cut.place, cut.after ++ b⟩
      | none => (first? wanted (ofLast isOperator e a) b).map fun cut =>
          ⟨a ++ cut.before, cut.op, cut.place, cut.after⟩ := by
  induction a generalizing e with
  | nil => cases h : first? wanted e b <;> simp [h, first?]
  | cons item a ih =>
      rw [List.cons_append, first?, first?, ih, ofLast_cons]
      cases hop : item.binaryOperator? e with
      | none =>
          simp only [here?, hop]
          cases first? wanted item.isOperator a with
          | some cut => rfl
          | none => cases first? wanted (ofLast isOperator item.isOperator a) b <;> rfl
      | some op =>
          by_cases hw : wanted op
          · simp [here?, hop, hw]
          · simp only [here?, hop, hw, Bool.false_eq_true, if_false]
            cases first? wanted item.isOperator a with
            | some cut => rfl
            | none => cases first? wanted (ofLast isOperator item.isOperator a) b <;> rfl

/-- The two searches fail together. -/
theorem first?_eq_none_iff {e : Bool} {items : List Item} :
    first? wanted e items = none ↔ last? wanted e items = none := by
  induction items generalizing e with
  | nil => simp [first?, last?]
  | cons item items ih =>
      have ih := ih (e := item.isOperator)
      have hrest : here? wanted e item items = none ∧ first? wanted item.isOperator items = none ↔
          first? wanted e (item :: items) = none := by
        rw [first?]
        cases here? wanted e item items <;> simp
      rw [← hrest, ih, last?]
      cases last? wanted item.isOperator items <;> simp

/-- The search from the left finds the place that has no other before it. -/
theorem first?_eq_some_iff {e : Bool} {items : List Item} {cut : Cut} :
    first? wanted e items = some cut ↔
      At wanted e items cut ∧ last? wanted e cut.before = none := by
  constructor
  · intro h
    induction items generalizing e cut with
    | nil => simp [first?] at h
    | cons item items ih =>
        rw [first?] at h
        split at h
        · next hit hhere =>
          obtain ⟨hat, hbefore⟩ := here?_eq_some_iff.mp hhere
          rw [← Option.some.inj h, hbefore]
          exact ⟨hat, rfl⟩
        · next hmiss =>
          obtain ⟨inner, hinner, rfl⟩ := Option.map_eq_some_iff.mp h
          obtain ⟨⟨hsplit, hkind, hw, hsign⟩, hbefore⟩ := ih hinner
          refine ⟨⟨by rw [hsplit]; rfl, hkind, hw, by simpa using hsign⟩, ?_⟩
          rw [last?, hbefore]
          exact here?_eq_none_iff.mpr (here?_eq_none_iff.mp hmiss)
  · rintro ⟨hat, hbefore⟩
    have hhere : first? wanted (ofLast isOperator e cut.before) (token cut.place :: cut.after) =
        some ⟨[], cut.op, cut.place, cut.after⟩ := by
      rw [first?, hat.here?]
    rw [hat.split, first?_append, first?_eq_none_iff.mpr hbefore, hhere]
    simp

end Cut

end GraphCalc
