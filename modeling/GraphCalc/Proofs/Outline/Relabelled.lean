import GraphCalc.Proofs.Outline.Top

/-!
# GraphCalc.Proofs.Outline.Relabelled

Lines of tokens that are told apart by nothing that grouping and outlining look at.

A `Relabelling` gives tokens other texts of the same length and other places, and leaves their kinds
alone.  Everything up to the outline goes along with it, and flaws are found at the new places:

* `groupTokens_relabelled` — the items of the relabelled tokens are the relabelled items;
* `Outline.ofItems_relabelled` — and their outline is the relabelled outline.
-/

namespace GraphCalc

open Item

/-- Other texts of the same length, and other places. -/
structure Relabelling where
  text : List Char → List Char
  place : Nat → Nat
  length_text : ∀ cs, (text cs).length = cs.length

variable (r : Relabelling)

/-! ## relabelled items -/

/-- The token with its new text at its new place. -/
def Token.relabelled (t : Token) : Token := ⟨t.kind, r.text t.text, r.place t.start⟩

mutual

/-- The item with its tokens relabelled. -/
def Item.relabelled : Item → Item
  | .token t => .token (t.relabelled r)
  | .group o inner c => .group (o.relabelled r) (Item.allRelabelled inner) (c.relabelled r)

/-- The items with their tokens relabelled. -/
def Item.allRelabelled : List Item → List Item
  | [] => []
  | item :: items => item.relabelled :: Item.allRelabelled items

end

/-- The flaw at its new place. -/
def Flaw.relabelled : Flaw → Flaw
  | located problem start length => .located problem (r.place start) length
  | empty => .empty
  | tooDeep => .tooDeep

/-- The cut with its tokens relabelled. -/
def Cut.relabelled (cut : Cut) : Cut :=
  ⟨allRelabelled r cut.before, cut.op, cut.place.relabelled r, allRelabelled r cut.after⟩

/-- The outline with its tokens relabelled. -/
def Outline.relabelled : Outline → Outline
  | single t => single (t.relabelled r)
  | call name argument => call (name.relabelled r) (allRelabelled r argument)
  | negation operand => negation (allRelabelled r operand)
  | binary op left right => binary op (allRelabelled r left) (allRelabelled r right)

/-- The outcome of a step with what it found relabelled, or the flaw. -/
def relabelOutcome {α : Type} (f : α → α) : Except Flaw α → Except Flaw α
  | .ok a => .ok (f a)
  | .error flaw => .error (flaw.relabelled r)

@[simp] theorem Token.relabelled_kind (t : Token) : (t.relabelled r).kind = t.kind := rfl

@[simp] theorem Token.flaw_relabelled (t : Token) (problem : Problem) :
    (t.relabelled r).flaw problem = (t.flaw problem).relabelled r := by
  simp [Token.flaw, Token.relabelled, Flaw.relabelled, r.length_text]

namespace Item

@[simp] theorem relabelled_token (t : Token) :
    (token t).relabelled r = token (t.relabelled r) := by
  rw [relabelled]

@[simp] theorem relabelled_group (o c : Token) (inner : List Item) :
    (group o inner c).relabelled r =
      group (o.relabelled r) (allRelabelled r inner) (c.relabelled r) := by
  rw [relabelled]

@[simp] theorem allRelabelled_nil : allRelabelled r [] = [] := by rw [allRelabelled]

@[simp] theorem allRelabelled_cons (item : Item) (items : List Item) :
    allRelabelled r (item :: items) = item.relabelled r :: allRelabelled r items := by
  rw [allRelabelled]

@[simp] theorem first_relabelled (item : Item) :
    (item.relabelled r).first = item.first.relabelled r := by
  cases item <;> simp [first]

@[simp] theorem second?_relabelled (item : Item) :
    (item.relabelled r).second? = item.second?.map (Token.relabelled r) := by
  cases item with
  | token t => simp [second?]
  | group o inner c => cases inner <;> simp [second?]

@[simp] theorem operator?_relabelled (item : Item) :
    (item.relabelled r).operator? = item.operator? := by
  cases item <;> simp [operator?]

@[simp] theorem isOperator_relabelled (item : Item) :
    (item.relabelled r).isOperator = item.isOperator := by
  rw [isOperator, operator?_relabelled, isOperator]

theorem allRelabelled_eq_map (items : List Item) :
    allRelabelled r items = items.map (Item.relabelled r) := by
  induction items with
  | nil => simp
  | cons item items ih => simp [ih]

@[simp] theorem isEmpty_allRelabelled (items : List Item) :
    (allRelabelled r items).isEmpty = items.isEmpty := by
  cases items <;> simp

/-- Relabelling items relabels their tokens. -/
theorem flatten_allRelabelled (items : List Item) :
    flatten (allRelabelled r items) = (flatten items).map (Token.relabelled r) :=
  match items with
  | [] => by simp
  | token t :: items => by simp [flatten_allRelabelled items]
  | group o inner c :: items => by
      simp [flatten_allRelabelled inner, flatten_allRelabelled items]

/-- Relabelled items are as well nested as the items. -/
theorem WellNested.allRelabelled {items : List Item} (h : WellNested items) :
    WellNested (allRelabelled r items) := by
  induction h with
  | nil =>
      rw [allRelabelled_nil]
      exact .nil
  | token ho hc _ ih =>
      rw [allRelabelled_cons, relabelled_token]
      exact .token ho hc ih
  | group ho _ hc _ ihInner ih =>
      rw [allRelabelled_cons, relabelled_group]
      exact .group ho ihInner hc ih

theorem unwrap_allRelabelled (items : List Item) :
    unwrap (allRelabelled r items) = allRelabelled r (unwrap items) := by
  fun_induction unwrap items with
  | case1 o inner c ih => simp [unwrap, ih]
  | case2 items h =>
      refine Outline.unwrap_eq_self fun o inner c heq => ?_
      rw [allRelabelled_eq_map] at heq
      obtain ⟨item, rfl, hitem⟩ := List.map_eq_singleton_iff.mp heq
      cases item with
      | token t => simp at hitem
      | group o inner c => exact h o inner c rfl

/-! ## grouping -/

/-- An open parenthesis and what stood before it, relabelled. -/
def Pending.relabelled (p : Pending) : Pending :=
  ⟨p.opening.relabelled r, allRelabelled r p.before⟩

theorem groupFrom_relabelled (stack : List Pending) (done : List Item) (ts : List Token) :
    groupFrom (stack.map (Pending.relabelled r)) (allRelabelled r done)
        (ts.map (Token.relabelled r)) =
      relabelOutcome r (allRelabelled r) (groupFrom stack done ts) := by
  induction ts generalizing stack done with
  | nil =>
      cases stack with
      | nil => simp [groupFrom, relabelOutcome, allRelabelled_eq_map]
      | cons p stack => simp [groupFrom, relabelOutcome, Pending.relabelled]
  | cons t ts ih =>
      rw [List.map_cons]
      by_cases ho : t.kind = .opening
      · have hstep := ih (⟨t, done⟩ :: stack) []
        rw [List.map_cons, allRelabelled_nil] at hstep
        rw [groupFrom_opening ho, groupFrom_opening (t := t.relabelled r) ho]
        exact hstep
      · by_cases hc : t.kind = .closing
        · cases stack with
          | nil =>
              rw [groupFrom_unmatched hc, List.map_nil,
                groupFrom_unmatched (t := t.relabelled r) hc, Token.flaw_relabelled]
              rfl
          | cons p stack =>
              have hstep := ih stack (group p.opening done.reverse t :: p.before)
              rw [groupFrom_closing hc, List.map_cons,
                groupFrom_closing (t := t.relabelled r) hc, ← hstep]
              simp [Pending.relabelled, allRelabelled_eq_map]
        · have hstep := ih stack (token t :: done)
          rw [allRelabelled_cons, relabelled_token] at hstep
          rw [groupFrom_token ho hc, groupFrom_token (t := t.relabelled r) ho hc, hstep]

/-- The items of relabelled tokens are the relabelled items. -/
theorem groupTokens_relabelled (ts : List Token) :
    groupTokens (ts.map (Token.relabelled r)) =
      relabelOutcome r (allRelabelled r) (groupTokens ts) := by
  have hall := groupFrom_relabelled r [] [] ts
  rwa [List.map_nil, allRelabelled_nil] at hall

end Item

/-! ## cuts -/

namespace Cut

variable (wanted : Operator → Bool)

theorem here?_relabelled (e : Bool) (item : Item) (rest : List Item) :
    here? wanted e (item.relabelled r) (allRelabelled r rest) =
      (here? wanted e item rest).map (Cut.relabelled r) := by
  rw [here?, here?, binaryOperator?, binaryOperator?, operator?_relabelled]
  split
  · split <;> simp [Cut.relabelled]
  · rfl

theorem last?_relabelled (e : Bool) (items : List Item) :
    last? wanted e (allRelabelled r items) =
      (last? wanted e items).map (Cut.relabelled r) := by
  induction items generalizing e with
  | nil => rw [allRelabelled_nil]; rfl
  | cons item items ih =>
      rw [allRelabelled_cons, last?, last?, isOperator_relabelled, ih, here?_relabelled]
      cases last? wanted item.isOperator items with
      | some cut => simp [Cut.relabelled]
      | none => rfl

theorem first?_relabelled (e : Bool) (items : List Item) :
    first? wanted e (allRelabelled r items) =
      (first? wanted e items).map (Cut.relabelled r) := by
  induction items generalizing e with
  | nil => rw [allRelabelled_nil]; rfl
  | cons item items ih =>
      rw [allRelabelled_cons, first?, first?, isOperator_relabelled, ih, here?_relabelled]
      cases here? wanted e item items with
      | some cut => rfl
      | none => cases first? wanted item.isOperator items <;> simp [Cut.relabelled]

end Cut

theorem leadingSign?_relabelled (items : List Item) :
    leadingSign? (allRelabelled r items) = (leadingSign? items).map fun found =>
      (found.1, found.2.1.relabelled r, allRelabelled r found.2.2) := by
  cases items with
  | nil => rw [allRelabelled_nil]; rfl
  | cons item items =>
      rw [allRelabelled_cons]
      simp only [leadingSign?, operator?_relabelled, first_relabelled]
      cases item.operator?.filter Operator.isSign <;> rfl

/-! ## outlines -/

namespace Outline

theorem outline_relabelled (cut : Cut) :
    (cut.relabelled r).outline = relabelOutcome r (Outline.relabelled r) cut.outline := by
  simp only [Cut.outline, Cut.relabelled, isEmpty_allRelabelled]
  split
  · rw [Token.flaw_relabelled]
    rfl
  · rfl

theorem ofOperand_relabelled (items : List Item) :
    ofOperand (allRelabelled r items) =
      relabelOutcome r (Outline.relabelled r) (ofOperand items) := by
  match items with
  | [] => rw [allRelabelled_nil]; rfl
  | [item] => simp [ofOperand, relabelOutcome, Outline.relabelled]
  | token name :: group o argument c :: [] =>
      simp only [allRelabelled_cons, allRelabelled_nil, relabelled_token, relabelled_group,
        ofOperand]
      by_cases hword : name.kind = .word
      · have hrelabelled : (name.relabelled r).kind = .word := hword
        rw [if_pos hword, if_pos hrelabelled]
        rfl
      · have hrelabelled : (name.relabelled r).kind ≠ .word := hword
        rw [if_neg hword, if_neg hrelabelled, first, Token.flaw_relabelled]
        rfl
  | token name :: group o argument c :: third :: rest =>
      simp [ofOperand, relabelOutcome, second?, first]
  | token t :: token u :: rest => simp [ofOperand, relabelOutcome, second?, first]
  | group o inner c :: next :: rest =>
      have hother : ∀ o inner c next rest, ofOperand (group o inner c :: next :: rest) =
          .error (((group o inner c).second?.getD next.first).flaw .unexpectedToken) :=
        fun _ _ _ _ _ => rfl
      rw [allRelabelled_cons, allRelabelled_cons, relabelled_group, hother, hother,
        ← relabelled_group, second?_relabelled, first_relabelled, Option.getD_map,
        Token.flaw_relabelled]
      rfl

/-- The outline of relabelled items is the relabelled outline. -/
theorem ofItems_relabelled (n : Nat) (items : List Item) :
    ofItems n (allRelabelled r items) =
      relabelOutcome r (Outline.relabelled r) (ofItems n items) := by
  induction n generalizing items with
  | zero => rfl
  | succ n ih =>
      have hcut := outline_relabelled r
      rw [ofItems, ofItems, unwrap_allRelabelled, Cut.last?_relabelled, Cut.last?_relabelled,
        leadingSign?_relabelled, Cut.first?_relabelled, ofOperand_relabelled]
      cases Cut.last? Operator.isSign true (unwrap items) with
      | some cut => exact hcut cut
      | none =>
          cases Cut.last? Operator.isFactor true (unwrap items) with
          | some cut => exact hcut cut
          | none =>
              cases leadingSign? (unwrap items) with
              | none =>
                  cases Cut.first? Operator.isPower true (unwrap items) with
                  | some cut => exact hcut cut
                  | none => rfl
              | some found =>
                  obtain ⟨op, sign, rest⟩ := found
                  simp only [Option.map_none, Option.map_some, isEmpty_allRelabelled]
                  by_cases hrest : rest.isEmpty
                  · rw [if_pos hrest, if_pos hrest, Token.flaw_relabelled]
                    rfl
                  · rw [if_neg hrest, if_neg hrest]
                    by_cases hop : op = .sub
                    · rw [if_pos hop, if_pos hop]
                      rfl
                    · rw [if_neg hop, if_neg hop, ih]

end Outline

end GraphCalc
