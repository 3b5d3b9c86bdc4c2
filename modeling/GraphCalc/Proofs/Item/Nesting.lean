import GraphCalc.Item
import GraphCalc.Proofs.Outcome

/-!
# GraphCalc.Proofs.Item.Nesting

Lines of tokens and the items they are grouped into.

`WellNested` items have parentheses around their groups and nowhere else; `Balanced` says the same
of a line of tokens.  Grouping undoes flattening and the other way round:

* `groupTokens_eq_ok_iff` — the items of a line are the well-nested items that flatten to it;
* `flatten_injective` — so no line has two such readings;
* `beforeOutline_of_ofLine` — a line without one is refused for a token or a parenthesis;
* `balanced_iff` — and the lines that have one are the balanced ones.
-/

namespace GraphCalc

/-- A problem of an outline.  Every other problem is one of a line's tokens or parentheses. -/
def Problem.OfOutline (problem : Problem) : Prop :=
  problem = .missingOperand ∨ problem = .unexpectedToken

/-- A problem of tokens is one of a token of that kind. -/
def Problem.Concerns : Problem → Token.Kind → Prop
  | unmatchedOpening, kind => kind = .opening
  | unmatchedClosing, kind => kind = .closing
  | missingOperand, kind => ∃ op, kind = .operator op
  | unexpectedToken, _ => True
  | _, _ => False

/-- The flaw has a place, and its problem is none of an outline. -/
def Flaw.BeforeOutline : Flaw → Prop
  | located problem _ _ => ¬problem.OfOutline
  | empty | tooDeep => False

end GraphCalc

namespace GraphCalc.Item

/-! ## flattening -/

@[simp] theorem flatten_nil : flatten [] = [] := by rw [flatten]

@[simp] theorem flatten_token_cons (t : Token) (rest : List Item) :
    flatten (token t :: rest) = t :: flatten rest := by
  rw [flatten, tokens]
  rfl

@[simp] theorem flatten_group_cons (o c : Token) (inner rest : List Item) :
    flatten (group o inner c :: rest) = o :: (flatten inner ++ c :: flatten rest) := by
  rw [flatten, tokens]
  simp

@[simp] theorem flatten_append (a b : List Item) : flatten (a ++ b) = flatten a ++ flatten b := by
  induction a with
  | nil => simp
  | cons item a ih => rw [List.cons_append, flatten, flatten, ih, List.append_assoc]

theorem ne_nil_of_mem_flatten {items : List Item} {t : Token} (h : t ∈ flatten items) :
    items ≠ [] := by
  rintro rfl
  simp at h

/-- The first of the tokens is that of the first item. -/
theorem head?_flatten (items : List Item) : (flatten items).head? = items.head?.map first := by
  cases items with
  | nil => simp
  | cons item items => cases item <;> simp [first]

/-- The last of the tokens is that of the last item. -/
theorem getLast?_flatten (items : List Item) :
    (flatten items).getLast? = items.getLast?.map last := by
  induction items with
  | nil => simp
  | cons item items ih =>
      cases items with
      | nil => cases item <;> simp [last, List.getLast?_cons]
      | cons next rest =>
          rw [flatten, List.getLast?_append, ih, List.getLast?_cons_cons, List.getLast?_cons]
          rfl

/-- Items cover the line from their first token to their last. -/
theorem window_eq (items : List Item) : window items =
    match (flatten items).head?, (flatten items).getLast? with
    | some a, some b => ⟨a.start, b.stop⟩
    | _, _ => ⟨0, 0⟩ := by
  rw [window, head?_flatten, getLast?_flatten]
  cases items.head? <;> cases items.getLast? <;> rfl

/-! ## nesting -/

/-- Parentheses stand around groups, and nowhere else. -/
inductive WellNested : List Item → Prop
  | nil : WellNested []
  | token {t : Token} {rest : List Item} (notOpening : t.kind ≠ .opening)
      (notClosing : t.kind ≠ .closing) (after : WellNested rest) : WellNested (.token t :: rest)
  | group {o c : Token} {inner rest : List Item} (opening : o.kind = .opening)
      (inside : WellNested inner) (closing : c.kind = .closing) (after : WellNested rest) :
      WellNested (.group o inner c :: rest)

theorem wellNested_append {a b : List Item} :
    WellNested (a ++ b) ↔ WellNested a ∧ WellNested b := by
  constructor
  · intro h
    induction a with
    | nil => exact ⟨.nil, h⟩
    | cons item a ih =>
        cases h with
        | token ho hc hrest => exact ⟨.token ho hc (ih hrest).1, (ih hrest).2⟩
        | group ho hinner hc hrest => exact ⟨.group ho hinner hc (ih hrest).1, (ih hrest).2⟩
  · rintro ⟨ha, hb⟩
    induction ha with
    | nil => exact hb
    | token ho hc _ ih => exact .token ho hc ih
    | group ho hinner hc _ _ ih => exact .group ho hinner hc ih

theorem wellNested_reverse {items : List Item} (h : WellNested items) :
    WellNested items.reverse := by
  induction h with
  | nil => exact .nil
  | token ho hc _ ih =>
      rw [List.reverse_cons]
      exact wellNested_append.mpr ⟨ih, .token ho hc .nil⟩
  | group ho hinner hc _ _ ih =>
      rw [List.reverse_cons]
      exact wellNested_append.mpr ⟨ih, .group ho hinner hc .nil⟩

/-! ## one token at a time -/

section

variable {stack : List Pending} {done : List Item} {t : Token} {ts : List Token}

theorem groupFrom_opening (h : t.kind = .opening) :
    groupFrom stack done (t :: ts) = groupFrom (⟨t, done⟩ :: stack) [] ts := by
  cases stack <;> simp [groupFrom, h]

theorem groupFrom_closing (h : t.kind = .closing) (p : Pending) :
    groupFrom (p :: stack) done (t :: ts) =
      groupFrom stack (group p.opening done.reverse t :: p.before) ts := by
  simp [groupFrom, h]

theorem groupFrom_unmatched (h : t.kind = .closing) :
    groupFrom [] done (t :: ts) = .error (t.flaw .unmatchedClosing) := by
  simp [groupFrom, h]

theorem groupFrom_token (ho : t.kind ≠ .opening) (hc : t.kind ≠ .closing) :
    groupFrom stack done (t :: ts) = groupFrom stack (token t :: done) ts := by
  cases stack <;> cases hk : t.kind <;> simp_all [groupFrom]

end

/-! ## grouping what was flattened -/

/-- Reading the tokens of items puts these items behind those already read. -/
theorem groupFrom_flatten {items : List Item} (h : WellNested items) (stack : List Pending)
    (done : List Item) (ts : List Token) :
    groupFrom stack done (flatten items ++ ts) = groupFrom stack (items.reverse ++ done) ts := by
  induction h generalizing stack done ts with
  | nil => rfl
  | token ho hc _ ih =>
      rw [flatten_token_cons, List.cons_append, groupFrom_token ho hc, ih]
      simp
  | @group o c inner rest ho _ hc _ ihInner ihRest =>
      have happend : flatten (group o inner c :: rest) ++ ts =
          o :: (flatten inner ++ (c :: (flatten rest ++ ts))) := by simp
      rw [happend, groupFrom_opening ho, ihInner, List.append_nil, groupFrom_closing hc, ihRest]
      simp

/-- Well-nested items are the items of their tokens. -/
theorem groupTokens_flatten {items : List Item} (h : WellNested items) :
    groupTokens (flatten items) = .ok items := by
  have hgroup := groupFrom_flatten h [] [] []
  rw [List.append_nil, List.append_nil] at hgroup
  rw [groupTokens, hgroup]
  simp [groupFrom]

/-- A line of tokens has one reading as items at most. -/
theorem flatten_injective {a b : List Item} (ha : WellNested a) (hb : WellNested b)
    (h : flatten a = flatten b) : a = b := by
  have hgroup := groupTokens_flatten ha
  rw [h, groupTokens_flatten hb, Except.ok.injEq] at hgroup
  exact hgroup.symm

/-! ## flattening what was grouped -/

/-- The tokens already read, when some parentheses are open. -/
def pendingTokens : List Pending → List Item → List Token
  | [], done => flatten done.reverse
  | p :: stack, done => pendingTokens stack p.before ++ p.opening :: flatten done.reverse

/-- Open parentheses are parentheses, and what stood before each is well nested. -/
def PendingNested (stack : List Pending) (done : List Item) : Prop :=
  WellNested done ∧ ∀ p ∈ stack, p.opening.kind = .opening ∧ WellNested p.before

theorem pendingTokens_cons (stack : List Pending) (item : Item) (done : List Item) :
    pendingTokens stack (item :: done) = pendingTokens stack done ++ item.tokens := by
  have h : flatten [item] = item.tokens := by simp [flatten]
  cases stack with
  | nil => simp [pendingTokens, h]
  | cons p stack => simp [pendingTokens, h]

/-- Grouping loses no token, and nests well. -/
theorem wellNested_of_groupFrom {stack : List Pending} {done items : List Item} {ts : List Token}
    (hpending : PendingNested stack done) (h : groupFrom stack done ts = .ok items) :
    WellNested items ∧ flatten items = pendingTokens stack done ++ ts := by
  induction ts generalizing stack done with
  | nil =>
      cases stack with
      | nil =>
          rw [groupFrom, Except.ok.injEq] at h
          subst h
          exact ⟨wellNested_reverse hpending.1, by simp [pendingTokens]⟩
      | cons p stack => simp [groupFrom] at h
  | cons t ts ih =>
      obtain ⟨hdone, hstack⟩ := hpending
      by_cases ho : t.kind = .opening
      · rw [groupFrom_opening ho] at h
        obtain ⟨hnested, hflat⟩ := ih ⟨.nil, by simpa [ho, hdone] using hstack⟩ h
        exact ⟨hnested, by simpa [pendingTokens] using hflat⟩
      · by_cases hc : t.kind = .closing
        · cases stack with
          | nil =>
              rw [groupFrom_unmatched hc] at h
              contradiction
          | cons p stack =>
              obtain ⟨hp, hbefore⟩ := hstack p (by simp)
              have hgroup : WellNested (group p.opening done.reverse t :: p.before) :=
                .group hp (wellNested_reverse hdone) hc hbefore
              rw [groupFrom_closing hc] at h
              obtain ⟨hnested, hflat⟩ := ih ⟨hgroup, fun q hq => hstack q (by simp [hq])⟩ h
              rw [pendingTokens_cons, tokens] at hflat
              exact ⟨hnested, by simpa [pendingTokens] using hflat⟩
        · rw [groupFrom_token ho hc] at h
          obtain ⟨hnested, hflat⟩ := ih ⟨.token ho hc hdone, hstack⟩ h
          rw [pendingTokens_cons, tokens] at hflat
          exact ⟨hnested, by simpa using hflat⟩

/-- The items of a line of tokens are the well-nested items that flatten to it. -/
theorem groupTokens_eq_ok_iff {ts : List Token} {items : List Item} :
    groupTokens ts = .ok items ↔ WellNested items ∧ flatten items = ts := by
  constructor
  · intro h
    have hgroup := wellNested_of_groupFrom ⟨.nil, by simp⟩ h
    simpa [pendingTokens] using hgroup
  · rintro ⟨hnested, rfl⟩
    exact groupTokens_flatten hnested

/-- The items of a line are well nested, and made of its tokens. -/
theorem ofLine_eq_ok_iff {line : List Char} {items : List Item} :
    ofLine line = .ok items ↔ WellNested items ∧ Token.scan line = .ok (flatten items) := by
  unfold ofLine
  rw [bind_eq_ok]
  constructor
  · rintro ⟨ts, hscan, hgroup⟩
    obtain ⟨hnested, rfl⟩ := groupTokens_eq_ok_iff.mp hgroup
    exact ⟨hnested, hscan⟩
  · rintro ⟨hnested, hscan⟩
    exact ⟨flatten items, hscan, groupTokens_flatten hnested⟩

/-! ## flaws of a line -/

theorem beforeOutline_of_numberFlaw? {run : List Char} {start : Nat} {flaw : Flaw}
    (h : Token.numberFlaw? run start = some flaw) : flaw.BeforeOutline := by
  unfold Token.numberFlaw? at h
  split at h
  · cases h
    simp [Flaw.BeforeOutline, Problem.OfOutline]
  · split at h
    · cases h
      simp [Flaw.BeforeOutline, Problem.OfOutline]
    · contradiction

theorem beforeOutline_of_scanFrom {start : Nat} {cs : List Char} {flaw : Flaw}
    (h : Token.scanFrom start cs = .error flaw) : flaw.BeforeOutline := by
  fun_induction Token.scanFrom start cs
  case case1 => contradiction
  case case2 ih => exact ih h
  case case3 hflaw =>
      cases h
      exact beforeOutline_of_numberFlaw? hflaw
  case case4 ih | case5 ih | case6 ih =>
      rcases bind_eq_error.mp h with h | ⟨ts, -, h⟩
      · exact ih h
      · contradiction
  case case7 =>
      cases h
      simp [Flaw.BeforeOutline, Problem.OfOutline]

theorem beforeOutline_of_groupFrom {stack : List Pending} {done : List Item} {ts : List Token}
    {flaw : Flaw} (h : groupFrom stack done ts = .error flaw) : flaw.BeforeOutline := by
  induction ts generalizing stack done with
  | nil =>
      cases stack with
      | nil => contradiction
      | cons p stack =>
          cases h
          simp [Token.flaw, Flaw.BeforeOutline, Problem.OfOutline]
  | cons t ts ih =>
      by_cases ho : t.kind = .opening
      · rw [groupFrom_opening ho] at h
        exact ih h
      · by_cases hc : t.kind = .closing
        · cases stack with
          | nil =>
              rw [groupFrom_unmatched hc] at h
              cases h
              simp [Token.flaw, Flaw.BeforeOutline, Problem.OfOutline]
          | cons p stack =>
              rw [groupFrom_closing hc] at h
              exact ih h
        · rw [groupFrom_token ho hc] at h
          exact ih h

/-- Where a line has no items, one of its tokens or parentheses is to blame. -/
theorem beforeOutline_of_ofLine {line : List Char} {flaw : Flaw} (h : ofLine line = .error flaw) :
    flaw.BeforeOutline := by
  rcases bind_eq_error.mp h with hscan | ⟨ts, -, hgroup⟩
  · exact beforeOutline_of_scanFrom hscan
  · exact beforeOutline_of_groupFrom hgroup

/-! ## balance -/

/-- A line of tokens in which every parenthesis has a partner. -/
inductive Balanced : List Token → Prop
  | nil : Balanced []
  | token {t : Token} {ts : List Token} (notOpening : t.kind ≠ .opening)
      (notClosing : t.kind ≠ .closing) (after : Balanced ts) : Balanced (t :: ts)
  | parentheses {o c : Token} {inner ts : List Token} (opening : o.kind = .opening)
      (inside : Balanced inner) (closing : c.kind = .closing) (after : Balanced ts) :
      Balanced (o :: (inner ++ c :: ts))

/-- The balanced lines are those that items flatten to. -/
theorem balanced_iff {ts : List Token} :
    Balanced ts ↔ ∃ items, WellNested items ∧ flatten items = ts := by
  constructor
  · intro h
    induction h with
    | nil => exact ⟨[], .nil, flatten_nil⟩
    | @token t _ ho hc _ ih =>
        obtain ⟨items, hnested, rfl⟩ := ih
        exact ⟨token t :: items, .token ho hc hnested, flatten_token_cons t items⟩
    | @parentheses o c _ _ ho _ hc _ ihInner ihRest =>
        obtain ⟨inner, hinner, rfl⟩ := ihInner
        obtain ⟨rest, hrest, rfl⟩ := ihRest
        exact ⟨group o inner c :: rest, .group ho hinner hc hrest,
          flatten_group_cons o c inner rest⟩
  · rintro ⟨items, hnested, rfl⟩
    induction hnested with
    | nil => exact .nil
    | token ho hc _ ih => exact .token ho hc ih
    | group ho _ hc _ ihInner ihRest =>
        rw [flatten_group_cons]
        exact .parentheses ho ihInner hc ihRest

end GraphCalc.Item
