import GraphCalc.Proofs.Expr.Limit
import GraphCalc.Proofs.Grammar.Basic
import GraphCalc.Proofs.Token.Signs

/-!
# GraphCalc.Proofs.Grammar.Reading

Reading algebraic notation is deriving it from the grammar.

`Reads phrase items e` collects what an induction over derivations needs to know of the items of a
phrase: that they are well nested, that an operand ends them, which strengths of operators have no
place in them at the top, and that their outline stands for `e`.

* `Derives.reads` — the tokens of a derivation are items that read as it;
* `derives_of_ofItems` — items that are read have a derivation;
* `ofAlgebraic_iff_derives` — a line is read as the expression that its tokens derive, and refused
  where they derive none.
-/

namespace GraphCalc

open Item

/-! ## what phrases read as -/

/-- How strongly a phrase binds. -/
def Phrase.rank : Phrase → Nat
  | expr => 0
  | term => 1
  | factor => 2
  | power => 3
  | primary => 4

/-- Items of a phrase, and how they are read.  A level is used up by every node of the expression
and by every sign `+`. -/
structure Reads (phrase : Phrase) (items : List Item) (e : Expr Float) : Prop where
  nested : WellNested items
  closed : ofLast isOperator true items = false
  noSum : 1 ≤ phrase.rank → Cut.last? Operator.isSign true items = none
  noProduct : 2 ≤ phrase.rank → Cut.last? Operator.isFactor true items = none
  noSign : 3 ≤ phrase.rank → leadingSign? items = none
  noPower : 4 ≤ phrase.rank → Cut.last? Operator.isPower true items = none
  top : ∃ outline, Outline.Top items outline ∧ ∀ line n,
    e.depth + Token.signs .add true (flatten items) ≤ n + 1 → Expr.ofOutline line n outline = .ok e

theorem Expr.depth_pos {α : Type} (e : Expr α) : 0 < e.depth := by
  cases e with
  | var | const => exact Nat.one_pos
  | binary | call => exact Nat.succ_pos _

namespace Reads

variable {phrase : Phrase} {items : List Item} {e : Expr Float}

theorem ne_nil (h : Reads phrase items e) : items ≠ [] := by
  rintro rfl
  have hclosed := h.closed
  simp at hclosed

/-- Items that read as an expression are read, given enough levels. -/
theorem ofItems_eq (h : Reads phrase items e) {line : List Char} {window : Window} {levels : Nat}
    (hlevels : e.depth + Token.signs .add true (flatten items) ≤ levels) :
    Expr.ofItems line levels window items = .ok e := by
  obtain ⟨outline, htop, hmeans⟩ := h.top
  have hdepth := e.depth_pos
  obtain ⟨n, rfl⟩ := Nat.exists_eq_succ_of_ne_zero (n := levels) (by omega)
  rw [Expr.ofItems_of_outline (htop.ofItems_eq h.nested (by omega))]
  exact hmeans line n hlevels

/-- A phrase is also one of every weaker kind. -/
theorem weaken (h : Reads phrase items e) {weaker : Phrase} (hrank : weaker.rank ≤ phrase.rank) :
    Reads weaker items e where
  nested := h.nested
  closed := h.closed
  noSum := fun hr => h.noSum (hr.trans hrank)
  noProduct := fun hr => h.noProduct (hr.trans hrank)
  noSign := fun hr => h.noSign (hr.trans hrank)
  noPower := fun hr => h.noPower (hr.trans hrank)
  top := h.top

end Reads

/-! ## the rules, read -/

section

variable {a b : List Item} {l r e : Expr Float} {t : Token} {op : Operator}

/-- The signs of both operands count, and a binary operator is no sign. -/
theorem signs_binary (ha : WellNested a) (hclosed : ofLast isOperator true a = false)
    (hk : t.kind = .operator op) :
    Token.signs .add true (flatten (a ++ token t :: b)) =
      Token.signs .add true (flatten a) + Token.signs .add true (flatten b) := by
  rw [flatten_append, flatten_token_cons, Token.signs_append, Token.ofLast_flatten ha, hclosed,
    Token.signs, Token.expectsOperand_of_operator hk]
  simp

theorem wellNested_operator (ha : WellNested a) (hb : WellNested b) (hk : t.kind = .operator op) :
    WellNested (a ++ token t :: b) :=
  wellNested_append.mpr ⟨ha, .token (by simp [hk]) (by simp [hk]) hb⟩

/-- There is no place to cut around an operator if there is none on either side and it is of another
strength. -/
theorem last?_binary_eq_none {wanted : Operator → Bool} (hk : t.kind = .operator op)
    (hw : wanted op = false) (ha : Cut.last? wanted true a = none)
    (hb : Cut.last? wanted true b = none) : Cut.last? wanted true (a ++ token t :: b) = none := by
  refine Cut.last?_append_eq_none.mpr ⟨ha, (Cut.last?_operator_cons hk).mpr ⟨hb, fun h => ?_⟩⟩
  rw [hw] at h
  contradiction

/-- Operands that are read on either side of an operator. -/
theorem ofOutline_binary {p q : Phrase} (ha : Reads p a l) (hb : Reads q b r)
    (hk : t.kind = .operator op) (line : List Char) (n : Nat)
    (hn : (Expr.binary op l r).depth +
      Token.signs .add true (flatten (a ++ token t :: b)) ≤ n + 1) :
    Expr.ofOutline line n (.binary op a b) = .ok (.binary op l r) := by
  rw [signs_binary ha.nested ha.closed hk, Expr.depth] at hn
  simp only [Expr.ofOutline]
  rw [ha.ofItems_eq (by omega), hb.ofItems_eq (by omega)]
  rfl

theorem Reads.sum (ha : Reads .expr a l) (hk : t.kind = .operator op) (hop : op.isSign = true)
    (hb : Reads .term b r) : Reads .expr (a ++ token t :: b) (.binary op l r) where
  nested := wellNested_operator ha.nested hb.nested hk
  closed := by simp [isOperator_token hk, hb.closed]
  noSum := by simp [Phrase.rank]
  noProduct := by simp [Phrase.rank]
  noSign := by simp [Phrase.rank]
  noPower := by simp [Phrase.rank]
  top := by
    have hat : Cut.At Operator.isSign true (a ++ token t :: b) ⟨a, op, t, b⟩ :=
      ⟨rfl, hk, hop, by simp [ha.closed]⟩
    exact ⟨_, .sum hat (hb.noSum (by decide)) ha.ne_nil hb.ne_nil, ofOutline_binary ha hb hk⟩

theorem Reads.product (ha : Reads .term a l) (hk : t.kind = .operator op)
    (hop : op.isFactor = true) (hb : Reads .factor b r) :
    Reads .term (a ++ token t :: b) (.binary op l r) where
  nested := wellNested_operator ha.nested hb.nested hk
  closed := by simp [isOperator_token hk, hb.closed]
  noSum := by
    have hsign : op.isSign = false := by cases op <;> simp_all [Operator.isFactor, Operator.isSign]
    exact fun _ => last?_binary_eq_none hk hsign (ha.noSum (by decide)) (hb.noSum (by decide))
  noProduct := by simp [Phrase.rank]
  noSign := by simp [Phrase.rank]
  noPower := by simp [Phrase.rank]
  top := by
    have hsign : op.isSign = false := by cases op <;> simp_all [Operator.isFactor, Operator.isSign]
    have hat : Cut.At Operator.isFactor true (a ++ token t :: b) ⟨a, op, t, b⟩ :=
      ⟨rfl, hk, hop, by simp [ha.closed]⟩
    have hsum : Cut.last? Operator.isSign true (a ++ token t :: b) = none :=
      last?_binary_eq_none hk hsign (ha.noSum (by decide)) (hb.noSum (by decide))
    exact ⟨_, .product hsum hat (hb.noProduct (by decide)) ha.ne_nil hb.ne_nil,
      ofOutline_binary ha hb hk⟩

/-- A sign in front adds no place to cut. -/
theorem last?_sign_cons {wanted : Operator → Bool} (hk : t.kind = .operator op)
    (hop : op.isSign = true) (hb : Cut.last? wanted true b = none) :
    Cut.last? wanted true (token t :: b) = none :=
  (Cut.last?_operator_cons hk).mpr ⟨hb, fun _ => by simp [hop]⟩

theorem Reads.positive (hk : t.kind = .operator .add) (hb : Reads .factor b e) :
    Reads .factor (token t :: b) e where
  nested := wellNested_operator .nil hb.nested hk
  closed := by simp [isOperator_token hk, hb.closed]
  noSum := fun _ => last?_sign_cons hk rfl (hb.noSum (by decide))
  noProduct := fun _ => last?_sign_cons hk rfl (hb.noProduct (by decide))
  noSign := by simp [Phrase.rank]
  noPower := by simp [Phrase.rank]
  top := by
    obtain ⟨outline, htop, hmeans⟩ := hb.top
    refine ⟨outline, .positive (last?_sign_cons hk rfl (hb.noSum (by decide)))
      (last?_sign_cons hk rfl (hb.noProduct (by decide))) hk hb.ne_nil htop, fun line n hn => ?_⟩
    rw [flatten_token_cons, Token.signs, Token.expectsOperand_of_operator hk] at hn
    exact hmeans line n (by omega)

theorem Reads.negative (hk : t.kind = .operator .sub) (hb : Reads .factor b e) :
    Reads .factor (token t :: b) (.binary .sub (.num 0) e) where
  nested := wellNested_operator .nil hb.nested hk
  closed := by simp [isOperator_token hk, hb.closed]
  noSum := fun _ => last?_sign_cons hk rfl (hb.noSum (by decide))
  noProduct := fun _ => last?_sign_cons hk rfl (hb.noProduct (by decide))
  noSign := by simp [Phrase.rank]
  noPower := by simp [Phrase.rank]
  top := by
    refine ⟨_, .negative (last?_sign_cons hk rfl (hb.noSum (by decide)))
      (last?_sign_cons hk rfl (hb.noProduct (by decide))) hk hb.ne_nil, fun line n hn => ?_⟩
    rw [flatten_token_cons, Token.signs, Token.expectsOperand_of_operator hk, Expr.depth] at hn
    simp only [Expr.ofOutline]
    rw [hb.ofItems_eq (by omega)]
    rfl

theorem leadingSign?_append (ha : a ≠ []) (b : List Item) :
    leadingSign? (a ++ b) = none ↔ leadingSign? a = none := by
  cases a with
  | nil => exact absurd rfl ha
  | cons item a => simp [leadingSign?]

theorem Reads.power (ha : Reads .primary a l) (hk : t.kind = .operator .pow)
    (hb : Reads .factor b r) : Reads .power (a ++ token t :: b) (.binary .pow l r) where
  nested := wellNested_operator ha.nested hb.nested hk
  closed := by simp [isOperator_token hk, hb.closed]
  noSum := fun _ => last?_binary_eq_none hk rfl (ha.noSum (by decide)) (hb.noSum (by decide))
  noProduct := fun _ =>
    last?_binary_eq_none hk rfl (ha.noProduct (by decide)) (hb.noProduct (by decide))
  noSign := fun _ => (leadingSign?_append ha.ne_nil _).mpr (ha.noSign (by decide))
  noPower := by simp [Phrase.rank]
  top := by
    have hat : Cut.At Operator.isPower true (a ++ token t :: b) ⟨a, .pow, t, b⟩ :=
      ⟨rfl, hk, rfl, by simp [Operator.isSign]⟩
    have hsum : Cut.last? Operator.isSign true (a ++ token t :: b) = none :=
      last?_binary_eq_none hk rfl (ha.noSum (by decide)) (hb.noSum (by decide))
    have hproduct : Cut.last? Operator.isFactor true (a ++ token t :: b) = none :=
      last?_binary_eq_none hk rfl (ha.noProduct (by decide)) (hb.noProduct (by decide))
    exact ⟨_, .power hsum hproduct ((leadingSign?_append ha.ne_nil _).mpr (ha.noSign (by decide)))
      hat (ha.noPower (by decide)) ha.ne_nil hb.ne_nil, ofOutline_binary ha hb hk⟩

end

/-- Items without an operator are a primary phrase, whatever they stand for. -/
theorem reads_primary {items : List Item} {e : Expr Float} {outline : Outline}
    (hnested : WellNested items) (hne : items ≠ [])
    (hoperator : ∀ item ∈ items, item.operator? = none) (htop : Outline.Top items outline)
    (hmeans : ∀ line n, e.depth + Token.signs .add true (flatten items) ≤ n + 1 →
      Expr.ofOutline line n outline = .ok e) : Reads .primary items e where
  nested := hnested
  closed := by
    cases h : items.getLast? with
    | none => exact absurd (List.getLast?_eq_none_iff.mp h) hne
    | some last => simp [ofLast, h, isOperator, hoperator last (List.mem_of_getLast? h)]
  noSum := fun _ => Cut.last?_eq_none_of_noOperator hoperator
  noProduct := fun _ => Cut.last?_eq_none_of_noOperator hoperator
  noSign := fun _ => by
    cases items with
    | nil => rfl
    | cons item items => simp [leadingSign?, hoperator item (by simp)]
  noPower := fun _ => Cut.last?_eq_none_of_noOperator hoperator
  top := ⟨outline, htop, hmeans⟩

section

variable {o c name : Token} {inner : List Item} {e : Expr Float}

theorem Reads.parentheses (ho : o.kind = .opening) (h : Reads .expr inner e)
    (hc : c.kind = .closing) : Reads .primary [group o inner c] e := by
  obtain ⟨outline, htop, hmeans⟩ := h.top
  have hnested : WellNested [group o inner c] := .group ho h.nested hc .nil
  refine reads_primary hnested (by simp) (by simp [operator?]) (.parentheses htop)
    fun line n hn => hmeans line n ?_
  have hsigns := Outline.signs_inner_le hnested
  omega

/-- A token that stands for an expression by itself. -/
theorem reads_single {t : Token} (ho : t.kind ≠ .opening) (hc : t.kind ≠ .closing)
    (hoperator : ∀ op, t.kind ≠ .operator op) (h : Expr.ofToken t = .ok e) :
    Reads .primary [token t] e :=
  reads_primary (.token ho hc .nil) (by simp) (by simpa using operator?_eq_none hoperator)
    (.single hoperator) fun _ _ _ => h

/-- A word before a group is called, and the group's signs are the argument's. -/
theorem reads_call {name : Token} (hword : name.kind = .word) (ho : o.kind = .opening)
    (hinner : WellNested inner) (hc : c.kind = .closing)
    (hmeans : ∀ line n, e.depth + Token.signs .add true (flatten inner) ≤ n + 1 →
      Expr.ofOutline line n (.call name inner) = .ok e) :
    Reads .primary [token name, group o inner c] e := by
  have hnested : WellNested [token name, group o inner c] :=
    .token (by simp [hword]) (by simp [hword]) (.group ho hinner hc .nil)
  refine reads_primary hnested (by simp) (by simp [operator?, hword]) (.call hword)
    fun line n hn => hmeans line n ?_
  rw [flatten_token_cons, flatten_group_cons, Token.signs, Token.signs,
    Token.expectsOperand_of_opening ho, Token.signs_append] at hn
  omega

end

/-! ## derivations are read -/

/-- The name of a function is not the variable's. -/
theorem not_isVariable_of_isWord {t : Token} {fn : Elementary} (h : t.isWord fn.name) :
    Expr.isVariable t.text = false := by
  rw [← Bool.not_eq_true, isVariable_iff, h.2]
  cases fn <;> decide

/-- The tokens of a derivation are items that read as it. -/
theorem Derives.reads {phrase : Phrase} {ts : List Token} {e : Expr Float}
    (h : Derives phrase ts e) : ∃ items, flatten items = ts ∧ Reads phrase items e := by
  induction h with
  | @sum _ _ _ _ t _ _ hk hop _ ihLeft ihRight =>
      obtain ⟨a, rfl, ha⟩ := ihLeft
      obtain ⟨b, rfl, hb⟩ := ihRight
      exact ⟨a ++ token t :: b, by simp, ha.sum hk hop hb⟩
  | @product _ _ _ _ t _ _ hk hop _ ihLeft ihRight =>
      obtain ⟨a, rfl, ha⟩ := ihLeft
      obtain ⟨b, rfl, hb⟩ := ihRight
      exact ⟨a ++ token t :: b, by simp, ha.product hk hop hb⟩
  | @power _ _ _ _ t _ hk _ ihBase ihExponent =>
      obtain ⟨a, rfl, ha⟩ := ihBase
      obtain ⟨b, rfl, hb⟩ := ihExponent
      exact ⟨a ++ token t :: b, by simp, ha.power hk hb⟩
  | @positive t _ _ hk _ ih =>
      obtain ⟨b, rfl, hb⟩ := ih
      exact ⟨token t :: b, by simp, .positive hk hb⟩
  | @negative t _ _ hk _ ih =>
      obtain ⟨b, rfl, hb⟩ := ih
      exact ⟨token t :: b, by simp, .negative hk hb⟩
  | ofTerm _ ih | ofFactor _ ih | ofPower _ ih | ofPrimary _ ih =>
      obtain ⟨items, hflat, hitems⟩ := ih
      exact ⟨items, hflat, hitems.weaken (by decide)⟩
  | @parentheses o c _ _ ho _ hc ih =>
      obtain ⟨inner, rfl, hinner⟩ := ih
      exact ⟨[group o inner c], by simp, hinner.parentheses ho hc⟩
  | @number t _ _ hk hplain =>
      exact ⟨[token t], by simp, reads_single (by simp [hk]) (by simp [hk]) (by simp [hk])
        (ofToken_number hplain)⟩
  | @x t hword =>
      exact ⟨[token t], by simp, reads_single (by simp [hword.1]) (by simp [hword.1])
        (by simp [hword.1]) (ofToken_variable hword)⟩
  | @call name o c _ e fn hword ho _ hc ih =>
      obtain ⟨inner, rfl, hinner⟩ := ih
      refine ⟨[token name, group o inner c], by simp,
        reads_call hword.1 ho hinner.nested hc fun line n hn => ?_⟩
      rw [Expr.depth] at hn
      simp only [Expr.ofOutline, not_isVariable_of_isWord hword, callee_eq_ok_iff.mpr hword.2]
      rw [if_neg Bool.false_ne_true]
      simp only [bind, Except.bind]
      rw [hinner.ofItems_eq (by omega)]
      rfl
  | @applied name o c _ hword ho hunread hc =>
      obtain ⟨inner, hinner, rfl⟩ := balanced_iff.mp hunread
      refine ⟨[token name, group o inner c], by simp,
        reads_call hword.1 ho hinner hc fun line n _ => ?_⟩
      simp only [Expr.ofOutline, isVariable_iff.mpr hword.2]
      rfl

/-! ## stronger phrases -/

section

variable {items : List Item} {e : Expr Float}

/-- Items with no place for a sum are a term if they are an expression. -/
theorem Derives.toTerm (hnested : WellNested items) (h : Derives .expr (flatten items) e)
    (hsum : Cut.last? Operator.isSign true items = none) : Derives .term (flatten items) e := by
  generalize hts : flatten items = ts at h
  cases h with
  | ofTerm hterm => exact hterm
  | @sum a b l r t op hleft hk hop hright =>
      obtain ⟨ia, rfl, ha⟩ := hleft.reads
      obtain ⟨ib, rfl, hb⟩ := hright.reads
      have hitems : items = ia ++ token t :: ib :=
        flatten_injective hnested (wellNested_operator ha.nested hb.nested hk) (by simp [hts])
      have hat : Cut.At Operator.isSign true items ⟨ia, op, t, ib⟩ :=
        ⟨hitems, hk, hop, by simp [ha.closed]⟩
      exact absurd hsum hat.last?_ne_none

/-- Items with no place for a product are a factor if they are a term. -/
theorem Derives.toFactor (hnested : WellNested items) (h : Derives .term (flatten items) e)
    (hproduct : Cut.last? Operator.isFactor true items = none) :
    Derives .factor (flatten items) e := by
  generalize hts : flatten items = ts at h
  cases h with
  | ofFactor hfactor => exact hfactor
  | @product a b l r t op hleft hk hop hright =>
      obtain ⟨ia, rfl, ha⟩ := hleft.reads
      obtain ⟨ib, rfl, hb⟩ := hright.reads
      have hitems : items = ia ++ token t :: ib :=
        flatten_injective hnested (wellNested_operator ha.nested hb.nested hk) (by simp [hts])
      have hat : Cut.At Operator.isFactor true items ⟨ia, op, t, ib⟩ :=
        ⟨hitems, hk, hop, by simp [ha.closed]⟩
      exact absurd hproduct hat.last?_ne_none

/-- Items without a sign in front are a power if they are a factor. -/
theorem Derives.toPower (hnested : WellNested items) (h : Derives .factor (flatten items) e)
    (hsign : leadingSign? items = none) : Derives .power (flatten items) e := by
  have hfront : ∀ {t ts op}, flatten items = t :: ts → t.kind = .operator op →
      op.isSign = false := by
    intro t ts op hts hk
    cases hnested with
    | nil => simp at hts
    | token =>
        rw [flatten_token_cons, List.cons.injEq] at hts
        rw [← Bool.not_eq_true]
        intro hop
        rw [leadingSign?_eq_some_iff.mpr ⟨rfl, hts.1 ▸ hk, hop⟩] at hsign
        contradiction
    | group ho =>
        rw [flatten_group_cons, List.cons.injEq] at hts
        rw [← hts.1, ho] at hk
        contradiction
  generalize hts : flatten items = ts at h
  cases h with
  | ofPower hpower => exact hpower
  | positive hk => exact absurd (hfront hts hk) (by decide)
  | negative hk => exact absurd (hfront hts hk) (by decide)

/-- Items with no place for a power are a primary phrase if they are a power. -/
theorem Derives.toPrimary (hnested : WellNested items) (h : Derives .power (flatten items) e)
    (hpower : Cut.last? Operator.isPower true items = none) :
    Derives .primary (flatten items) e := by
  generalize hts : flatten items = ts at h
  cases h with
  | ofPrimary hprimary => exact hprimary
  | @power a b l r t hbase hk hexponent =>
      obtain ⟨ia, rfl, ha⟩ := hbase.reads
      obtain ⟨ib, rfl, hb⟩ := hexponent.reads
      have hitems : items = ia ++ token t :: ib :=
        flatten_injective hnested (wellNested_operator ha.nested hb.nested hk) (by simp [hts])
      have hat : Cut.At Operator.isPower true items ⟨ia, .pow, t, ib⟩ :=
        ⟨hitems, hk, rfl, by simp [Operator.isSign]⟩
      exact absurd hpower hat.last?_ne_none

end

/-! ## what is read has a derivation -/

/-- Items as they come from a line: well nested, and of tokens that a line can spell. -/
structure Scanned (items : List Item) : Prop where
  nested : WellNested items
  formed : ∀ t ∈ flatten items, Token.Formed t.kind t.text

namespace Scanned

variable {a b inner : List Item} {t o c : Token}

theorem split (h : Scanned (a ++ token t :: b)) : Scanned a ∧ Scanned b := by
  obtain ⟨ha, hb⟩ := wellNested_append.mp h.nested
  cases hb with
  | token _ _ hb =>
      refine ⟨⟨ha, fun u hu => ?_⟩, ⟨hb, fun u hu => ?_⟩⟩
      · exact h.formed u (by simp [hu])
      · exact h.formed u (by simp [hu])

theorem rest (h : Scanned (token t :: b)) : Scanned b := (split (a := []) h).2

theorem inside (h : Scanned [group o inner c]) : Scanned inner := by
  cases h.nested with
  | group _ hinner => exact ⟨hinner, fun u hu => h.formed u (by simp [hu])⟩

end Scanned

/-- The expression that an outline stands for if its operands stand for what they derive. -/
def Outline.Means : Outline → Expr Float → Prop
  | .single t, e => Expr.ofToken t = .ok e
  | .call name argument, e =>
    (Expr.isVariable name.text = true ∧ e = .var) ∨
      ∃ fn a, Expr.callee name.text = .ok fn ∧ Derives .expr (flatten argument) a ∧ e = .call fn a
  | .negation operand, e =>
    ∃ u, Derives .expr (flatten operand) u ∧ e = .binary .sub (.num 0) u
  | .binary op left right, e =>
    ∃ l r, Derives .expr (flatten left) l ∧ Derives .expr (flatten right) r ∧ e = .binary op l r

/-- A phrase of a stronger kind is an expression. -/
theorem Derives.toExpr {ts : List Token} {e : Expr Float} (h : Derives .factor ts e) :
    Derives .expr ts e := .ofTerm (.ofFactor h)

theorem Derives.ofPrimary' {ts : List Token} {e : Expr Float} (h : Derives .primary ts e) :
    Derives .expr ts e := (Derives.ofPower (.ofPrimary h)).toExpr

/-- Items derive what their outline means. -/
theorem Outline.Top.derives {items : List Item} {outline : Outline} {e : Expr Float}
    (h : Top items outline) (hitems : Scanned items) (hmeans : outline.Means e) :
    Derives .expr (flatten items) e := by
  induction h with
  | parentheses _ ih =>
      have hinside := ih hitems.inside hmeans
      cases hitems.nested with
      | group ho _ hc =>
          rw [flatten_group_cons, flatten_nil]
          exact .ofPrimary' (.parentheses ho hinside hc)
  | @sum items cut hat hlast =>
      obtain ⟨l, r, hl, hr, rfl⟩ := hmeans
      rw [hat.split] at hitems
      obtain ⟨-, hafter⟩ := hitems.split
      rw [hat.split, flatten_append, flatten_token_cons]
      exact .sum hl hat.kind hat.wanted (hr.toTerm hafter.nested hlast)
  | @product items cut hsum hat hlast =>
      obtain ⟨l, r, hl, hr, rfl⟩ := hmeans
      rw [hat.split] at hitems hsum
      obtain ⟨hbefore, hafter⟩ := hitems.split
      obtain ⟨hsumBefore, hsumAfter⟩ := Cut.last?_append_eq_none.mp hsum
      have hsumAfter := ((Cut.last?_operator_cons hat.kind).mp hsumAfter).1
      rw [hat.split, flatten_append, flatten_token_cons]
      exact .ofTerm (.product (hl.toTerm hbefore.nested hsumBefore) hat.kind hat.wanted
        ((hr.toTerm hafter.nested hsumAfter).toFactor hafter.nested hlast))
  | negative hsum hproduct hk =>
      obtain ⟨u, hu, rfl⟩ := hmeans
      have hrest := hitems.rest.nested
      have hsum := ((Cut.last?_operator_cons hk).mp hsum).1
      have hproduct := ((Cut.last?_operator_cons hk).mp hproduct).1
      rw [flatten_token_cons]
      exact (Derives.negative hk ((hu.toTerm hrest hsum).toFactor hrest hproduct)).toExpr
  | positive hsum hproduct hk _ _ ih =>
      have hrest := hitems.rest.nested
      have hsum := ((Cut.last?_operator_cons hk).mp hsum).1
      have hproduct := ((Cut.last?_operator_cons hk).mp hproduct).1
      have hu := ih hitems.rest hmeans
      rw [flatten_token_cons]
      exact (Derives.positive hk ((hu.toTerm hrest hsum).toFactor hrest hproduct)).toExpr
  | @power items cut hsum hproduct hsign hat hfirst hleft =>
      obtain ⟨l, r, hl, hr, rfl⟩ := hmeans
      rw [hat.split] at hitems hsum hproduct hsign
      obtain ⟨hbefore, hafter⟩ := hitems.split
      obtain ⟨hsumBefore, hsumAfter⟩ := Cut.last?_append_eq_none.mp hsum
      obtain ⟨hproductBefore, hproductAfter⟩ := Cut.last?_append_eq_none.mp hproduct
      have hsumAfter := ((Cut.last?_operator_cons hat.kind).mp hsumAfter).1
      have hproductAfter := ((Cut.last?_operator_cons hat.kind).mp hproductAfter).1
      have hsign := (leadingSign?_append hleft _).mp hsign
      have hop : cut.op = .pow := by
        have hwanted := hat.wanted
        cases hcut : cut.op <;> simp_all [Operator.isPower]
      have hbase := ((hl.toTerm hbefore.nested hsumBefore).toFactor hbefore.nested
        hproductBefore).toPower hbefore.nested hsign
      rw [hat.split, flatten_append, flatten_token_cons, hop]
      exact (Derives.ofPower (.power (hbase.toPrimary hbefore.nested hfirst) (hop ▸ hat.kind)
        ((hr.toTerm hafter.nested hsumAfter).toFactor hafter.nested hproductAfter))).toExpr
  | @call name o c argument hword =>
      have hnested := hitems.rest.nested
      cases hnested with
      | group ho hinner hc =>
          rw [flatten_token_cons, flatten_group_cons, flatten_nil]
          rcases hmeans with ⟨hvar, rfl⟩ | ⟨fn, a, hcallee, ha, rfl⟩
          · exact .ofPrimary' (.applied ⟨hword, isVariable_iff.mp hvar⟩ ho
              (balanced_iff.mpr ⟨argument, hinner, rfl⟩) hc)
          · exact .ofPrimary' (.call ⟨hword, callee_eq_ok_iff.mp hcallee⟩ ho ha hc)
  | @single t hoperator =>
      have hformed := hitems.formed t (by simp)
      cases hitems.nested with
      | token ho hc =>
          rw [flatten_token_cons, flatten_nil]
          exact .ofPrimary' (derives_of_ofToken hformed hoperator ho hc hmeans)

/-- The operands of items from a line are items from a line. -/
theorem Outline.Top.scanned_operand {items : List Item} {outline : Outline} (h : Top items outline)
    (hitems : Scanned items) : ∀ operand ∈ outline.operands, Scanned operand := by
  intro operand hoperand
  have hsublist := h.infix_operand operand hoperand
  exact ⟨h.wellNested_operand hitems.nested operand hoperand,
    fun t ht => hitems.formed t (hsublist.subset ht)⟩

/-- What is read from items has a derivation. -/
theorem derives_of_ofItems {line : List Char} {levels : Nat} {window : Window} {items : List Item}
    {e : Expr Float} (hitems : Scanned items)
    (h : Expr.ofItems line levels window items = .ok e) : Derives .expr (flatten items) e := by
  induction levels generalizing window items e with
  | zero => contradiction
  | succ levels ih =>
      rw [Expr.ofItems_succ] at h
      cases hfound : Outline.ofItems (levels + 1) items with
      | error flaw =>
          rw [hfound] at h
          contradiction
      | ok outline =>
          rw [hfound] at h
          have htop := Outline.top_of_ofItems hfound
          have hoperand := htop.scanned_operand hitems
          refine htop.derives hitems ?_
          cases outline with
          | single t => exact h
          | call name argument =>
              simp only [Expr.ofOutline] at h
              split at h
              · next hvar => exact .inl ⟨hvar, (Except.ok.inj h).symm⟩
              · obtain ⟨fn, hcallee, h⟩ := bind_eq_ok.mp h
                obtain ⟨a, ha, h⟩ := bind_eq_ok.mp h
                exact .inr ⟨fn, a, hcallee, ih (hoperand argument (by simp [Outline.operands])) ha,
                  (Except.ok.inj h).symm⟩
          | negation operand =>
              obtain ⟨u, hu, h⟩ := bind_eq_ok.mp h
              exact ⟨u, ih (hoperand operand (by simp [Outline.operands])) hu,
                (Except.ok.inj h).symm⟩
          | binary op left right =>
              obtain ⟨l, hl, h⟩ := bind_eq_ok.mp h
              obtain ⟨r, hr, h⟩ := bind_eq_ok.mp h
              exact ⟨l, r, ih (hoperand left (by simp [Outline.operands])) hl,
                ih (hoperand right (by simp [Outline.operands])) hr, (Except.ok.inj h).symm⟩

/-! ## whole lines -/

/-- Parentheses are no signs, and their inside starts afresh. -/
theorem signs_parentheses {o c : Token} (ho : o.kind = .opening) (hc : c.kind = .closing)
    (e : Bool) (ts : List Token) :
    Token.signs .add e (o :: (ts ++ [c])) = Token.signs .add true ts := by
  rw [Token.signs, Token.expectsOperand_of_opening ho, Token.signs_append]
  simp [Token.signs, ho, hc]

/-- Every node and every sign of an expression takes a token. -/
theorem Derives.levels_le {phrase : Phrase} {ts : List Token} {e : Expr Float}
    (h : Derives phrase ts e) : e.depth + Token.signs .add true ts ≤ ts.length := by
  have hbinary : ∀ {p a b l r t op}, Derives p a l → t.kind = .operator op →
      l.depth + Token.signs .add true a ≤ a.length →
      r.depth + Token.signs .add true b ≤ b.length →
      (Expr.binary op l r).depth + Token.signs .add true (a ++ t :: b) ≤ (a ++ t :: b).length := by
    intro p a b l r t op hl hk hleft hright
    obtain ⟨items, rfl, ha⟩ := hl.reads
    rw [Token.signs_append, Token.ofLast_flatten ha.nested, ha.closed, Token.signs,
      Token.expectsOperand_of_operator hk, Expr.depth, List.length_append, List.length_cons]
    simp only [Bool.false_and, Bool.false_eq_true, if_false]
    omega
  induction h with
  | sum hl hk _ _ ihLeft ihRight => exact hbinary hl hk ihLeft ihRight
  | product hl hk _ _ ihLeft ihRight => exact hbinary hl hk ihLeft ihRight
  | power hl hk _ ihBase ihExponent => exact hbinary hl hk ihBase ihExponent
  | ofTerm _ ih | ofFactor _ ih | ofPower _ ih | ofPrimary _ ih => exact ih
  | @positive t _ _ hk _ ih =>
      rw [Token.signs, Token.expectsOperand_of_operator hk, List.length_cons]
      split <;> omega
  | @negative t _ e hk _ ih =>
      have hpos := e.depth_pos
      rw [Token.signs, Token.expectsOperand_of_operator hk, hk, Expr.num, Expr.depth, Expr.depth,
        List.length_cons]
      simp only [Bool.true_and, beq_iff_eq, Token.Kind.operator.injEq, reduceCtorEq, if_false]
      omega
  | parentheses ho _ hc ih =>
      rw [signs_parentheses ho hc, List.length_cons, List.length_append]
      omega
  | number hk => simp [Token.signs, hk, Expr.depth]
  | x hword => simp [Token.signs, hword.1, Expr.depth]
  | @call name _ _ _ _ _ hword ho _ hc ih =>
      rw [Token.signs, signs_parentheses ho hc, hword.1, Expr.depth, List.length_cons,
        List.length_cons, List.length_append]
      simp only [Bool.true_and, beq_iff_eq, reduceCtorEq, if_false]
      omega
  | @applied name _ _ ts hword ho _ hc =>
      have hle := Token.signs_le_length .add true ts
      rw [Token.signs, signs_parentheses ho hc, hword.1, Expr.depth, List.length_cons,
        List.length_cons, List.length_append]
      simp only [Bool.true_and, beq_iff_eq, reduceCtorEq, if_false]
      omega

theorem scanned_of_ofLine {line : List Char} {items : List Item}
    (h : Item.ofLine line = .ok items) : Scanned items := by
  obtain ⟨hnested, hscan⟩ := ofLine_eq_ok_iff.mp h
  exact ⟨hnested, (Token.scanFrom_eq_ok_iff.mp hscan).formed⟩

/-- A line has no more tokens than characters. -/
theorem size_le_of_ofLine {line : List Char} {items : List Item}
    (h : Item.ofLine line = .ok items) : size items ≤ line.length :=
  (Token.scanFrom_eq_ok_iff.mp (ofLine_eq_ok_iff.mp h).2).length_le

/-- The limit is not reached by a line with fewer characters than levels. -/
theorem ofAlgebraic_ne_tooDeep {levels : Nat} {line : List Char} (h : line.length < levels) :
    Expr.ofAlgebraic levels line ≠ .error .tooDeep := by
  unfold Expr.ofAlgebraic
  split
  · next flaw hflaw =>
    intro hdeep
    rw [Except.error.injEq, Expr.refusal_eq_tooDeep_iff] at hdeep
    exact Expr.ofLine_ne_tooDeep line (hdeep ▸ hflaw)
  · next items hitems =>
    have hsize := size_le_of_ofLine hitems
    exact Expr.ofItems_ne_tooDeep (by omega)

/-- What a line is read as, its tokens derive. -/
theorem derives_of_ofAlgebraic {levels : Nat} {line : List Char} {e : Expr Float}
    (h : Expr.ofAlgebraic levels line = .ok e) :
    ∃ ts, Token.scan line = .ok ts ∧ Derives .expr ts e := by
  unfold Expr.ofAlgebraic at h
  split at h
  · contradiction
  · next items hitems =>
    exact ⟨flatten items, (ofLine_eq_ok_iff.mp hitems).2,
      derives_of_ofItems (scanned_of_ofLine hitems) h⟩

/-- A line is read as what its tokens derive, given enough levels. -/
theorem Derives.ofAlgebraic_eq {levels : Nat} {line : List Char} {ts : List Token}
    {e : Expr Float} (h : Derives .expr ts e) (hscan : Token.scan line = .ok ts)
    (hlevels : e.depth + Token.signs .add true ts ≤ levels) :
    Expr.ofAlgebraic levels line = .ok e := by
  obtain ⟨items, rfl, hitems⟩ := h.reads
  rw [Expr.ofAlgebraic, ofLine_eq_ok_iff.mpr ⟨hitems.nested, hscan⟩]
  exact hitems.ofItems_eq hlevels

/-- A line is read as the expression that its tokens derive, and refused where they derive none. -/
theorem ofAlgebraic_iff_derives {levels : Nat} {line : List Char} (hlevels : line.length < levels) :
    (∀ e, Expr.ofAlgebraic levels line = .ok e ↔
      ∃ ts, Token.scan line = .ok ts ∧ Derives .expr ts e) ∧
    ((¬∃ ts e, Token.scan line = .ok ts ∧ Derives .expr ts e) →
      ∃ refusal, Expr.ofAlgebraic levels line = .error refusal ∧ refusal ≠ .tooDeep) := by
  refine ⟨fun e => ⟨derives_of_ofAlgebraic, ?_⟩, fun hnone => ?_⟩
  · rintro ⟨ts, hscan, hderives⟩
    have htokens := (Token.scanFrom_eq_ok_iff.mp hscan).length_le
    have huse := hderives.levels_le
    exact hderives.ofAlgebraic_eq hscan (by omega)
  · cases h : Expr.ofAlgebraic levels line with
    | error refusal =>
        refine ⟨refusal, rfl, ?_⟩
        rintro rfl
        exact ofAlgebraic_ne_tooDeep hlevels h
    | ok e =>
        obtain ⟨ts, hscan, hderives⟩ := derives_of_ofAlgebraic h
        exact absurd ⟨ts, e, hscan, hderives⟩ hnone

/-- A sign in front of a power is taken of the power. -/
theorem ofAlgebraic_negative_power :
    ['-', 'x', '^', 'x'].length < 5 ∧ Expr.ofAlgebraic 5 ['-', 'x', '^', 'x'] =
      .ok (.binary .sub (.num 0) (.binary .pow .var .var)) := by
  have hlevels : ['-', 'x', '^', 'x'].length < 5 := by decide
  have hformed : Token.Formed .word ['x'] := .word (by decide) (by decide) (by simp)
  have hstops : ∀ c ∈ ['^', 'x'].head?, Token.Kind.word.extends c = false := by
    intro c hc
    cases hc
    decide
  have hspells : Token.Spells 0 ['-', 'x', '^', 'x'] [⟨.operator .sub, ['-'], 0⟩,
      ⟨.word, ['x'], 1⟩, ⟨.operator .pow, ['^'], 2⟩, ⟨.word, ['x'], 3⟩] :=
    .token (.single rfl) (fun _ _ => rfl) (.token hformed hstops
      (.token (.single rfl) (fun _ _ => rfl) (.token hformed (by simp) .nil)))
  have hscan := Token.scanFrom_eq_ok_iff.mpr hspells
  have hlower : Text.lower ['x'] = ['x'] := by decide
  have hword : ∀ n, Token.isWord ⟨.word, ['x'], n⟩ ['x'] := fun n => ⟨rfl, hlower⟩
  have hpower := Derives.power (.x (hword 1)) (t := ⟨.operator .pow, ['^'], 2⟩) rfl
    (.ofPower (.ofPrimary (.x (hword 3))))
  have hderives := (Derives.negative (t := ⟨.operator .sub, ['-'], 0⟩) rfl
    (.ofPower hpower)).toExpr
  exact ⟨hlevels, ((ofAlgebraic_iff_derives hlevels).1 _).mpr ⟨_, hscan, hderives⟩⟩

end GraphCalc
