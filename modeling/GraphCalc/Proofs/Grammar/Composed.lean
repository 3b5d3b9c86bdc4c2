import GraphCalc.Proofs.Expr.Moved
import GraphCalc.Proofs.Grammar.Rendered

/-!
# GraphCalc.Proofs.Grammar.Composed

Texts put together from texts that are read.

A text that is read may have signs in front, parentheses around it and blanks anywhere.  Its
parentheses are paired among themselves, so with two more around it the text is one group of any
longer line, and what is in the group is read as the text was by itself.

* `exists_readIn` — a text that is read, in its place in a longer line;
* `ReadIn.group`, `ReadIn.operation`, `ReadIn.call` — what is put together from parts that are read;
* `ofAlgebraic_composed` — more parentheses change nothing, and an operator between two texts in
  parentheses or a function's name before one makes a node of what these are read as.
-/

namespace GraphCalc

open Item Token

/-! ## further to the right -/

/-- The token, `d` characters further to the right. -/
def Token.raised (d : Nat) (t : Token) : Token := { t with start := t.start + d }

theorem Token.moved_raised (d : Nat) (t : Token) : (t.raised d).moved d = t := by
  simp [Token.moved, Token.raised]

/-- A text spells the same tokens further to the right. -/
theorem Token.Spells.raised {n : Nat} {cs : List Char} {ts : List Token} (h : Spells n cs ts)
    (d : Nat) : Spells (n + d) cs (ts.map (Token.raised d)) := by
  induction h with
  | nil => exact .nil
  | blank hblank _ ih =>
      rw [Nat.add_right_comm] at ih
      exact .blank hblank ih
  | token hformed hstops _ ih =>
      rw [Nat.add_right_comm] at ih
      exact .token hformed hstops ih

theorem Item.Balanced.raised {ts : List Token} (h : Balanced ts) (d : Nat) :
    Balanced (ts.map (Token.raised d)) := by
  induction h with
  | nil => exact .nil
  | token ho hc _ ih => exact .token ho hc ih
  | parentheses ho _ hc _ ihInner ih =>
      rw [List.map_cons, List.map_append, List.map_cons]
      exact .parentheses ho ihInner hc ih

/-- The items of a line can be found anywhere further to the right. -/
theorem exists_raised {line : List Char} {items : List Item} (h : Item.ofLine line = .ok items)
    (d : Nat) : ∃ there, WellNested there ∧ Spells d line (flatten there) ∧
      allMoved d there = items := by
  obtain ⟨hnested, hscan⟩ := ofLine_eq_ok_iff.mp h
  have hspells := (scanFrom_eq_ok_iff.mp hscan).raised d
  rw [Nat.zero_add] at hspells
  have hbalanced : Balanced (flatten items) := balanced_iff.mpr ⟨items, hnested, rfl⟩
  obtain ⟨there, hthere, hflat⟩ := balanced_iff.mp (hbalanced.raised d)
  refine ⟨there, hthere, hflat ▸ hspells, flatten_injective (hthere.allMoved d) hnested ?_⟩
  have hback : Token.moved d ∘ Token.raised d = id := funext (Token.moved_raised d)
  rw [flatten_allMoved, hflat, List.map_map, hback, List.map_id]

/-! ## read in a line -/

/-- The items of a line are read as the expression, with the given number of levels or more. -/
def ReadIn (line : List Char) (n : Nat) (items : List Item) (e : Expr Float) : Prop :=
  ∀ window levels, n ≤ levels → Expr.ofItems line levels window items = .ok e

section

variable {line : List Char} {n m : Nat} {items inner : List Item} {e : Expr Float}

/-- What is read does not depend on the window, which only complaints show. -/
theorem readIn_of_ofItems {window : Window} (h : Expr.ofItems line n window items = .ok e) :
    ReadIn line n items e := by
  intro other levels hle
  have hother : Expr.ofItems line n other items = .ok e := by
    cases n with
    | zero => contradiction
    | succ n =>
        rw [Expr.ofItems_succ] at h ⊢
        cases houtline : Outline.ofItems (n + 1) items with
        | error flaw =>
            rw [houtline] at h
            contradiction
        | ok outline =>
            rw [houtline] at h
            exact h
  rw [← hother]
  exact Expr.ofItems_of_le (by simp [hother]) hle

/-- A text that is read has items in every longer line, and there they are read as it was. -/
theorem exists_readIn {text : List Char} (h : Expr.ofAlgebraic n text = .ok e)
    (front back : List Char) : ∃ items, WellNested items ∧
      Spells front.length text (flatten items) ∧ ReadIn (front ++ text ++ back) n items e := by
  unfold Expr.ofAlgebraic at h
  split at h
  · contradiction
  next items hitems =>
  obtain ⟨there, hnested, hspells, hmoved⟩ := exists_raised hitems front.length
  refine ⟨there, hnested, hspells, ?_⟩
  -- seen from its own start, the text is the line that was read
  let place : Window := ⟨front.length, front.length + text.length⟩
  have hplace : place.Within front.length (front.length + text.length) :=
    ⟨Nat.le_refl _, Nat.le_add_right _ _, Nat.le_refl _⟩
  have hmovedPlace : place.moved front.length = ⟨0, text.length⟩ := by
    simp [place, Window.moved]
  have htext : Window.text ⟨front.length, front.length + text.length⟩ (front ++ text ++ back) =
      text := by
    rw [List.append_assoc, Window.text, List.take_length_add_append, List.drop_left, List.take_left]
  have hread := @Expr.ofItems_moved _ _ (front ++ text ++ back) n _ _ hplace
    hspells.within
  rw [htext, hmoved, hmovedPlace, h] at hread
  exact readIn_of_ofItems hread.symm

/-! ## put together -/

/-- Parentheses are looked through. -/
theorem ReadIn.group (h : ReadIn line n inner e) (o c : Token) :
    ReadIn line n [.group o inner c] e := by
  intro window levels hle
  rw [← h window levels hle]
  cases levels with
  | zero => rfl
  | succ levels =>
      rw [Expr.ofItems_succ, Expr.ofItems_succ, Outline.ofItems_succ, Outline.ofItems_succ, unwrap]

section

variable {t o c o' c' : Token} {left right : List Item}

/-- Between two groups there is one place to cut, whatever is in them. -/
theorem ofItems_operation {op : Operator} (hk : t.kind = .operator op) :
    Outline.ofItems (n + 1) [.group o left c, .token t, .group o' right c'] =
      .ok (.binary op [.group o left c] [.group o' right c']) := by
  obtain ⟨kind, text, start⟩ := t
  dsimp only at hk
  subst hk
  rw [Outline.ofItems_succ, Outline.unwrap_eq_self (by simp)]
  cases op <;> rfl

/-- An operator between two groups is read as the operation on what is in them. -/
theorem ReadIn.operation {op : Operator} {l r : Expr Float} (hl : ReadIn line n left l)
    (hk : t.kind = .operator op) (hr : ReadIn line m right r) :
    ReadIn line (max n m + 1) [.group o left c, .token t, .group o' right c']
      (.binary op l r) := by
  intro window levels hle
  obtain ⟨levels, rfl⟩ := Nat.exists_eq_succ_of_ne_zero (n := levels) (by omega)
  have hleft := hl.group o c (Item.window [.group o left c]) levels (by omega)
  have hright := hr.group o' c' (Item.window [.group o' right c']) levels (by omega)
  rw [Expr.ofItems_of_outline (ofItems_operation hk), Expr.ofOutline, hleft, hright]
  rfl

/-- A function's name before a group is read as the function of what is in it. -/
theorem ReadIn.call {fn : Elementary} (hword : t.isWord fn.name) (h : ReadIn line n inner e) :
    ReadIn line (n + 1) [.token t, .group o inner c] (.call fn e) := by
  intro window levels hle
  obtain ⟨levels, rfl⟩ := Nat.exists_eq_succ_of_ne_zero (n := levels) (by omega)
  have hcall : Outline.ofItems (levels + 1) [.token t, .group o inner c] = .ok (.call t inner) := by
    obtain ⟨kind, text, start⟩ := t
    obtain ⟨hkind, -⟩ := hword
    dsimp only at hkind
    subst hkind
    rw [Outline.ofItems_succ, Outline.unwrap_eq_self (by simp)]
    rfl
  have hargument := h (Item.window inner) levels (by omega)
  rw [Expr.ofItems_of_outline hcall, Expr.ofOutline, not_isVariable_of_isWord hword,
    callee_eq_ok_iff.mpr hword.2, hargument]
  rfl

end

/-- Items that are read are what the line is read as, if they are all its items. -/
theorem ReadIn.ofAlgebraic_eq (h : ReadIn line n items e) (hnested : WellNested items)
    (hspells : Spells 0 line (flatten items)) {levels : Nat} (hle : n ≤ levels) :
    Expr.ofAlgebraic levels line = .ok e := by
  rw [Expr.ofAlgebraic, ofLine_eq_ok_iff.mpr ⟨hnested, scanFrom_eq_ok_iff.mpr hspells⟩]
  exact h _ levels hle

end

/-! ## texts put together -/

/-- A token of one character ends every token. -/
theorem extends_eq_false_of_single? {c : Char} {single : Kind} (h : single? c = some single)
    (kind : Kind) : kind.extends c = false := by
  have hclasses : inNumber c = false ∧ Text.continuesWord c = false := by
    unfold single? at h
    split at h
    · decide
    · decide
    · obtain ⟨op, hop, -⟩ := Option.map_eq_some_iff.mp h
      rw [← Operator.symbol_of_ofSymbol? hop]
      cases op <;> decide
  cases kind with
  | number => exact hclasses.1
  | word => exact hclasses.2
  | opening | closing | operator => rfl

/-- A character that is lowered to a plain letter is no character of a number. -/
theorem not_inNumber_of_isPlain_toLower {c : Char} (h : Text.isPlain c.toLower = true) :
    inNumber c = false := by
  by_cases hc : c.toNat < 128
  · revert h
    exact Text.forall_ascii (P := fun c => Text.isPlain c.toLower = true → inNumber c = false)
      (by decide +kernel) hc
  · rw [Text.toLower_eq_self (by omega), Text.not_isPlain_of_lt (by omega)] at h
    contradiction

/-- A function's name, in any case, is a word. -/
theorem formed_of_name {name : List Char} {fn : Elementary}
    (h : name.map Char.toLower = fn.name) : Formed .word name := by
  have hplain : ∀ c ∈ name, Text.isPlain c.toLower = true := fun c hc =>
    isPlain_name fn _ (h ▸ List.mem_map_of_mem hc)
  have hstarts : ∀ c ∈ name, Text.startsWord c = true := fun c hc => by
    rw [Text.startsWord, Text.isLetter_of_isPlain_toLower (hplain c hc), Bool.true_or]
  cases name with
  | nil => cases fn <;> cases h
  | cons c cs =>
      exact .word (hstarts c (by simp)) (not_inNumber_of_isPlain_toLower (hplain c (by simp)))
        fun d hd => Text.continuesWord_of_startsWord (hstarts d (by simp [hd]))

/-- The text in the given number of pairs of parentheses. -/
def inParentheses : Nat → List Char → List Char
  | 0, text => text
  | k + 1, text => '(' :: (inParentheses k text ++ [')'])

section

variable {n m : Nat} {a b : List Char} {u v : Expr Float}

/-- In parentheses a text that is read is one group of its line. -/
theorem exists_group (h : Expr.ofAlgebraic n a = .ok u) (front back : List Char) :
    ∃ o inner c, WellNested [.group o inner c] ∧
      Spells front.length ('(' :: (a ++ [')'])) (flatten [.group o inner c]) ∧
      ReadIn (front ++ '(' :: (a ++ ')' :: back)) n inner u := by
  obtain ⟨inner, hnested, hspells, hread⟩ := exists_readIn h (front ++ ['(']) (')' :: back)
  rw [List.length_append, List.length_singleton] at hspells
  have hline : front ++ ['('] ++ a ++ ')' :: back = front ++ '(' :: (a ++ ')' :: back) := by simp
  rw [hline] at hread
  refine ⟨⟨.opening, ['('], front.length⟩, inner,
    ⟨.closing, [')'], front.length + 1 + a.length⟩, .group rfl hnested rfl .nil, ?_, hread⟩
  rw [flatten_group_cons, flatten_nil]
  exact hspells.parentheses

/-- A text in parentheses is read as the text is. -/
theorem ofAlgebraic_parentheses (h : Expr.ofAlgebraic n a = .ok u) :
    Expr.ofAlgebraic n ('(' :: (a ++ [')'])) = .ok u := by
  obtain ⟨o, inner, c, hnested, hspells, hread⟩ := exists_group h [] []
  exact (hread.group o c).ofAlgebraic_eq hnested hspells (Nat.le_refl n)

theorem ofAlgebraic_inParentheses (h : Expr.ofAlgebraic n a = .ok u) (k : Nat) :
    Expr.ofAlgebraic n (inParentheses k a) = .ok u := by
  induction k with
  | zero => exact h
  | succ k ih => exact ofAlgebraic_parentheses ih

/-- An operator between two texts in parentheses is read as the operation on what they are read
as. -/
theorem ofAlgebraic_operation (ha : Expr.ofAlgebraic n a = .ok u)
    (hb : Expr.ofAlgebraic m b = .ok v) (op : Operator) {levels : Nat} (hle : max n m < levels) :
    Expr.ofAlgebraic levels ('(' :: (a ++ ')' :: op.symbol :: '(' :: (b ++ [')']))) =
      .ok (.binary op u v) := by
  obtain ⟨o, left, c, hleft, hspellsLeft, hreadLeft⟩ :=
    exists_group ha [] (op.symbol :: '(' :: (b ++ [')']))
  obtain ⟨o', right, c', hright, hspellsRight, hreadRight⟩ :=
    exists_group hb ('(' :: (a ++ [')', op.symbol])) []
  have hsymbol : single? op.symbol = some (.operator op) := by cases op <;> rfl
  let t : Token := ⟨.operator op, [op.symbol], a.length + 2⟩
  have hline : '(' :: (a ++ [')', op.symbol]) ++ '(' :: (b ++ [')']) =
      '(' :: (a ++ ')' :: op.symbol :: '(' :: (b ++ [')'])) := by simp
  have hnested : WellNested [.group o left c, .token t, .group o' right c'] :=
    wellNested_append.mpr ⟨hleft, .token (by simp [t]) (by simp [t]) hright⟩
  have hspellsOperator : Spells (0 + ('(' :: (a ++ [')'])).length)
      ([op.symbol] ++ '(' :: (b ++ [')'])) (t :: flatten [.group o' right c']) := by
    have hplace : 0 + ('(' :: (a ++ [')'])).length = a.length + 2 := by simp
    rw [hplace]
    refine .token (.single hsymbol) (fun _ _ => rfl) ?_
    simpa using hspellsRight
  have hspells := hspellsLeft.append hspellsOperator fun d hd => by
    cases hd
    exact extends_eq_false_of_single? hsymbol
  rw [hline] at hreadRight
  refine (hreadLeft.operation rfl hreadRight).ofAlgebraic_eq hnested ?_ hle
  simpa using hspells

/-- A function's name before a text in parentheses is read as the function of what the text is read
as. -/
theorem ofAlgebraic_call (h : Expr.ofAlgebraic n a = .ok u) {fn : Elementary} {name : List Char}
    (hname : name.map Char.toLower = fn.name) {levels : Nat} (hle : n < levels) :
    Expr.ofAlgebraic levels (name ++ '(' :: (a ++ [')'])) = .ok (.call fn u) := by
  obtain ⟨o, inner, c, hnested, hspells, hread⟩ := exists_group h name []
  let t : Token := ⟨.word, name, 0⟩
  have hword : t.isWord fn.name := ⟨rfl, (Text.lower_eq_iff_of_plain (isPlain_name fn)).mpr hname⟩
  have hall : WellNested [.token t, .group o inner c] := .token (by simp [t]) (by simp [t]) hnested
  refine (hread.call hword).ofAlgebraic_eq hall ?_ hle
  refine .token (formed_of_name hname) (fun d hd => ?_) (by simpa using hspells)
  cases hd
  exact extends_eq_false_of_single? rfl _

/-- Reading is compositional on texts.  More parentheses around a text do not change what it is read
as.  An operator between two texts in parentheses is read as the operation on what they are read as,
and a function's name, in any case, before a text in parentheses as the function of what the text is
read as.  Parentheses take no levels, and a new node takes one. -/
theorem ofAlgebraic_composed (ha : Expr.ofAlgebraic n a = .ok u)
    (hb : Expr.ofAlgebraic m b = .ok v) :
    (∀ k levels, n ≤ levels → Expr.ofAlgebraic levels (inParentheses k a) = .ok u) ∧
    (∀ op levels, max n m < levels →
      Expr.ofAlgebraic levels ('(' :: (a ++ ')' :: Operator.symbol op :: '(' :: (b ++ [')']))) =
        .ok (.binary op u v)) ∧
    (∀ fn name levels, name.map Char.toLower = Elementary.name fn → n < levels →
      Expr.ofAlgebraic levels (name ++ '(' :: (a ++ [')'])) = .ok (.call fn u)) := by
  refine ⟨fun k levels hle => ?_, fun op levels hle => ofAlgebraic_operation ha hb op hle,
    fun fn name levels hname hle => ofAlgebraic_call ha hname hle⟩
  have hread := ofAlgebraic_inParentheses ha k
  rw [Expr.ofAlgebraic_of_le (by simp [hread]) hle, hread]

/-- A sign inside parentheses stays there, as does the blank at the end. -/
theorem ofAlgebraic_composed_negative_base :
    let negative := Expr.binary .sub (.num 0) .var
    Expr.ofAlgebraic 2 "-x ".toList = .ok negative ∧ Expr.ofAlgebraic 1 ['x'] = .ok .var ∧
      Expr.ofAlgebraic 2 "(((-x )))".toList = .ok negative ∧
      Expr.ofAlgebraic 3 "(-x )^(x)".toList = .ok (.binary .pow negative .var) ∧
      Expr.ofAlgebraic 3 "Sin(-x )".toList = .ok (.call .sin negative) := by
  intro negative
  have hblank : Text.isBlank ' ' = true := by decide
  have hnegative := (tokens_var 1).negative (n := 0)
  have hspells := hnegative.spells.append (.blank hblank .nil) fun c hc => by
    cases hc
    exact extends_eq_false (by simp)
  rw [List.append_nil] at hspells
  have ha : Expr.ofAlgebraic 2 "-x ".toList = .ok negative :=
    hnegative.derives.toExpr.ofAlgebraic_eq hspells.scanFrom_eq (by decide)
  have hb : Expr.ofAlgebraic 1 ['x'] = .ok .var :=
    (tokens_var 0).toFactor.derives.toExpr.ofAlgebraic_eq (tokens_var 0).spells.scanFrom_eq
      (by decide)
  obtain ⟨hparentheses, hoperation, hcall⟩ := ofAlgebraic_composed ha hb
  exact ⟨ha, hb, hparentheses 3 2 (by decide), hoperation .pow 3 (by decide),
    hcall .sin "Sin".toList 3 (by decide) (by decide)⟩

end

end GraphCalc
