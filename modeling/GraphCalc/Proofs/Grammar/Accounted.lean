import GraphCalc.Proofs.Grammar.Reading

/-!
# GraphCalc.Proofs.Grammar.Accounted

Which tokens of a line an expression is made of.

Read from left to right, an expression has the nodes of its tokens: a number is a constant, a word
is the variable or a call, an operator is an operation, and a sign `-` is a subtraction with a zero
of its own.  A sign `+` and parentheses leave nothing.

One thing in a line is not looked at: what stands in parentheses behind the variable.  `Token.seen`
leaves it out, and every other token is accounted for.

* `Derives.told` — the nodes of a derived expression are those of the tokens that are seen, in their
  order;
* `Token.accounts_of_labels_eq` — so there are as many of each kind as there are tokens for it;
* `ofAlgebraic_accounts` — in particular of all tokens, where no parentheses follow the variable;
* `ofAlgebraic_discards` — but not in general: what is discarded there can be an operand.
-/

namespace GraphCalc

open Text

/-! ## nodes -/

/-- A node of an expression, without its operands. -/
inductive Label where
  | var
  | const (value : Float)
  | binary (op : Operator)
  | call (fn : Elementary)
deriving DecidableEq

/-- The node is a constant. -/
def Label.isConst : Label → Bool
  | const _ => true
  | _ => false

/-- The nodes of an expression as they are written: an operation between its operands, a call before
its argument. -/
def Expr.labels : Expr Float → List Label
  | var => [.var]
  | const v => [.const v]
  | binary op l r => l.labels ++ .binary op :: r.labels
  | call fn a => .call fn :: a.labels

/-! ## tokens -/

namespace Token

instance (t : Token) (word : List Char) : Decidable (t.isWord word) :=
  inferInstanceAs (Decidable (_ ∧ _))

/-- The token is a number. -/
def isNumber (t : Token) : Bool := t.kind == .number

/-- The nodes that a token stands for, given whether an operand is expected where it stands. -/
def labels (expectOperand : Bool) (t : Token) : List Label :=
  match t.kind with
  | .number => ((Number.read? t.text).map Label.const).toList
  | .word =>
    if lower t.text = ['x'] then [.var]
    else ((Elementary.ofName? (lower t.text)).map Label.call).toList
  | .operator op =>
    if expectOperand && op.isSign then
      if op = .sub then [.const (Arithmetic.ofInt 0), .binary .sub] else []
    else [.binary op]
  | .opening | .closing => []

/-- The nodes that tokens stand for, one after the other. -/
def labelsFrom : Bool → List Token → List Label
  | _, [] => []
  | expectOperand, t :: ts => t.labels expectOperand ++ labelsFrom t.expectsOperand ts

/-- How many tokens are the given operator between operands, and no sign. -/
def binaries (op : Operator) : Bool → List Token → Nat
  | _, [] => 0
  | expectOperand, t :: ts =>
    (if t.kind == .operator op && !(expectOperand && op.isSign) then 1 else 0)
      + binaries op t.expectsOperand ts

/-- The tokens that are looked at, inside the given number of parentheses that are not, and given
whether the token before is the variable. -/
def seenFrom : Nat → Bool → List Token → List Token
  | _, _, [] => []
  | 0, applied, t :: ts =>
    if applied && t.kind == .opening then seenFrom 1 false ts
    else t :: seenFrom 0 (t.isWord ['x']) ts
  | depth + 1, _, t :: ts =>
    match t.kind with
    | .opening => seenFrom (depth + 2) false ts
    | .closing => seenFrom depth false ts
    | _ => seenFrom (depth + 1) false ts

/-- The tokens that are looked at: all but what stands in parentheses behind the variable. -/
def seen (ts : List Token) : List Token := seenFrom 0 false ts

/-- A number that can be read, a word with a meaning, or neither a number nor a word. -/
def Known (t : Token) : Prop :=
  (t.kind = .number → (Number.read? t.text).isSome) ∧
    (t.kind = .word → t.isWord ['x'] ∨ ∃ fn : Elementary, t.isWord fn.name)

/-- Every token has its nodes in the expression, and there are no others: a constant for each
number, and a zero for each sign `-`; the variable for each word that is its name; a call for each
word that names a function; an operation for each operator between operands and each sign `-`.  No
word is anything else. -/
structure Accounts (ts : List Token) (e : Expr Float) : Prop where
  constants : e.labels.countP Label.isConst = ts.countP isNumber + signs .sub true ts
  vars : e.labels.count .var = ts.countP (·.isWord ['x'])
  calls : ∀ fn, e.labels.count (.call fn) = ts.countP (·.isWord fn.name)
  operations : ∀ op, e.labels.count (.binary op) =
    binaries op true ts + if op = .sub then signs .sub true ts else 0
  words : ∀ t ∈ ts, t.kind = .word → t.isWord ['x'] ∨ ∃ fn : Elementary, t.isWord fn.name

/-! ## counting -/

/-- What is counted token by token can be counted in the nodes. -/
theorem countP_labelsFrom (p : Label → Bool) (count : Bool → List Token → Nat)
    (hnil : ∀ e, count e [] = 0)
    (hcons : ∀ e t ts, t.Known →
      count e (t :: ts) = (t.labels e).countP p + count t.expectsOperand ts)
    {ts : List Token} (h : ∀ t ∈ ts, t.Known) (e : Bool) :
    (labelsFrom e ts).countP p = count e ts := by
  induction ts generalizing e with
  | nil => rw [hnil]; rfl
  | cons t ts ih =>
      obtain ⟨ht, hts⟩ := List.forall_mem_cons.mp h
      rw [labelsFrom, List.countP_append, ih hts, hcons e t ts ht]

/-- No function has the name of the variable. -/
theorem name_ne_x (fn : Elementary) : fn.name ≠ ['x'] := by cases fn <;> decide

theorem name_injective {fn g : Elementary} (h : fn.name = g.name) : fn = g := by
  have hfound := Elementary.ofName?_name fn
  rw [h, Elementary.ofName?_name, Option.some.injEq] at hfound
  exact hfound.symm

/-- The tokens of other kinds are no words. -/
theorem not_isWord {t : Token} (hk : t.kind ≠ .word) (word : List Char) : ¬t.isWord word :=
  fun h => hk h.1

section

variable {t : Token} (e : Bool)

theorem labels_number (hk : t.kind = .number) {v : Float} (hv : Number.read? t.text = some v) :
    t.labels e = [.const v] := by
  simp [labels, hk, hv]

theorem labels_var (h : t.isWord ['x']) : t.labels e = [.var] := by
  simp [labels, h.1, h.2]

theorem labels_call {fn : Elementary} (h : t.isWord fn.name) : t.labels e = [.call fn] := by
  simp [labels, h.1, h.2, name_ne_x]

theorem labels_sign {op : Operator} (hk : t.kind = .operator op) (hop : op.isSign = true) :
    t.labels true = if op = .sub then [.const (Arithmetic.ofInt 0), .binary .sub] else [] := by
  simp [labels, hk, hop]

theorem labels_binary {op : Operator} (hk : t.kind = .operator op)
    (h : (e && op.isSign) = false) : t.labels e = [.binary op] := by
  simp [labels, hk, h]

theorem labels_parenthesis (h : t.kind = .opening ∨ t.kind = .closing) : t.labels e = [] := by
  rcases h with h | h <;> simp [labels, h]

end

/-- What a token that is known stands for, kind by kind. -/
theorem Known.cases {t : Token} (h : t.Known) {P : Prop}
    (number : ∀ v, t.kind = .number → Number.read? t.text = some v → P)
    (var : t.isWord ['x'] → P) (call : ∀ fn : Elementary, t.isWord fn.name → P)
    (operator : ∀ op, t.kind = .operator op → P)
    (parenthesis : t.kind = .opening ∨ t.kind = .closing → P) : P := by
  cases hk : t.kind with
  | number =>
      obtain ⟨v, hv⟩ := Option.isSome_iff_exists.mp (h.1 hk)
      exact number v hk hv
  | word => exact (h.2 hk).elim var fun ⟨fn, hfn⟩ => call fn hfn
  | opening => exact parenthesis (.inl hk)
  | closing => exact parenthesis (.inr hk)
  | operator op => exact operator op hk

section

variable {t : Token} (h : t.Known) (e : Bool)
include h

theorem countP_isConst_labels : (t.labels e).countP Label.isConst =
    (if t.isNumber then 1 else 0) + if e && t.kind == .operator .sub then 1 else 0 := by
  refine h.cases (fun v hk hv => ?_) (fun h => ?_) (fun fn h => ?_) (fun op hk => ?_) fun h => ?_
  · simp [labels_number e hk hv, isNumber, hk, Label.isConst]
  · simp [labels_var e h, isNumber, h.1, Label.isConst]
  · simp [labels_call e h, isNumber, h.1, Label.isConst]
  · cases op <;> cases e <;>
      simp [labels, hk, isNumber, Operator.isSign, Label.isConst, List.countP_cons]
  · rw [labels_parenthesis e h]
    rcases h with h | h <;> simp [isNumber, h]

theorem count_var_labels : (t.labels e).count .var = if t.isWord ['x'] then 1 else 0 := by
  refine h.cases (fun v hk hv => ?_) (fun h => ?_) (fun fn h => ?_) (fun op hk => ?_) fun h => ?_
  · simp [labels_number e hk hv, not_isWord (t := t) (by simp [hk])]
  · simp [labels_var e h, h]
  · have hne : ¬t.isWord ['x'] := fun hx => name_ne_x fn (h.2.symm.trans hx.2)
    simp [labels_call e h, hne]
  · cases op <;> cases e <;>
      simp [labels, hk, Operator.isSign, not_isWord (t := t) (by simp [hk])]
  · rw [labels_parenthesis e h]
    rcases h with h | h <;> simp [not_isWord (t := t) (by simp [h])]

theorem count_call_labels (fn : Elementary) :
    (t.labels e).count (.call fn) = if t.isWord fn.name then 1 else 0 := by
  refine h.cases (fun v hk hv => ?_) (fun h => ?_) (fun g h => ?_) (fun op hk => ?_) fun h => ?_
  · simp [labels_number e hk hv, not_isWord (t := t) (by simp [hk])]
  · have hne : ¬t.isWord fn.name := fun hfn => name_ne_x fn (hfn.2.symm.trans h.2)
    simp [labels_var e h, hne]
  · have hiff : t.isWord fn.name ↔ g = fn :=
      ⟨fun hfn => name_injective (h.2.symm.trans hfn.2), fun heq => heq ▸ h⟩
    simp [labels_call e h, hiff, List.count_singleton]
  · cases op <;> cases e <;>
      simp [labels, hk, Operator.isSign, not_isWord (t := t) (by simp [hk])]
  · rw [labels_parenthesis e h]
    rcases h with h | h <;> simp [not_isWord (t := t) (by simp [h])]

theorem count_binary_labels (op : Operator) : (t.labels e).count (.binary op) =
    (if t.kind == .operator op && !(e && op.isSign) then 1 else 0) +
      if op = .sub then (if e && t.kind == .operator .sub then 1 else 0) else 0 := by
  refine h.cases (fun v hk hv => ?_) (fun h => ?_) (fun fn h => ?_) (fun g hk => ?_) fun h => ?_
  · simp [labels_number e hk hv, hk]
  · simp [labels_var e h, h.1]
  · simp [labels_call e h, h.1]
  · cases op <;> cases g <;> cases e <;> simp [labels, hk, Operator.isSign]
  · rw [labels_parenthesis e h]
    rcases h with h | h <;> simp [h]

end

section

variable {ts : List Token} (h : ∀ t ∈ ts, t.Known) (e : Bool)
include h

/-- A node that stands for words only is there as often as they are. -/
theorem count_labelsFrom_word {label : Label} {word : List Char}
    (hlabels : ∀ {t : Token}, t.Known → ∀ e,
      (t.labels e).count label = if t.isWord word then 1 else 0) :
    (labelsFrom e ts).count label = ts.countP (·.isWord word) := by
  refine countP_labelsFrom (· == label) (fun _ ts => ts.countP (·.isWord word)) (fun _ => rfl)
    (fun e t ts ht => ?_) h e
  have hcount : (t.labels e).countP (· == label) = if t.isWord word then 1 else 0 := hlabels ht e
  rw [hcount, List.countP_cons]
  simp only [decide_eq_true_eq]
  omega

theorem countP_isConst_labelsFrom :
    (labelsFrom e ts).countP Label.isConst = ts.countP isNumber + signs .sub e ts := by
  refine countP_labelsFrom Label.isConst (fun e ts => ts.countP isNumber + signs .sub e ts)
    (fun _ => rfl) (fun e t ts ht => ?_) h e
  rw [countP_isConst_labels ht, List.countP_cons, signs]
  omega

theorem count_binary_labelsFrom (op : Operator) : (labelsFrom e ts).count (.binary op) =
    binaries op e ts + if op = .sub then signs .sub e ts else 0 := by
  refine countP_labelsFrom (· == .binary op)
    (fun e ts => binaries op e ts + if op = .sub then signs .sub e ts else 0)
    (fun _ => by simp [binaries, signs]) (fun e t ts ht => ?_) h e
  have hcount := count_binary_labels ht e op
  rw [List.count] at hcount
  rw [hcount, binaries, signs]
  by_cases hop : op = .sub
  · simp only [if_pos hop]
    omega
  · simp only [if_neg hop]
    omega

end

/-- An expression that has the nodes of known tokens accounts for them. -/
theorem accounts_of_labels_eq {ts : List Token} {e : Expr Float} (h : ∀ t ∈ ts, t.Known)
    (heq : e.labels = labelsFrom true ts) : Accounts ts e where
  constants := by rw [heq, countP_isConst_labelsFrom h]
  vars := by rw [heq, count_labelsFrom_word h true count_var_labels]
  calls fn := by rw [heq, count_labelsFrom_word h true fun ht e => count_call_labels ht e fn]
  operations op := by rw [heq, count_binary_labelsFrom h]
  words t ht := (h t ht).2

theorem labelsFrom_append (e : Bool) (a b : List Token) :
    labelsFrom e (a ++ b) = labelsFrom e a ++ labelsFrom (ofLast expectsOperand e a) b := by
  induction a generalizing e with
  | nil => rfl
  | cons t a ih => rw [List.cons_append, labelsFrom, labelsFrom, ih, ofLast_cons, List.append_assoc]

/-! ## what is seen -/

/-- What is not looked at ends with the parenthesis that closes it. -/
theorem seenFrom_unread {inner : List Token} (h : Item.Balanced inner) (depth : Nat)
    (applied : Bool) (rest : List Token) :
    seenFrom (depth + 1) applied (inner ++ rest) = seenFrom (depth + 1) false rest := by
  have hflag : ∀ depth applied ts,
      seenFrom (depth + 1) applied ts = seenFrom (depth + 1) false ts := by
    intro depth applied ts
    cases ts <;> simp [seenFrom]
  induction h generalizing depth applied rest with
  | nil => exact hflag depth applied rest
  | @token t ts ho hc _ ih =>
      rw [List.cons_append]
      cases hk : t.kind <;> simp_all [seenFrom]
  | @parentheses o c inner ts ho _ hc _ ihInner ihRest =>
      rw [List.cons_append, seenFrom, ho]
      simp only
      rw [List.append_assoc, ihInner, List.cons_append, seenFrom, hc]
      exact ihRest depth false rest

/-- Parentheses behind the variable are left out. -/
theorem seenFrom_applied {o c : Token} {inner : List Token} (ho : o.kind = .opening)
    (hinner : Item.Balanced inner) (hc : c.kind = .closing) (rest : List Token) :
    seenFrom 0 true (o :: (inner ++ c :: rest)) = seen rest := by
  rw [seenFrom, ho]
  simp only [Bool.true_and, beq_self_eq_true, if_true]
  rw [seenFrom_unread hinner, seenFrom, hc]
  rfl

/-- A token that opens no parentheses is seen, whatever stands before it. -/
theorem seenFrom_cons {t : Token} (h : t.kind ≠ .opening) (applied : Bool) (ts : List Token) :
    seenFrom 0 applied (t :: ts) = t :: seenFrom 0 (t.isWord ['x']) ts := by
  simp [seenFrom, h]

/-- Behind any token but a word everything is seen afresh. -/
theorem seen_cons {t : Token} (h : t.kind ≠ .word) (ts : List Token) :
    seen (t :: ts) = t :: seen ts := by
  simp [seen, seenFrom, not_isWord h]

/-- What is seen of balanced tokens does not depend on what comes after them, and the other way
round, unless parentheses come next. -/
theorem seenFrom_append {a : List Token} (h : Item.Balanced a) (applied : Bool) {b : List Token}
    (hb : ∀ t ∈ b.head?, t.kind ≠ .opening) :
    seenFrom 0 applied (a ++ b) = seenFrom 0 applied a ++ seen b := by
  induction h generalizing applied b with
  | nil =>
      cases b with
      | nil => rfl
      | cons t b =>
          rw [List.nil_append, seen, seenFrom_cons (hb t rfl), seenFrom_cons (hb t rfl)]
          rfl
  | token ho _ _ ih =>
      rw [List.cons_append, seenFrom_cons ho, seenFrom_cons ho, ih _ hb, List.cons_append]
  | @parentheses o c inner ts ho hinner hc _ ihInner ihRest =>
      have hinside : ∀ us, seen (inner ++ c :: us) = seen inner ++ c :: seen us := by
        intro us
        rw [← seen_cons (by simp [hc])]
        exact ihInner false (by simp [hc])
      rw [List.cons_append, List.append_assoc, List.cons_append]
      cases applied with
      | true =>
          rw [seenFrom_applied ho hinner hc, seenFrom_applied ho hinner hc]
          exact ihRest false hb
      | false =>
          have hopen : ∀ us, seenFrom 0 false (o :: us) = o :: seen us := seen_cons (by simp [ho])
          have hrest : seen (ts ++ b) = seen ts ++ seen b := ihRest false hb
          rw [hopen, hopen, hinside, hinside, hrest]
          simp

/-- What is seen on either side of an operator. -/
theorem seen_binary {a b : List Token} {t : Token} {op : Operator} (ha : Item.Balanced a)
    (hk : t.kind = .operator op) : seen (a ++ t :: b) = seen a ++ t :: seen b := by
  rw [← seen_cons (by simp [hk])]
  exact seenFrom_append ha false (by simp [hk])

/-- What is seen in parentheses. -/
theorem seen_parentheses {o c : Token} {inner : List Token} (ho : o.kind = .opening)
    (hinner : Item.Balanced inner) (hc : c.kind = .closing) :
    seen (o :: (inner ++ [c])) = o :: (seen inner ++ [c]) := by
  have happend : seen (inner ++ [c]) = seen inner ++ seen [c] :=
    seenFrom_append hinner false (by simp [hc])
  have hclosing : seen [c] = [c] := seen_cons (by simp [hc]) []
  rw [seen_cons (by simp [ho]), happend, hclosing]

/-- Everything is seen where no parentheses follow the variable. -/
theorem seen_eq_self {ts : List Token}
    (h : ts.IsChain fun t u => ¬(t.isWord ['x'] ∧ u.kind = .opening)) : seen ts = ts := by
  suffices hfrom : ∀ applied, (applied = true → ∀ u ∈ ts.head?, u.kind ≠ .opening) →
      seenFrom 0 applied ts = ts from hfrom false (by simp)
  induction h with
  | nil => exact fun _ _ => rfl
  | singleton t =>
      intro applied hfirst
      cases applied <;> simp_all [seenFrom]
  | @cons_cons t u ts htu _ ih =>
      intro applied hfirst
      have hrest := ih (t.isWord ['x']) (by simpa using htu)
      cases applied <;> simp_all [seenFrom]

/-! ## nodes of what is seen -/

/-- The tokens are known, end an operand, and stand for the nodes of the expression. -/
structure Told (ts : List Token) (e : Expr Float) : Prop where
  nodes : e.labels = labelsFrom true ts
  closed : ofLast expectsOperand true ts = false
  known : ∀ t ∈ ts, t.Known

namespace Told

variable {a b : List Token} {l r e : Expr Float} {t : Token}

theorem known_of_kind (hn : t.kind ≠ .number) (hw : t.kind ≠ .word) : t.Known :=
  ⟨fun h => absurd h hn, fun h => absurd h hw⟩

theorem binary {op : Operator} (ha : Told a l) (hk : t.kind = .operator op) (hb : Told b r) :
    Told (a ++ t :: b) (.binary op l r) where
  nodes := by
    rw [Expr.labels, labelsFrom_append, ha.closed, labelsFrom, labels_binary false hk rfl,
      expectsOperand_of_operator hk, ha.nodes, hb.nodes]
    rfl
  closed := by
    rw [ofLast_append, ofLast_cons, expectsOperand_of_operator hk, hb.closed]
  known := by
    simp only [List.forall_mem_append, List.forall_mem_cons]
    exact ⟨ha.known, known_of_kind (by simp [hk]) (by simp [hk]), hb.known⟩

/-- A sign adds the nodes it stands for in front of those of its operand. -/
theorem sign {op : Operator} (hk : t.kind = .operator op) (hb : Told b r)
    (he : e.labels = t.labels true ++ r.labels) : Told (t :: b) e where
  nodes := by
    rw [he, labelsFrom, expectsOperand_of_operator hk, hb.nodes]
  closed := by
    rw [ofLast_cons, expectsOperand_of_operator hk, hb.closed]
  known := List.forall_mem_cons.mpr ⟨known_of_kind (by simp [hk]) (by simp [hk]), hb.known⟩

theorem parentheses {o c : Token} (ho : o.kind = .opening) (h : Told a e)
    (hc : c.kind = .closing) : Told (o :: (a ++ [c])) e where
  nodes := by
    rw [labelsFrom, labels_parenthesis true (.inl ho), expectsOperand_of_opening ho,
      labelsFrom_append, labelsFrom, labels_parenthesis _ (.inr hc), h.nodes]
    simp [labelsFrom]
  closed := by simp [expectsOperand, hc]
  known := by
    simp only [List.forall_mem_cons, List.forall_mem_append]
    exact ⟨known_of_kind (by simp [ho]) (by simp [ho]), h.known,
      known_of_kind (by simp [hc]) (by simp [hc]), by simp⟩

/-- A token that is an operand by itself. -/
theorem single (h : t.Known) (hclosed : t.expectsOperand = false)
    (he : e.labels = t.labels true) : Told [t] e where
  nodes := by rw [he, labelsFrom, labelsFrom, List.append_nil]
  closed := hclosed
  known := List.forall_mem_singleton.mpr h

/-- A function's name in front of its argument. -/
theorem call {name o c : Token} {fn : Elementary} (hword : name.isWord fn.name)
    (ho : o.kind = .opening) (h : Told a e) (hc : c.kind = .closing) :
    Told (name :: o :: (a ++ [c])) (.call fn e) where
  nodes := by
    have hargument := (h.parentheses ho hc).nodes
    rw [labelsFrom, labels_parenthesis true (.inl ho)] at hargument
    rw [labelsFrom, labels_call true hword, labelsFrom, labels_parenthesis _ (.inl ho), Expr.labels,
      hargument]
    rfl
  closed := by simp [expectsOperand, hc]
  known := List.forall_mem_cons.mpr
    ⟨⟨fun hk => absurd (hk.symm.trans hword.1) (by decide), fun _ => .inr ⟨fn, hword⟩⟩,
      (h.parentheses ho hc).known⟩

end Told

end Token

open Token

theorem Derives.balanced {phrase : Phrase} {ts : List Token} {e : Expr Float}
    (h : Derives phrase ts e) : Item.Balanced ts := by
  obtain ⟨items, hflat, hitems⟩ := h.reads
  exact Item.balanced_iff.mpr ⟨items, hitems.nested, hflat⟩

/-- A derived expression has the nodes of the tokens that are seen. -/
theorem Derives.told {phrase : Phrase} {ts : List Token} {e : Expr Float}
    (h : Derives phrase ts e) : Told (seen ts) e := by
  have hname : ∀ {t : Token}, t.isWord ['x'] → Told [t] .var := fun hword =>
    .single ⟨fun hk => absurd (hk.symm.trans hword.1) (by decide), fun _ => .inl hword⟩
      (by simp [expectsOperand, hword.1]) (labels_var true hword).symm
  induction h with
  | sum ha hk _ _ iha ihb | product ha hk _ _ iha ihb | power ha hk _ iha ihb =>
      rw [seen_binary ha.balanced hk]
      exact iha.binary hk ihb
  | ofTerm _ ih | ofFactor _ ih | ofPower _ ih | ofPrimary _ ih => exact ih
  | positive hk _ ih =>
      rw [seen_cons (by simp [hk])]
      exact ih.sign hk (by simp [labels_sign hk rfl])
  | negative hk _ ih =>
      rw [seen_cons (by simp [hk])]
      exact ih.sign hk (by rw [labels_sign hk rfl]; rfl)
  | parentheses ho hinside hc ih =>
      rw [seen_parentheses ho hinside.balanced hc]
      exact ih.parentheses ho hc
  | @number t _ _ hk hplain =>
      have hread := hplain.read?_eq
      have hknown : t.Known := ⟨fun _ => by rw [hread]; rfl, fun hw => by simp [hk] at hw⟩
      rw [seen_cons (by simp [hk])]
      exact .single hknown (by simp [expectsOperand, hk]) (labels_number true hk hread).symm
  | x hword =>
      rw [seen, seenFrom_cons (by simp [hword.1])]
      exact hname hword
  | @call name o c _ _ fn hword ho hargument hc ih =>
      have hne : ¬name.isWord ['x'] := fun hx => name_ne_x fn (hword.2.symm.trans hx.2)
      have hrest := seen_parentheses ho hargument.balanced hc
      rw [seen, seenFrom_cons (by simp [hword.1]), decide_eq_false hne]
      show Told (name :: seen _) _
      rw [hrest]
      exact ih.call hword ho hc
  | applied hword ho hunread hc =>
      rw [seen, seenFrom_cons (by simp [hword.1]), decide_eq_true hword,
        seenFrom_applied ho hunread hc]
      exact hname hword

/-! ## lines -/

/-- The expression that a line is read as accounts for its tokens, in their order and with their
values, but for what stands in parentheses behind the variable.  Where no parentheses follow the
variable it accounts for all of them. -/
theorem ofAlgebraic_accounts {levels : Nat} {line : List Char} {e : Expr Float}
    (h : Expr.ofAlgebraic levels line = .ok e) :
    ∃ ts, Token.scan line = .ok ts ∧ e.labels = labelsFrom true (seen ts) ∧ Accounts (seen ts) e ∧
      ((ts.IsChain fun t u => ¬(t.isWord ['x'] ∧ u.kind = .opening)) → Accounts ts e) := by
  obtain ⟨ts, hscan, hderives⟩ := derives_of_ofAlgebraic h
  have htold := hderives.told
  have haccounts := accounts_of_labels_eq htold.known htold.nodes
  exact ⟨ts, hscan, htold.nodes, haccounts, fun hapart => seen_eq_self hapart ▸ haccounts⟩

/-- The tokens of the line `x(x+1)`, standing at a position. -/
def variableApplied (n : Nat) : List Token :=
  [⟨.word, ['x'], n⟩, ⟨.opening, ['('], n + 1⟩, ⟨.word, ['x'], n + 2⟩,
    ⟨.operator .add, ['+'], n + 3⟩, ⟨.number, ['1'], n + 4⟩, ⟨.closing, [')'], n + 5⟩]

theorem spells_variableApplied (n : Nat) : Spells n "x(x+1)".toList (variableApplied n) := by
  have hnumber : Formed .number ['1'] :=
    .number (by decide) (List.forall_mem_singleton.mpr (by decide)) (by decide) (by decide)
  have hopening : Kind.word.extends '(' = false := by decide
  have hadd : Kind.word.extends '+' = false := by decide
  have hclosing : Kind.number.extends ')' = false := by decide
  exact .token formed_variable (Kind.stops_cons hopening _) (.token (.single rfl) (fun _ _ => rfl)
    (.token formed_variable (Kind.stops_cons hadd _) (.token (.single rfl) (fun _ _ => rfl)
      (.token hnumber (Kind.stops_cons hclosing _)
        (.token (.single rfl) (fun _ _ => rfl) .nil)))))

theorem derives_variableApplied (n : Nat) : Derives .primary (variableApplied n) .var := by
  have hname : (Token.mk .word ['x'] n).isWord ['x'] := ⟨rfl, show lower ['x'] = ['x'] by decide⟩
  have hunread : Item.Balanced [Token.mk .word ['x'] (n + 2), ⟨.operator .add, ['+'], n + 3⟩,
      ⟨.number, ['1'], n + 4⟩] :=
    .token nofun nofun (.token nofun nofun (.token nofun nofun .nil))
  exact .applied (o := ⟨.opening, ['('], n + 1⟩) hname rfl hunread rfl

/-- A sign leaves a zero and a subtraction, and what stands behind the variable nothing. -/
theorem ofAlgebraic_accounts_negation :
    let e : Expr Float := .binary .sub (.num 0) .var
    let ts : List Token := [⟨.operator .sub, ['-'], 0⟩, ⟨.word, ['x'], 1⟩]
    Expr.ofAlgebraic nestingLimit "-x(x+1)".toList = .ok e ∧ e.labels = labelsFrom true ts ∧
      Accounts ts e := by
  intro e ts
  let sign : Token := ⟨.operator .sub, ['-'], 0⟩
  have hscan : Token.scan "-x(x+1)".toList = .ok (sign :: variableApplied 1) :=
    Token.scanFrom_eq_ok_iff.mpr (.token (.single rfl) (fun _ _ => rfl) (spells_variableApplied 1))
  have hderives : Derives .expr (sign :: variableApplied 1) e :=
    (Derives.negative rfl (.ofPower (.ofPrimary (derives_variableApplied 1)))).toExpr
  have hread : Expr.ofAlgebraic nestingLimit "-x(x+1)".toList = .ok e :=
    hderives.ofAlgebraic_eq hscan (by decide)
  have hseen : seen (sign :: variableApplied 1) = ts := by decide
  obtain ⟨us, hus, hnodes, haccounts, -⟩ := ofAlgebraic_accounts hread
  obtain rfl : sign :: variableApplied 1 = us := Except.ok.inj (hscan.symm.trans hus)
  rw [hseen] at hnodes haccounts
  exact ⟨hread, hnodes, haccounts⟩

/-- What stands in parentheses behind the variable is discarded, operands and all: the product that
this looks like is read as the variable, and its one and its sum are not there. -/
theorem ofAlgebraic_discards :
    ∃ ts, Token.scan "x(x+1)".toList = .ok ts ∧
      Expr.ofAlgebraic nestingLimit "x(x+1)".toList = .ok .var ∧ ¬Accounts ts .var := by
  have hscan : Token.scan "x(x+1)".toList = .ok (variableApplied 0) :=
    Token.scanFrom_eq_ok_iff.mpr (spells_variableApplied 0)
  have hderives : Derives .expr (variableApplied 0) .var :=
    (Derives.ofPower (.ofPrimary (derives_variableApplied 0))).toExpr
  refine ⟨_, hscan, hderives.ofAlgebraic_eq hscan (by decide), fun h => ?_⟩
  have hcount := h.constants
  revert hcount
  decide

end GraphCalc
