import GraphCalc.Proofs.Expr.Polish
import GraphCalc.Proofs.Grammar.Reading
import GraphCalc.Proofs.Number.Exact

/-!
# GraphCalc.Proofs.Grammar.Rendered

Algebraic notation as it is written.

The text of an expression is a phrase of the grammar again.  Every operation stands in parentheses,
so it is a primary whatever it is an operand of.  The sign of a negative constant is no part of its
token: such a constant is a factor, which cannot be the base of a power, and it is read as a
difference from zero.  No parentheses are written around it, though, so that the sign of a negative
base is taken from the power: `(-2 ^ x)` is read as `0 - 2 ^ x`.

* `exists_tokens_const` — the tokens of a constant, and what they derive;
* `exists_tokens_toAlgebraic` — the tokens of an expression, and what they derive;
* `ofAlgebraic_toAlgebraic` — the text of an expression is read back, its negative constants as
  differences;
* `eval_ofAlgebraic_toAlgebraic` — what is read has the values of the expression, unless a power has
  a negative constant as its base.
-/

namespace GraphCalc

open Text Number Number.Numeral Token

/-! ## negative constants -/

namespace Expr

/-- The expression with its negative constants written as differences from zero. -/
def spelledOut : Expr Float → Expr Float
  | var => var
  | const c =>
    if isNegative c then binary .sub (num 0) (const (ofMagnitude false (magnitudeBits c)))
    else const c
  | binary op l r => binary op l.spelledOut r.spelledOut
  | call fn a => call fn a.spelledOut

/-- No power has a negative constant as its base. -/
def NoNegativeBase : Expr Float → Prop
  | var => True
  | const _ => True
  | binary op l r => (op = .pow → ∀ c, l = const c → ¬c < 0) ∧ l.NoNegativeBase ∧ r.NoNegativeBase
  | call _ a => a.NoNegativeBase

/-- The magnitude of a negative constant that is the base of a power. -/
def negativeBase? : Operator → Expr Float → Option Float
  | .pow, const c => if isNegative c then some (ofMagnitude false (magnitudeBits c)) else none
  | _, _ => none

/-- What the text of the expression is read as.  A negative constant is read as a difference from
zero, but as the base of a power it leaves its sign to the power. -/
def asRead : Expr Float → Expr Float
  | var => var
  | const c => (const c).spelledOut
  | binary op l r =>
    match negativeBase? op l with
    | some m => binary .sub (num 0) (binary .pow (const m) r.asRead)
    | none => binary op l.asRead r.asRead
  | call fn a => call fn a.asRead

theorem negativeBase?_eq_some_iff {op : Operator} {l : Expr Float} {m : Float} :
    negativeBase? op l = some m ↔ op = .pow ∧
      ∃ c, l = const c ∧ isNegative c = true ∧ ofMagnitude false (magnitudeBits c) = m := by
  cases op <;> cases l <;> simp [negativeBase?]

/-- Without a negative base every negative constant is read as a difference. -/
theorem asRead_eq_spelledOut {e : Expr Float} (hexact : ∀ c ∈ e.constants, Exact c)
    (hbase : e.NoNegativeBase) : e.asRead = e.spelledOut := by
  induction e with
  | var => rfl
  | const c => rfl
  | binary op l r ihl ihr =>
      obtain ⟨hpow, hbaseLeft, hbaseRight⟩ := hbase
      obtain ⟨hexactLeft, hexactRight⟩ := forall_constants_binary.mp hexact
      have hnone : negativeBase? op l = none := by
        rw [Option.eq_none_iff_forall_ne_some]
        intro m hm
        obtain ⟨rfl, c, rfl, hsign, -⟩ := negativeBase?_eq_some_iff.mp hm
        exact hpow rfl c rfl ((hexactLeft c (List.mem_singleton_self c)).negative hsign).1
      rw [asRead, hnone, spelledOut, ihl hexactLeft hbaseLeft, ihr hexactRight hbaseRight]
  | call fn a ih => rw [asRead, spelledOut, ih hexact hbase]

/-- A difference from zero has the value of the constant that it is written for. -/
theorem eval_spelledOut {e : Expr Float} (hexact : ∀ c ∈ e.constants, Exact c) (x : Float) :
    e.spelledOut.eval x = e.eval x := by
  induction e with
  | var => rfl
  | const c =>
      rw [spelledOut]
      cases hsign : isNegative c with
      | false => rfl
      | true => exact ((hexact c (List.mem_singleton_self c)).negative hsign).2.1
  | binary op l r ihl ihr =>
      obtain ⟨hl, hr⟩ := forall_constants_binary.mp hexact
      rw [spelledOut, eval, eval, ihl hl, ihr hr]
  | call fn a ih => rw [spelledOut, eval, eval, ih hexact]

/-- A difference takes one level more than a constant. -/
theorem depth_spelledOut_le (e : Expr Float) : e.spelledOut.depth ≤ e.depth + 1 := by
  induction e with
  | var => exact Nat.le_succ 1
  | const c =>
      rw [spelledOut]
      split
      · exact Nat.le_refl 2
      · exact Nat.le_succ 1
  | binary op l r ihl ihr =>
      rw [spelledOut, depth, depth]
      omega
  | call fn a ih =>
      rw [spelledOut, depth, depth]
      omega

end Expr

/-! ## tokens -/

theorem inNumber_of_digits {cs : List Char} (h : Digits cs) : ∀ c ∈ cs, inNumber c = true := by
  intro c hc
  cases hdigit : Text.isDigit c with
  | true => rw [inNumber, hdigit, Bool.true_or]
  | false =>
      have hno := isDigit_eq_false_of_isDigit hdigit
      rw [h c hc] at hno
      contradiction

theorem findPeriod_of_digits {cs : List Char} (h : Digits cs) :
    cs.findIdx? (· == '.') = none := by
  rw [List.findIdx?_eq_none_iff]
  intro c hc
  rw [beq_eq_false_iff_ne]
  rintro rfl
  exact absurd (h '.' hc) (by decide)

/-- A plain decimal is the text of a number. -/
theorem formed_of_plain {text whole : List Char} {fraction : Option (List Char)}
    (h : Plain text whole fraction) : Formed .number text := by
  have hwhole := h.wholeDigits
  have hfraction := h.fractionDigits
  have hne := h.nonempty
  rw [h.spelled]
  cases fraction with
  | none =>
      simp only [pointed, Option.getD_none, List.append_nil] at hne ⊢
      refine .number hne (inNumber_of_digits hwhole) ?_ ?_
      · rw [secondPeriod?, findPeriod_of_digits hwhole]
        rfl
      · rintro rfl
        exact absurd (hwhole '.' (List.mem_singleton_self _)) (by decide)
  | some fraction =>
      rw [Option.getD_some] at hfraction hne
      refine .number (by simp [pointed]) ?_ ?_ ?_
      · simp only [pointed, List.mem_append, List.mem_cons]
        rintro c (hc | rfl | hc)
        · exact inNumber_of_digits hwhole c hc
        · rfl
        · exact inNumber_of_digits hfraction c hc
      · have hfirst : (whole ++ '.' :: fraction).findIdx? (· == '.') = some whole.length := by
          rw [List.findIdx?_append, findPeriod_of_digits hwhole]
          simp [List.findIdx?_cons]
        have hdrop : (whole ++ '.' :: fraction).drop (whole.length + 1) = fraction := by
          simp
        simp only [secondPeriod?, pointed, hfirst, Option.bind_eq_bind, Option.bind_some, hdrop,
          findPeriod_of_digits hfraction, Option.bind_none]
      · intro hpoint
        refine hne ?_
        cases whole with
        | nil =>
            rw [List.nil_append]
            exact (List.cons.inj hpoint).2
        | cons c whole => simp [pointed] at hpoint

/-- A blank, a parenthesis and the end of a text end every token. -/
theorem extends_eq_false {c : Char} (hc : c ∈ [' ', '(', ')']) (kind : Kind) :
    kind.extends c = false := by
  simp only [List.mem_cons, List.not_mem_nil, or_false] at hc
  have hclasses : inNumber c = false ∧ continuesWord c = false := by
    rcases hc with rfl | rfl | rfl <;> decide
  cases kind with
  | number => exact hclasses.1
  | word => exact hclasses.2
  | opening | closing | operator => rfl

/-- The text of a phrase in parentheses. -/
theorem Token.Spells.parentheses {n : Nat} {text : List Char} {ts : List Token}
    (h : Spells (n + 1) text ts) :
    Spells n ('(' :: (text ++ [')']))
      (⟨.opening, ['('], n⟩ :: (ts ++ [⟨.closing, [')'], n + 1 + text.length⟩])) := by
  have hclosing : Spells (n + 1 + text.length) ([')'] ++ [])
      [⟨.closing, [')'], n + 1 + text.length⟩] := .token (.single rfl) (by simp) .nil
  have hinside := h.append hclosing fun c hc => by
    cases hc
    exact extends_eq_false (by simp)
  have hopening : Formed .opening ['('] := .single rfl
  exact .token hopening (fun _ _ => rfl) hinside

/-- The text of an operation between two phrases. -/
theorem Token.Spells.operation {n : Nat} {left right : List Char} {a b : List Token} (op : Operator)
    (hl : Spells n left a) (hr : Spells (n + left.length + 1 + 1 + 1) right b) :
    Spells n (left ++ [' ', op.symbol, ' '] ++ right)
      (a ++ ⟨.operator op, [op.symbol], n + left.length + 1⟩ :: b) := by
  have hsymbol : Formed (.operator op) [op.symbol] := .single (by cases op <;> rfl)
  have hspace : isBlank ' ' = true := by decide
  have hoperator : Spells (n + left.length + 1) ([op.symbol] ++ ' ' :: right)
      (⟨.operator op, [op.symbol], n + left.length + 1⟩ :: b) :=
    .token hsymbol (fun _ _ => rfl) (.blank hspace hr)
  have hall := hl.append (.blank hspace hoperator) fun c hc => by
    cases hc
    exact extends_eq_false (by simp)
  simpa using hall

/-! ## phrases -/

/-- The text is spelled by the tokens of a phrase for the expression, without a sign `+`. -/
structure Tokens (n : Nat) (text : List Char) (phrase : Phrase) (e : Expr Float)
    (ts : List Token) : Prop where
  spells : Spells n text ts
  derives : Derives phrase ts e
  noSigns : Token.signs .add true ts = 0

theorem Tokens.toFactor {n : Nat} {text : List Char} {e : Expr Float} {ts : List Token}
    (h : Tokens n text .primary e ts) : Tokens n text .factor e ts :=
  ⟨h.spells, .ofPower (.ofPrimary h.derives), h.noSigns⟩

/-- The tokens of a plain decimal. -/
theorem tokens_plain {text whole : List Char} {fraction : Option (List Char)}
    (h : Plain text whole fraction) (n : Nat) :
    Tokens n text .primary (.const (plainValue whole fraction)) [⟨.number, text, n⟩] := by
  have hspells : Spells n (text ++ []) [⟨.number, text, n⟩] :=
    .token (formed_of_plain h) (by simp) .nil
  rw [List.append_nil] at hspells
  exact ⟨hspells, .number rfl h, rfl⟩

/-- The tokens of the variable. -/
theorem tokens_var (n : Nat) : Tokens n ['x'] .primary .var [⟨.word, ['x'], n⟩] := by
  have hlower : Text.lower ['x'] = ['x'] := by decide
  exact ⟨.token formed_variable (by simp) .nil, .x ⟨rfl, hlower⟩, rfl⟩

/-- The tokens of a difference from zero. -/
theorem Tokens.negative {n : Nat} {text : List Char} {e : Expr Float} {ts : List Token}
    (h : Tokens (n + 1) text .primary e ts) :
    Tokens n ('-' :: text) .factor (.binary .sub (.num 0) e)
      (⟨.operator .sub, ['-'], n⟩ :: ts) := by
  have hminus : Formed (.operator .sub) ['-'] := .single rfl
  refine ⟨.token hminus (fun _ _ => rfl) h.spells, .negative rfl h.toFactor.derives, ?_⟩
  simpa [Token.signs, Token.expectsOperand] using h.noSigns

/-- An operation on factors is an expression, if the base of a power is a primary. -/
theorem derives_operation {a b : List Token} {l r : Expr Float} {t : Token} {op : Operator}
    (hl : Derives .factor a l) (hbase : op = .pow → Derives .primary a l)
    (hk : t.kind = .operator op) (hr : Derives .factor b r) :
    Derives .expr (a ++ t :: b) (.binary op l r) := by
  cases op with
  | add | sub => exact .sum hl.toExpr hk rfl (.ofFactor hr)
  | mul | div => exact .ofTerm (.product (.ofFactor hl) hk rfl hr)
  | pow => exact (Derives.ofPower (.power (hbase rfl) hk hr)).toExpr

/-- An operator between two phrases is no sign. -/
theorem signs_operation {p : Phrase} {a b : List Token} {l : Expr Float} {t : Token} {op : Operator}
    (hl : Derives p a l) (hk : t.kind = .operator op) :
    Token.signs .add true (a ++ t :: b) = Token.signs .add true a + Token.signs .add true b := by
  obtain ⟨items, rfl, ha⟩ := hl.reads
  rw [Token.signs_append, Token.ofLast_flatten ha.nested, ha.closed, Token.signs,
    Token.expectsOperand_of_operator hk]
  simp

/-- The tokens of two phrases and an operator between them, in parentheses. -/
theorem Tokens.operation {n : Nat} {left right : List Char} {l r e : Expr Float}
    {a b : List Token} {op : Operator} (hl : Tokens (n + 1) left .factor l a)
    (hr : Tokens (n + 1 + left.length + 1 + 1 + 1) right .factor r b)
    (hderives : ∀ t : Token, t.kind = .operator op → Derives .expr (a ++ t :: b) e) :
    ∃ ts, Tokens n ('(' :: (left ++ [' ', op.symbol, ' '] ++ right ++ [')'])) .primary e ts := by
  have hspells := (hl.spells.operation op hr.spells).parentheses
  refine ⟨_, hspells, .parentheses rfl (hderives _ rfl) rfl, ?_⟩
  rw [signs_parentheses rfl rfl, signs_operation hl.derives rfl, hl.noSigns, hr.noSigns]

/-- The tokens of a power whose base has a minus sign.  The sign is taken from the power. -/
theorem Tokens.negativePower {n : Nat} {base right : List Char} {m r : Expr Float}
    {a b : List Token} (hbase : Tokens (n + 1 + 1) base .primary m a)
    (hr : Tokens (n + 1 + ('-' :: base).length + 1 + 1 + 1) right .factor r b) :
    ∃ ts, Tokens n ('(' :: ('-' :: base ++ [' ', Operator.pow.symbol, ' '] ++ right ++ [')']))
      .primary (.binary .sub (.num 0) (.binary .pow m r)) ts := by
  refine hbase.negative.operation hr fun t hk => ?_
  have hpower := Derives.ofPower (.power hbase.derives hk hr.derives)
  exact (Derives.negative rfl hpower).toExpr

/-- The tokens of a call. -/
theorem Tokens.call {n : Nat} {text : List Char} {e : Expr Float} {ts : List Token}
    {fn : Elementary} (h : Tokens (n + fn.name.length + 1) text .factor e ts) :
    ∃ us, Tokens n (fn.name ++ '(' :: (text ++ [')'])) .primary (.call fn e) us := by
  have hformed : Formed .word fn.name := by
    cases fn <;> exact .word (by decide) (by decide) (List.all_eq_true.mp (by decide))
  have hspells := Spells.token hformed (fun c hc => by
    cases hc
    exact extends_eq_false (by simp) _) h.spells.parentheses
  refine ⟨_, hspells, .call ⟨rfl, (Expr.settled_name fn).lower_eq⟩ rfl h.derives.toExpr rfl, ?_⟩
  rw [Token.signs, signs_parentheses rfl rfl, h.noSigns]
  rfl

/-- The tokens of a constant that is shown exactly. -/
theorem exists_tokens_const {c : Float} (h : Exact c) (n : Nat) :
    ∃ ts, Tokens n (tidy c) .factor (Expr.const c).spelledOut ts ∧
      (isNegative c = false → Derives .primary ts (Expr.const c).spelledOut) := by
  rw [Expr.spelledOut]
  cases hsign : isNegative c with
  | false =>
      obtain ⟨whole, fraction, hplain, hvalue⟩ := h.positive hsign
      have htokens := tokens_plain hplain n
      rw [hvalue] at htokens
      exact ⟨_, htokens.toFactor, fun _ => htokens.derives⟩
  | true =>
      obtain ⟨-, -, body, whole, fraction, htext, hplain, hvalue⟩ := h.negative hsign
      have htokens := (tokens_plain hplain (n + 1)).negative
      rw [hvalue, ← htext] at htokens
      exact ⟨_, htokens, by simp⟩

/-- The tokens of an expression whose constants are shown exactly.  All but a negative constant are
a primary. -/
theorem exists_tokens_toAlgebraic {e : Expr Float} (hexact : ∀ c ∈ e.constants, Exact c) (n : Nat) :
    ∃ ts, Tokens n e.toAlgebraic .factor e.asRead ts ∧
      ((∀ c, e = .const c → isNegative c = false) → Derives .primary ts e.asRead) := by
  induction e generalizing n with
  | var => exact ⟨_, (tokens_var n).toFactor, fun _ => (tokens_var n).derives⟩
  | const c =>
      obtain ⟨ts, htokens, hprimary⟩ :=
        exists_tokens_const (hexact c (List.mem_singleton_self c)) n
      exact ⟨ts, htokens, fun h => hprimary (h c rfl)⟩
  | binary op l r ihl ihr =>
      obtain ⟨hexactLeft, hexactRight⟩ := Expr.forall_constants_binary.mp hexact
      obtain ⟨a, ha, hprimary⟩ := ihl hexactLeft (n + 1)
      obtain ⟨b, hb, -⟩ := ihr hexactRight (n + 1 + l.toAlgebraic.length + 1 + 1 + 1)
      have htext : (Expr.binary op l r).toAlgebraic =
          '(' :: (l.toAlgebraic ++ [' ', op.symbol, ' '] ++ r.toAlgebraic ++ [')']) := by
        simp [Expr.toAlgebraic, Expr.algebraicWith]
      rw [htext, Expr.asRead]
      cases hnegative : Expr.negativeBase? op l with
      | none =>
          have hbase : op = .pow → ∀ c, l = .const c → isNegative c = false := by
            rintro rfl c rfl
            simpa [Expr.negativeBase?] using hnegative
          obtain ⟨ts, htokens⟩ := ha.operation hb fun t hk =>
            derives_operation ha.derives (fun hop => hprimary (hbase hop)) hk hb.derives
          exact ⟨ts, htokens.toFactor, fun _ => htokens.derives⟩
      | some m =>
          -- what the base derives is not used: its sign goes to the power, its digits are the base
          obtain ⟨rfl, c, rfl, hsign, rfl⟩ := Expr.negativeBase?_eq_some_iff.mp hnegative
          obtain ⟨-, -, body, whole, fraction, hbody, hplain, hvalue⟩ :=
            (hexactLeft c (List.mem_singleton_self c)).negative hsign
          have hbase := tokens_plain hplain (n + 1 + 1)
          rw [hvalue] at hbase
          have hshown : (Expr.const c).toAlgebraic = '-' :: body := hbody
          rw [hshown] at hb ⊢
          obtain ⟨ts, htokens⟩ := hbase.negativePower hb
          exact ⟨ts, htokens.toFactor, fun _ => htokens.derives⟩
  | call fn x ih =>
      obtain ⟨us, hus, -⟩ := ih hexact (n + fn.name.length + 1)
      obtain ⟨ts, htokens⟩ := hus.call
      have htext : (Expr.call fn x).toAlgebraic = fn.name ++ '(' :: (x.toAlgebraic ++ [')']) := by
        simp [Expr.toAlgebraic, Expr.algebraicWith]
      rw [htext]
      exact ⟨ts, htokens.toFactor, fun _ => htokens.derives⟩

/-! ## what is read -/

/-- The text of an expression whose constants are shown exactly is read. -/
theorem ofAlgebraic_eq_asRead {e : Expr Float} (hexact : ∀ c ∈ e.constants, Exact c) {levels : Nat}
    (hlevels : e.asRead.depth ≤ levels) : Expr.ofAlgebraic levels e.toAlgebraic = .ok e.asRead := by
  obtain ⟨ts, htokens, -⟩ := exists_tokens_toAlgebraic hexact 0
  have hnone := htokens.noSigns
  exact htokens.derives.toExpr.ofAlgebraic_eq htokens.spells.scanFrom_eq (by omega)

/-- The text of an expression is read back, its negative constants as differences. -/
theorem ofAlgebraic_toAlgebraic {e : Expr Float} (hexact : ∀ c ∈ e.constants, Exact c)
    (hbase : e.NoNegativeBase) {levels : Nat} (hlevels : e.spelledOut.depth ≤ levels) :
    Expr.ofAlgebraic levels e.toAlgebraic = .ok e.spelledOut := by
  rw [← Expr.asRead_eq_spelledOut hexact hbase] at hlevels ⊢
  exact ofAlgebraic_eq_asRead hexact hlevels

/-- The text of an expression whose constants are shown exactly is read.  If no power has a negative
constant as its base, what is read has the values of the expression. -/
theorem eval_ofAlgebraic_toAlgebraic {e : Expr Float} (hexact : ∀ c ∈ e.constants, Exact c) :
    (∀ levels, e.asRead.depth ≤ levels →
      Expr.ofAlgebraic levels e.toAlgebraic = .ok e.asRead) ∧
      (e.NoNegativeBase → ∀ x, e.asRead.eval x = e.eval x) := by
  refine ⟨fun levels hlevels => ofAlgebraic_eq_asRead hexact hlevels, fun hbase x => ?_⟩
  rw [Expr.asRead_eq_spelledOut hexact hbase]
  exact Expr.eval_spelledOut hexact x

/-- A negative exponent is read as a difference, which has its value. -/
theorem eval_ofAlgebraic_negative_exponent :
    let half := ofMagnitude false (1022 <<< 52)
    let minusHalf := ofMagnitude true (1022 <<< 52)
    let shown := Expr.binary .pow .var (.const minusHalf)
    let read := Expr.binary .pow .var (.binary .sub (.num 0) (.const half))
    (∀ c ∈ shown.constants, Exact c) ∧ shown.NoNegativeBase ∧
      Expr.ofAlgebraic 3 "(x ^ -0.5)".toList = .ok read ∧ ∀ x, read.eval x = shown.eval x := by
  intro half minusHalf shown read
  have hminusHalf : Exact minusHalf :=
    ⟨⟨true, ['0'], some ['5'], by decide +kernel, by decide, by decide⟩, by decide +kernel⟩
  have hexact : ∀ c ∈ shown.constants, Exact c := List.forall_mem_singleton.mpr hminusHalf
  have hbase : shown.NoNegativeBase := by simp [shown, Expr.NoNegativeBase]
  have htext : "(x ^ -0.5)".toList = shown.toAlgebraic := by decide +kernel
  have hread : shown.asRead = read := by decide +kernel
  obtain ⟨hreads, hvalues⟩ := eval_ofAlgebraic_toAlgebraic hexact
  rw [htext, ← hread]
  exact ⟨hexact, hbase, hreads 3 (by decide +kernel), hvalues hbase⟩

/-- A negative base leaves its sign to the power, which then has another value: at `2` the power of
`-2` is `4`, and what its text is read as is `-4`. -/
theorem eval_ofAlgebraic_negative_base :
    let two := ofMagnitude false (1024 <<< 52)
    let minusTwo := ofMagnitude true (1024 <<< 52)
    let shown := Expr.binary .pow (.const minusTwo) .var
    let read := Expr.binary .sub (.num 0) (.binary .pow (.const two) .var)
    (∀ c ∈ shown.constants, Exact c) ∧ shown.toAlgebraic = "(-2 ^ x)".toList ∧
      (∀ levels, 3 ≤ levels → Expr.ofAlgebraic levels "(-2 ^ x)".toList = .ok read) ∧
      shown.eval 2 = 4 ∧ read.eval 2 = -4 ∧ Arithmetic.same (read.eval 2) (shown.eval 2) = false := by
  intro two minusTwo shown read
  have hminusTwo : Exact minusTwo :=
    ⟨⟨true, ['2'], none, by decide +kernel, by decide, by decide⟩, by decide +kernel⟩
  have hexact : ∀ c ∈ shown.constants, Exact c := List.forall_mem_singleton.mpr hminusTwo
  have htext : shown.toAlgebraic = "(-2 ^ x)".toList := by decide +kernel
  have hread : shown.asRead = read := by decide +kernel
  have hdepth : read.depth = 3 := by decide
  refine ⟨hexact, htext, fun levels hlevels => ?_, by decide +kernel, by decide +kernel,
    by decide +kernel⟩
  rw [← htext, ← hread]
  exact ofAlgebraic_eq_asRead hexact (by rwa [hread, hdepth])

end GraphCalc
