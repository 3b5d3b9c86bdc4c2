import GraphCalc.Expr.Algebraic
import GraphCalc.Proofs.Item.Nesting
import GraphCalc.Proofs.Number.Numeral
import GraphCalc.Proofs.Token.Spelling

/-!
# GraphCalc.Proofs.Grammar.Basic

The grammar of algebraic notation, on tokens:

```
expr    = expr (+|-) term | term
term    = term (*|/) factor | factor
factor  = + factor | - factor | power
power   = primary ^ factor | primary
primary = ( expr ) | NUMBER | x | function ( expr ) | x ( anything balanced )
```

`Derives phrase ts e` says that the tokens `ts` are a phrase of the given kind and stand for `e`.
Words count up to case.  The names of functions and of the variable are compared by their full
lower-case form; `isVariable_iff` and `callee_eq_ok_iff` say that this is what reading a name comes
to.
-/

namespace GraphCalc

open Text Number.Numeral

/-- The kinds of phrase, the weakest binding first. -/
inductive Phrase where
  | expr
  | term
  | factor
  | power
  | primary
deriving DecidableEq

/-- The token is the given word, in any case. -/
def Token.isWord (t : Token) (word : List Char) : Prop := t.kind = .word ∧ lower t.text = word

/-- The tokens are a phrase, and stand for the expression. -/
inductive Derives : Phrase → List Token → Expr Float → Prop
  | sum {a b : List Token} {l r : Expr Float} {t : Token} {op : Operator} (left : Derives .expr a l)
      (kind : t.kind = .operator op) (isSign : op.isSign = true) (right : Derives .term b r) :
      Derives .expr (a ++ t :: b) (.binary op l r)
  | ofTerm {ts : List Token} {e : Expr Float} (term : Derives .term ts e) : Derives .expr ts e
  | product {a b : List Token} {l r : Expr Float} {t : Token} {op : Operator}
      (left : Derives .term a l) (kind : t.kind = .operator op) (isFactor : op.isFactor = true)
      (right : Derives .factor b r) : Derives .term (a ++ t :: b) (.binary op l r)
  | ofFactor {ts : List Token} {e : Expr Float} (factor : Derives .factor ts e) :
      Derives .term ts e
  | positive {t : Token} {ts : List Token} {e : Expr Float} (kind : t.kind = .operator .add)
      (operand : Derives .factor ts e) : Derives .factor (t :: ts) e
  | negative {t : Token} {ts : List Token} {e : Expr Float} (kind : t.kind = .operator .sub)
      (operand : Derives .factor ts e) : Derives .factor (t :: ts) (.binary .sub (.num 0) e)
  | ofPower {ts : List Token} {e : Expr Float} (power : Derives .power ts e) : Derives .factor ts e
  | power {a b : List Token} {l r : Expr Float} {t : Token} (base : Derives .primary a l)
      (kind : t.kind = .operator .pow) (exponent : Derives .factor b r) :
      Derives .power (a ++ t :: b) (.binary .pow l r)
  | ofPrimary {ts : List Token} {e : Expr Float} (primary : Derives .primary ts e) :
      Derives .power ts e
  | parentheses {o c : Token} {ts : List Token} {e : Expr Float} (opening : o.kind = .opening)
      (inside : Derives .expr ts e) (closing : c.kind = .closing) :
      Derives .primary (o :: (ts ++ [c])) e
  | number {t : Token} {whole : List Char} {fraction : Option (List Char)}
      (kind : t.kind = .number) (plain : Plain t.text whole fraction) :
      Derives .primary [t] (.const (plainValue whole fraction))
  | x {t : Token} (word : t.isWord ['x']) : Derives .primary [t] .var
  | call {name o c : Token} {ts : List Token} {e : Expr Float} {fn : Elementary}
      (word : name.isWord fn.name) (opening : o.kind = .opening) (argument : Derives .expr ts e)
      (closing : c.kind = .closing) : Derives .primary (name :: o :: (ts ++ [c])) (.call fn e)
  | applied {name o c : Token} {ts : List Token} (word : name.isWord ['x'])
      (opening : o.kind = .opening) (unread : Item.Balanced ts) (closing : c.kind = .closing) :
      Derives .primary (name :: o :: (ts ++ [c])) .var

/-! ## words -/

theorem isPlain_name (fn : Elementary) : ∀ c ∈ fn.name, isPlain c = true :=
  List.all_eq_true.mp (by cases fn <;> decide)

/-- Only the variable has its name, in either case. -/
theorem isVariable_iff {text : List Char} : Expr.isVariable text = true ↔ lower text = ['x'] := by
  rw [lower_eq_iff_of_plain (List.forall_mem_singleton.mpr (by decide))]
  simp only [Expr.isVariable, Bool.or_eq_true, beq_iff_eq]
  constructor
  · rintro (rfl | rfl) <;> decide
  · intro h
    obtain ⟨c, rfl, hc⟩ := List.map_eq_singleton_iff.mp h
    rcases toLower_eq_x_iff.mp hc with rfl | rfl <;> simp

/-- The callees are the functions, by their names in any case. -/
theorem callee_eq_ok_iff {name : List Char} {fn : Elementary} :
    Expr.callee name = .ok fn ↔ lower name = fn.name := by
  rw [lower_eq_iff_of_plain (isPlain_name fn)]
  unfold Expr.callee
  constructor
  · intro h
    split at h
    · split at h
      · next found hfound =>
        rw [Except.ok.inj h] at hfound
        exact (Elementary.name_of_ofName? hfound).symm
      · contradiction
    · contradiction
  · intro h
    have hletters : name.all isLetter = true := by
      rw [List.all_eq_true]
      intro c hc
      exact isLetter_of_isPlain_toLower (isPlain_name fn _ (h ▸ List.mem_map_of_mem hc))
    rw [if_pos hletters, h, Elementary.ofName?_name]

/-! ## single tokens -/

/-- A number stands for what it is read as, and is no variable. -/
theorem ofToken_number {t : Token} {whole : List Char} {fraction : Option (List Char)}
    (h : Plain t.text whole fraction) :
    Expr.ofToken t = .ok (.const (plainValue whole fraction)) := by
  have hvar : Expr.isVariable t.text = false := by
    rw [← Bool.not_eq_true]
    intro hx
    simp only [Expr.isVariable, Bool.or_eq_true, beq_iff_eq] at hx
    have hhead := h.head
    rcases hx with hx | hx <;> rw [hx] at hhead
    · exact absurd (hhead 'x' rfl) (by decide)
    · exact absurd (hhead 'X' rfl) (by decide)
  rw [Expr.ofToken, hvar, h.read?_eq]
  rfl

theorem ofToken_variable {t : Token} (h : t.isWord ['x']) : Expr.ofToken t = .ok .var := by
  rw [Expr.ofToken, isVariable_iff.mpr h.2]
  rfl

/-- A word is no numeral. -/
theorem read?_word {text : List Char} (h : Token.Formed .word text) :
    Number.read? text = none := by
  obtain ⟨c, cs, rfl, hstarts, hnotDigit⟩ := h.startsWord
  simp only [Token.inNumber, Bool.or_eq_false_iff, beq_eq_false_iff_ne] at hnotDigit
  have hdigit : c.isDigit = false := isDigit_eq_false_of_isDigit hnotDigit.1
  have hsign : takeSign (c :: cs) = (false, c :: cs) := by
    refine takeSign_eq_self fun d hd => ?_
    cases hd
    constructor <;> rintro rfl <;> revert hstarts <;> decide
  have hfraction : takeFraction (c :: cs) = ([], c :: cs) := by
    simp [takeFraction, hnotDigit.2]
  simp [Number.read?, parse?, hsign, hdigit, hfraction]

/-- A character that belongs to no number is none of a number's. -/
theorem ne_of_formed_number {text : List Char} (h : Token.Formed .number text) :
    ∀ c ∈ text, ∀ d, Token.inNumber d = false → c ≠ d := by
  rintro c hc d hd rfl
  rw [h.inNumber c hc] at hd
  contradiction

/-- The text of a number has neither a sign nor an exponent. -/
theorem bare_of_formed_number {text : List Char} (h : Token.Formed .number text) :
    (∀ c ∈ text.head?, c ≠ '-' ∧ c ≠ '+') ∧ ∀ c ∈ text, c ≠ 'e' ∧ c ≠ 'E' := by
  have hne := ne_of_formed_number h
  refine ⟨fun c hc => ?_, fun c hc => ⟨hne c hc _ (by decide), hne c hc _ (by decide)⟩⟩
  have hmem := List.mem_of_mem_head? hc
  exact ⟨hne c hmem _ (by decide), hne c hmem _ (by decide)⟩

/-- A token that stands for an expression by itself is a number or the variable. -/
theorem derives_of_ofToken {t : Token} {e : Expr Float} (hformed : Token.Formed t.kind t.text)
    (hoperator : ∀ op, t.kind ≠ .operator op) (hopening : t.kind ≠ .opening)
    (hclosing : t.kind ≠ .closing) (h : Expr.ofToken t = .ok e) : Derives .primary [t] e := by
  unfold Expr.ofToken at h
  cases hk : t.kind with
  | operator op => exact absurd hk (hoperator op)
  | opening => contradiction
  | closing => contradiction
  | word =>
      rw [hk] at hformed
      split at h
      · next hvar =>
        rw [← Except.ok.inj h]
        exact .x ⟨hk, isVariable_iff.mp hvar⟩
      · rw [read?_word hformed] at h
        contradiction
  | number =>
      rw [hk] at hformed
      have hne := ne_of_formed_number hformed
      split at h
      · next hvar =>
        simp only [Expr.isVariable, Bool.or_eq_true, beq_iff_eq] at hvar
        rcases hvar with hvar | hvar
        · exact absurd rfl (hne 'x' (by simp [hvar]) 'x' (by decide))
        · exact absurd rfl (hne 'X' (by simp [hvar]) 'X' (by decide))
      · split at h
        · next v hv =>
          rw [← Except.ok.inj h]
          obtain ⟨hsign, hletter⟩ := bare_of_formed_number hformed
          obtain ⟨whole, fraction, hplain⟩ := plain_of_read? hsign hletter hv
          rw [hplain.read?_eq, Option.some.injEq] at hv
          rw [← hv]
          exact .number hk hplain
        · contradiction

end GraphCalc
