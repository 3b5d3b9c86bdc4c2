import GraphCalc.Expr.Render
import GraphCalc.Expr.ReversePolish
import GraphCalc.Proofs.Number.Written
import GraphCalc.Proofs.Text.Classes
import GraphCalc.Proofs.Text.Runs

/-!
# GraphCalc.Proofs.Expr.Polish

Reverse Polish notation is read back.

The words of an expression, read on any stack, put that expression on top of it and leave the rest
alone; only its constants may have changed, because a constant is written up to a tolerance and a
constant that is not finite has no text that is read.

* `words_toReversePolish` — the text of an expression is taken apart into its words;
* `foldlM_polishWords` — the words of an expression on a stack;
* `ofReversePolish_toReversePolish` — which expressions are read back, and as what.
-/

namespace GraphCalc.Expr

open Number Text

/-! ## constants -/

section

variable {α β : Type}

/-- The constants of an expression, in the order in which they are written. -/
def constants : Expr α → List α
  | var => []
  | const c => [c]
  | binary _ l r => l.constants ++ r.constants
  | call _ a => a.constants

/-- The constants of an operation are those of its operands. -/
theorem forall_constants_binary {P : α → Prop} {op : Operator} {l r : Expr α} :
    (∀ c ∈ (binary op l r).constants, P c) ↔ (∀ c ∈ l.constants, P c) ∧ ∀ c ∈ r.constants, P c :=
  List.forall_mem_append

/-- The same expression with other constants. -/
def map (f : α → β) : Expr α → Expr β
  | var => var
  | const c => const (f c)
  | binary op l r => binary op (l.map f) (r.map f)
  | call fn a => call fn (a.map f)

end

/-- Constants that stay the same leave the expression as it is. -/
theorem map_eq_self {α : Type} {f : α → α} {e : Expr α} (h : ∀ c ∈ e.constants, f c = c) :
    e.map f = e := by
  induction e with
  | var => rfl
  | const c => exact congrArg const (h c (List.mem_singleton_self c))
  | binary op l r ihl ihr =>
      obtain ⟨hl, hr⟩ := forall_constants_binary.mp h
      rw [map, ihl hl, ihr hr]
  | call fn a ih => rw [map, ih h]

/-- What the text of a constant is read as.  A constant whose text is not read stays as it is. -/
def reread (c : Float) : Float := (read? (tidy c)).getD c

/-- The text of a finite constant is read. -/
theorem read?_tidy_eq_reread {c : Float} (h : c.isFinite = true) :
    read? (tidy c) = some (reread c) := by
  obtain ⟨w, hread, -⟩ := read?_tidy h
  rw [reread, hread]
  rfl

/-- What the text of a finite constant is read as is written in the same way. -/
theorem tidy_reread {c : Float} (h : c.isFinite = true) : tidy (reread c) = tidy c := by
  obtain ⟨w, hread, htidy⟩ := read?_tidy h
  rw [reread, hread]
  exact htidy

/-! ## words -/

/-- The words of an expression in reverse Polish notation. -/
def polishWords : Expr Float → List (List Char)
  | var => [['x']]
  | const c => [tidy c]
  | binary op l r => l.polishWords ++ r.polishWords ++ [[op.symbol]]
  | call fn a => a.polishWords ++ [fn.name]

/-- A word that is taken off a text as it is, and is in lower case already. -/
structure Settled (w : List Char) : Prop where
  ne_nil : w ≠ []
  ascii : ∀ c ∈ w, c.toNat < 128
  notBlank : ∀ c ∈ w, isBlank c = false
  lower : ∀ c ∈ w, c.toLower = c

theorem Settled.lower_eq {w : List Char} (h : Settled w) : Text.lower w = w := by
  rw [lower_of_ascii h.ascii]
  exact (List.map_congr_left h.lower).trans (List.map_id w)

theorem Settled.of_all {w : List Char} (hne : w ≠ [])
    (hall : w.all fun c => c.toNat < 128 ∧ isBlank c = false ∧ c.toLower = c) : Settled w :=
  have hclass := fun c hc => of_decide_eq_true (List.all_eq_true.mp hall c hc)
  ⟨hne, fun c hc => (hclass c hc).1, fun c hc => (hclass c hc).2.1, fun c hc => (hclass c hc).2.2⟩

theorem settled_x : Settled ['x'] := .of_all (by decide) (by decide)

theorem settled_symbol (op : Operator) : Settled [op.symbol] :=
  .of_all (by simp) (by cases op <;> decide)

theorem settled_name (fn : Elementary) : Settled fn.name :=
  .of_all (by cases fn <;> decide) (by cases fn <;> decide)

theorem settled_tidy (v : Float) : Settled (tidy v) := by
  have hclass : ∀ c ∈ tidy v, c.toNat < 128 ∧ isBlank c = false ∧ c.toLower = c := by
    intro c hc
    have hchar := isNumberChar_of_mem_tidy c hc
    have hascii := ascii_of_isNumberChar hchar
    have hall := forall_ascii
      (P := fun c => isNumberChar c = true → isBlank c = false ∧ c.toLower = c) (by decide) hascii
    exact ⟨hascii, hall hchar⟩
  have hne : tidy v ≠ [] := by
    intro hnil
    cases hfinite : v.isFinite with
    | true =>
        have hread := read?_tidy_eq_reread hfinite
        rw [hnil] at hread
        contradiction
    | false =>
        have hname := tidy_of_not_finite hfinite
        rw [hnil] at hname
        revert hname
        decide
  exact ⟨hne, fun c hc => (hclass c hc).1, fun c hc => (hclass c hc).2.1,
    fun c hc => (hclass c hc).2.2⟩

theorem settled_polishWords (e : Expr Float) : ∀ w ∈ e.polishWords, Settled w := by
  induction e with
  | var => simpa [polishWords] using settled_x
  | const c => simpa [polishWords] using settled_tidy c
  | binary op l r ihl ihr =>
      simp only [polishWords, List.mem_append, List.mem_singleton]
      rintro w ((hw | hw) | rfl)
      exacts [ihl w hw, ihr w hw, settled_symbol op]
  | call fn a ih =>
      simp only [polishWords, List.mem_append, List.mem_singleton]
      rintro w (hw | rfl)
      exacts [ih w hw, settled_name fn]

/-- A settled word in front of a blank, or at the end, is the first word. -/
theorem Settled.words_append {w rest : List Char} (h : Settled w)
    (hrest : ∀ c ∈ rest.head?, isBlank c = true) : words (w ++ rest) = w :: words rest :=
  words_run_append h.ne_nil h.notBlank hrest

/-- The text of an expression in front of a blank, or at the end, is taken apart into its words. -/
theorem words_reversePolish_append (e : Expr Float) {rest : List Char}
    (hrest : ∀ c ∈ rest.head?, isBlank c = true) :
    words (e.toReversePolish ++ rest) = e.polishWords ++ words rest := by
  have hspace : isBlank ' ' = true := by decide
  have hspaces : ∀ cs : List Char, ∀ c ∈ (' ' :: cs).head?, isBlank c = true := by
    intro cs c hc
    cases hc
    exact hspace
  induction e generalizing rest with
  | var => exact settled_x.words_append hrest
  | const c => exact (settled_tidy c).words_append hrest
  | binary op l r ihl ihr =>
      have htext : (binary op l r).toReversePolish ++ rest =
          l.toReversePolish ++ ' ' :: (r.toReversePolish ++ ' ' :: ([op.symbol] ++ rest)) := by
        simp [toReversePolish, reversePolishWith]
      rw [htext, ihl (hspaces _), words_blank hspace, ihr (hspaces _), words_blank hspace,
        (settled_symbol op).words_append hrest]
      simp [polishWords]
  | call fn a ih =>
      have htext : (call fn a).toReversePolish ++ rest =
          a.toReversePolish ++ ' ' :: (fn.name ++ rest) := by
        simp [toReversePolish, reversePolishWith]
      rw [htext, ih (hspaces _), words_blank hspace, (settled_name fn).words_append hrest]
      simp [polishWords]

/-- The text of an expression is taken apart into its words. -/
theorem words_toReversePolish (e : Expr Float) :
    (words e.toReversePolish).map Text.lower = e.polishWords := by
  have hwords := @words_reversePolish_append e [] (by simp)
  have hnil : words [] = [] := by rw [words]; rfl
  rw [List.append_nil, hnil, List.append_nil] at hwords
  rw [hwords]
  have hlower := List.map_congr_left fun w hw => (settled_polishWords e w hw).lower_eq
  exact hlower.trans (List.map_id _)

/-! ## the stack -/

/-- A numeral goes onto the stack as its value. -/
theorem pushWord_numeral {w : List Char} {v : Float} (h : read? w = some v)
    (stack : List (Expr Float)) : pushWord stack w = .ok (const v :: stack) := by
  have hx : w ≠ ['x'] := by
    rintro rfl
    contradiction
  rw [pushWord, if_neg hx, h]

/-- A finite constant goes onto the stack as what its text is read as. -/
theorem pushWord_tidy {c : Float} (h : c.isFinite = true) (stack : List (Expr Float)) :
    pushWord stack (tidy c) = .ok (const (reread c) :: stack) :=
  pushWord_numeral (read?_tidy_eq_reread h) stack

/-- A constant that is not finite is illegal. -/
theorem pushWord_tidy_of_not_finite {c : Float} (h : c.isFinite = false)
    (stack : List (Expr Float)) : pushWord stack (tidy c) = .error (.illegalToken (tidy c)) := by
  have hname := tidy_of_not_finite h
  generalize tidy c = w at hname
  simp only [names, List.mem_cons, List.not_mem_nil, or_false] at hname
  rcases hname with rfl | rfl | rfl <;> rfl

/-- An operator's symbol is no other word. -/
theorem pushWord_symbol (op : Operator) (stack : List (Expr Float)) :
    pushWord stack [op.symbol] = pushOperator op stack := by
  cases op <;> rfl

/-- A function's name is no other word. -/
theorem pushWord_name (fn : Elementary) (stack : List (Expr Float)) :
    pushWord stack fn.name = pushCall fn stack := by
  cases fn <;> rfl

/-- The words of an expression put it on top of any stack, unless one of its constants is not
finite; then the first of those is illegal. -/
theorem foldlM_polishWords (e : Expr Float) (stack : List (Expr Float)) :
    e.polishWords.foldlM pushWord stack =
      match e.constants.find? (!·.isFinite) with
      | none => .ok (e.map reread :: stack)
      | some c => .error (.illegalToken (tidy c)) := by
  induction e generalizing stack with
  | var => rfl
  | const c =>
      cases hfinite : c.isFinite with
      | true =>
          simp [polishWords, constants, hfinite, pushWord_tidy hfinite, map]
      | false =>
          simp [polishWords, constants, hfinite, pushWord_tidy_of_not_finite hfinite]
  | binary op l r ihl ihr =>
      simp only [polishWords, constants, List.foldlM_append, List.find?_append, ihl]
      cases hl : l.constants.find? (!·.isFinite) with
      | some c => rfl
      | none =>
          simp only [ihr, Option.none_or]
          cases hr : r.constants.find? (!·.isFinite) with
          | some c => rfl
          | none =>
              have hpush := pushWord_symbol op (r.map reread :: l.map reread :: stack)
              simp only [bind, Except.bind, List.foldlM_cons, List.foldlM_nil, hpush]
              rfl
  | call fn a ih =>
      simp only [polishWords, constants, List.foldlM_append, ih]
      cases ha : a.constants.find? (!·.isFinite) with
      | some c => rfl
      | none =>
          have hpush := pushWord_name fn (a.map reread :: stack)
          simp only [bind, Except.bind, List.foldlM_cons, List.foldlM_nil, hpush]
          rfl

/-- An expression in reverse Polish notation is read up to the text of its constants, unless one of
them is not finite. -/
theorem ofReversePolish_eq (e : Expr Float) :
    ofReversePolish e.toReversePolish =
      match e.constants.find? (!·.isFinite) with
      | none => .ok (e.map reread)
      | some c => .error (.illegalToken (tidy c)) := by
  rw [ofReversePolish, words_toReversePolish, foldlM_polishWords]
  cases e.constants.find? (!·.isFinite) <;> rfl

/-- Constants that are written in the same way do not change the text. -/
theorem toReversePolish_map {f : Float → Float} (e : Expr Float)
    (h : ∀ c ∈ e.constants, tidy (f c) = tidy c) :
    (e.map f).toReversePolish = e.toReversePolish := by
  induction e with
  | var => rfl
  | const c => exact h c (List.mem_singleton_self c)
  | binary op l r ihl ihr =>
      obtain ⟨hleft, hright⟩ := forall_constants_binary.mp h
      have hl := ihl hleft
      have hr := ihr hright
      simp only [toReversePolish] at hl hr
      simp only [toReversePolish, map, reversePolishWith, hl, hr]
  | call fn a ih =>
      have ha := ih h
      simp only [toReversePolish] at ha
      simp only [toReversePolish, map, reversePolishWith, ha]

/-- Reverse Polish notation is read back exactly if all constants are finite, as the expression with
each constant replaced by what its text is read as, and that expression is written in the same way.
Otherwise the first constant that is not finite is the illegal token. -/
theorem ofReversePolish_toReversePolish (e : Expr Float) :
    ((∃ t, ofReversePolish e.toReversePolish = .ok t) ↔ ∀ c ∈ e.constants, c.isFinite = true) ∧
      (∀ t, ofReversePolish e.toReversePolish = .ok t →
        t = e.map reread ∧ (∀ c ∈ e.constants, read? (tidy c) = some (reread c)) ∧
          t.toReversePolish = e.toReversePolish) ∧
      ∀ c, e.constants.find? (!·.isFinite) = some c →
        ofReversePolish e.toReversePolish = .error (.illegalToken (tidy c)) := by
  have heq := ofReversePolish_eq e
  cases hfind : e.constants.find? (!·.isFinite) with
  | none =>
      have hfinite : ∀ c ∈ e.constants, c.isFinite = true := by simpa using hfind
      rw [hfind] at heq
      refine ⟨⟨fun _ => hfinite, fun _ => ⟨_, heq⟩⟩, ?_, fun c hc => by contradiction⟩
      intro t ht
      rw [heq] at ht
      cases ht
      exact ⟨rfl, fun c hc => read?_tidy_eq_reread (hfinite c hc),
        toReversePolish_map e fun c hc => tidy_reread (hfinite c hc)⟩
  | some c =>
      rw [hfind] at heq
      refine ⟨⟨?_, ?_⟩, ?_, ?_⟩
      · rintro ⟨t, ht⟩
        rw [heq] at ht
        contradiction
      · intro hall
        have hc := List.find?_some hfind
        rw [hall c (List.mem_of_find?_eq_some hfind)] at hc
        contradiction
      · intro t ht
        rw [heq] at ht
        contradiction
      · intro c' hc'
        cases hc'
        exact heq

/-- A half is read back, and the division by an infinity is refused with the infinity's name. -/
theorem ofReversePolish_half_and_infinity :
    let half := ofMagnitude false (1022 <<< 52)
    let infinity := ofMagnitude true infinityBits
    (∃ t, ofReversePolish (binary .mul (const half) var).toReversePolish = .ok t ∧
      t = (binary .mul (const half) var).map reread ∧ t.toReversePolish = "0.5 x *".toList) ∧
    (binary .div var (const infinity)).constants.find? (!·.isFinite) = some infinity ∧
      ofReversePolish (binary .div var (const infinity)).toReversePolish =
        .error (.illegalToken "-inf".toList) := by
  have hfinite : ∀ c ∈ (binary .mul (const (ofMagnitude false (1022 <<< 52))) var).constants,
      c.isFinite = true := by decide +kernel
  have htext : (binary .mul (const (ofMagnitude false (1022 <<< 52))) var).toReversePolish =
      "0.5 x *".toList := by decide +kernel
  obtain ⟨t, ht⟩ := (ofReversePolish_toReversePolish _).1.mpr hfinite
  obtain ⟨heq, -, hsame⟩ := (ofReversePolish_toReversePolish _).2.1 t ht
  have hfind : (binary .div var (const (ofMagnitude true infinityBits))).constants.find?
      (!·.isFinite) = some (ofMagnitude true infinityBits) := by decide +kernel
  have hname : tidy (ofMagnitude true infinityBits) = "-inf".toList := by decide +kernel
  have herror := (ofReversePolish_toReversePolish _).2.2 _ hfind
  rw [hname] at herror
  exact ⟨⟨t, ht, heq, hsame.trans htext⟩, hfind, herror⟩

end GraphCalc.Expr
