import GraphCalc.Proofs.Expr.Polish
import GraphCalc.Proofs.Outcome

/-!
# GraphCalc.Proofs.Expr.PostOrder

The grammar of reverse Polish notation, on words in lower case:

```
expr = x | numeral | expr expr operator | expr function
```

`PostOrder ws e` says that the words `ws` spell `e`, its operands before its operator or function and
the left operand before the right one.

Reading keeps a stack of expressions.  What carries the proof is that the stack is a forest at any
time: the words read so far are those of the lowest expression on it, then those of the next one, and
so on up to the top (`Forest`).

* `Forest.push`, `Forest.run` — a word keeps the stack a forest, and so does any number of them;
* `PostOrder.run` — the words of an expression put it on top of any stack;
* `ofReversePolish_iff_postOrder` — exactly the texts whose words spell an expression are read, each
  as the only expression that they spell.
-/

namespace GraphCalc.Expr

open Number Text

/-! ## words -/

/-- The words spell the expression in post-order. -/
inductive PostOrder : List (List Char) → Expr Float → Prop
  | var : PostOrder [['x']] var
  | const {w : List Char} {c : Float} (numeral : StandsFor w c) : PostOrder [w] (const c)
  | binary {us vs : List (List Char)} {l r : Expr Float} (op : Operator) (left : PostOrder us l)
      (right : PostOrder vs r) : PostOrder (us ++ vs ++ [[op.symbol]]) (binary op l r)
  | call {us : List (List Char)} {a : Expr Float} (fn : Elementary) (argument : PostOrder us a) :
      PostOrder (us ++ [fn.name]) (call fn a)

/-- The words read so far, with the expressions that they have put on the stack, the top one first. -/
inductive Forest : List (List Char) → List (Expr Float) → Prop
  | nil : Forest [] []
  | cons {us ws : List (List Char)} {stack : List (Expr Float)} {e : Expr Float}
      (below : Forest us stack) (top : PostOrder ws e) : Forest (us ++ ws) (e :: stack)

/-- A forest of one tree. -/
theorem Forest.postOrder {ws : List (List Char)} {e : Expr Float} (h : Forest ws [e]) :
    PostOrder ws e := by
  cases h with
  | cons below top =>
      cases below
      exact top

/-! ## the stack -/

/-- What a word does to the stack. -/
inductive Pushes : List Char → List (Expr Float) → List (Expr Float) → Prop
  | var {stack : List (Expr Float)} : Pushes ['x'] stack (var :: stack)
  | const {w : List Char} {c : Float} {stack : List (Expr Float)} (numeral : StandsFor w c) :
      Pushes w stack (const c :: stack)
  | binary {op : Operator} {l r : Expr Float} {stack : List (Expr Float)} :
      Pushes [op.symbol] (r :: l :: stack) (binary op l r :: stack)
  | call {fn : Elementary} {a : Expr Float} {stack : List (Expr Float)} :
      Pushes fn.name (a :: stack) (call fn a :: stack)

theorem pushes_of_pushWord {stack stack' : List (Expr Float)} {w : List Char}
    (h : pushWord stack w = .ok stack') : Pushes w stack stack' := by
  unfold pushWord at h
  split at h
  · next hx =>
    cases h
    rw [hx]
    exact .var
  · split at h
    · next v hread =>
      cases h
      exact .const (read?_eq_some_iff.mp hread)
    · next op _ hop =>
      unfold pushOperator at h
      split at h
      · cases h
        rw [← Operator.symbol_of_ofText? hop]
        exact .binary
      · contradiction
    · next fn _ _ hfn =>
      unfold pushCall at h
      split at h
      · cases h
        rw [← Elementary.name_of_ofName? hfn]
        exact .call
      · contradiction
    · contradiction

/-- A word that is used on a forest leaves a forest. -/
theorem Forest.push {us : List (List Char)} {stack stack' : List (Expr Float)} {w : List Char}
    (h : Forest us stack) (hpush : pushWord stack w = .ok stack') : Forest (us ++ [w]) stack' := by
  cases pushes_of_pushWord hpush with
  | var => exact h.cons .var
  | const numeral => exact h.cons (.const numeral)
  | @binary op =>
      -- the topmost expression is the right operand
      obtain _ | ⟨hbelow, hr⟩ := h
      obtain _ | ⟨hbelow, hl⟩ := hbelow
      have hforest := hbelow.cons (.binary op hl hr)
      simpa only [List.append_assoc] using hforest
  | @call fn =>
      obtain _ | ⟨hbelow, ha⟩ := h
      have hforest := hbelow.cons (.call fn ha)
      simpa only [List.append_assoc] using hforest

/-- Words that are used on a forest leave a forest. -/
theorem Forest.run {us ws : List (List Char)} {stack stack' : List (Expr Float)}
    (h : Forest us stack) (hrun : ws.foldlM pushWord stack = .ok stack') :
    Forest (us ++ ws) stack' := by
  induction ws generalizing us stack with
  | nil =>
      cases hrun
      rwa [List.append_nil]
  | cons w ws ih =>
      rw [List.foldlM_cons, bind_eq_ok] at hrun
      obtain ⟨next, hpush, hrest⟩ := hrun
      have hforest := ih (h.push hpush) hrest
      rwa [List.append_assoc, List.singleton_append] at hforest

/-- The words of an expression put it on top of any stack. -/
theorem PostOrder.run {ws : List (List Char)} {e : Expr Float} (h : PostOrder ws e)
    (stack : List (Expr Float)) : ws.foldlM pushWord stack = .ok (e :: stack) := by
  induction h generalizing stack with
  | var => rfl
  | const numeral =>
      have hpush := pushWord_numeral (read?_eq_some_iff.mpr numeral) stack
      rw [List.foldlM_cons, hpush]
      rfl
  | @binary us vs l r op _ _ ihl ihr =>
      have hpush := pushWord_symbol op (r :: l :: stack)
      simp only [List.foldlM_append, ihl, ihr, bind, Except.bind, List.foldlM_cons,
        List.foldlM_nil, hpush]
      rfl
  | @call us a fn _ ih =>
      have hpush := pushWord_name fn (a :: stack)
      simp only [List.foldlM_append, ih, bind, Except.bind, List.foldlM_cons, List.foldlM_nil,
        hpush]
      rfl

/-- Words spell an expression exactly if it is all that they leave on the stack. -/
theorem postOrder_iff {ws : List (List Char)} {e : Expr Float} :
    PostOrder ws e ↔ ws.foldlM pushWord [] = .ok [e] := by
  constructor
  · intro h
    exact h.run []
  · intro h
    exact (Forest.nil.run h).postOrder

/-- Words spell one expression at most. -/
theorem PostOrder.unique {ws : List (List Char)} {e e' : Expr Float} (h : PostOrder ws e)
    (h' : PostOrder ws e') : e = e' := by
  rw [postOrder_iff] at h h'
  rw [h] at h'
  cases h'
  rfl

/-! ## texts -/

/-- A text is read as what its words leave on the stack, if that is one expression. -/
theorem ofReversePolish_eq_ok_iff {text : List Char} {e : Expr Float} :
    ofReversePolish text = .ok e ↔ ((words text).map Text.lower).foldlM pushWord [] = .ok [e] := by
  rw [ofReversePolish, bind_eq_ok]
  constructor
  · rintro ⟨stack, hrun, hlast⟩
    split at hlast
    · cases hlast
      exact hrun
    · contradiction
  · intro hrun
    exact ⟨[e], hrun, rfl⟩

/-- A text is read as an expression exactly if the words that it is made of spell the expression, in
lower case.  Words spell one expression at most. -/
theorem ofReversePolish_iff_postOrder (text : List Char) (e : Expr Float) :
    (ofReversePolish text = .ok e ↔ ∃ ws, Separated text ws ∧ PostOrder (ws.map Text.lower) e) ∧
      ∀ ws e', PostOrder ws e → PostOrder ws e' → e = e' := by
  refine ⟨?_, fun ws e' => PostOrder.unique⟩
  rw [ofReversePolish_eq_ok_iff, ← postOrder_iff]
  constructor
  · intro h
    exact ⟨_, words_eq_iff.mp rfl, h⟩
  · rintro ⟨ws, hwords, h⟩
    rwa [words_eq_iff.mpr hwords]

end GraphCalc.Expr
