import Mathlib.Data.List.Basic
import GraphCalc.Outline
import GraphCalc.Proofs.Item.Nesting

/-!
# GraphCalc.Proofs.Token.Signs

Counting the signs of a line: the operators that stand where an operand is expected, which is at the
start, after an operator and after an opening parenthesis.
-/

namespace GraphCalc

/-! ## what comes after a list -/

section

variable {α : Type} (p : α → Bool)

/-- What `p` says of the last element, or `e` where there is none. -/
def ofLast (e : Bool) (xs : List α) : Bool := (xs.getLast?.map p).getD e

@[simp] theorem ofLast_nil (e : Bool) : ofLast p e [] = e := rfl

@[simp] theorem ofLast_cons (e : Bool) (x : α) (xs : List α) :
    ofLast p e (x :: xs) = ofLast p (p x) xs := by
  unfold ofLast
  rw [List.getLast?_cons]
  cases xs.getLast? <;> rfl

@[simp] theorem ofLast_append (e : Bool) (xs ys : List α) :
    ofLast p e (xs ++ ys) = ofLast p (ofLast p e xs) ys := by
  induction xs generalizing e with
  | nil => rfl
  | cons x xs ih => rw [List.cons_append, ofLast_cons, ofLast_cons, ih]

end

namespace Token

/-! ## signs -/

/-- After an operator or an opening parenthesis an operand is expected. -/
def expectsOperand (t : Token) : Bool :=
  match t.kind with
  | .operator _ => true
  | .opening => true
  | _ => false

theorem expectsOperand_of_operator {t : Token} {op : Operator} (h : t.kind = .operator op) :
    t.expectsOperand = true := by
  simp [expectsOperand, h]

theorem expectsOperand_of_opening {t : Token} (h : t.kind = .opening) :
    t.expectsOperand = true := by
  simp [expectsOperand, h]

/-- How many signs with the given operator there are among tokens. -/
def signs (op : Operator) : Bool → List Token → Nat
  | _, [] => 0
  | expectOperand, t :: ts =>
    (if expectOperand && t.kind == .operator op then 1 else 0) + signs op t.expectsOperand ts

theorem signs_append (op : Operator) (e : Bool) (a b : List Token) :
    signs op e (a ++ b) = signs op e a + signs op (ofLast expectsOperand e a) b := by
  induction a generalizing e with
  | nil => simp [signs]
  | cons t a ih =>
      rw [List.cons_append, signs, signs, ih, ofLast_cons]
      omega

theorem signs_le_length (op : Operator) (e : Bool) (ts : List Token) :
    signs op e ts ≤ ts.length := by
  induction ts generalizing e with
  | nil => exact Nat.le_refl 0
  | cons t ts ih =>
      have hrest := ih t.expectsOperand
      rw [signs, List.length_cons]
      split <;> omega

/-- Whether an operand is expected after items can be read off their tokens. -/
theorem ofLast_flatten {items : List Item} (h : Item.WellNested items) (e : Bool) :
    ofLast expectsOperand e (Item.flatten items) = ofLast Item.isOperator e items := by
  induction h generalizing e with
  | nil => rfl
  | @token t rest ho hc _ ih =>
      have hexpects : t.expectsOperand = (Item.token t).isOperator := by
        cases hk : t.kind <;>
          simp_all [expectsOperand, Item.isOperator, Item.operator?]
      rw [Item.flatten_token_cons, ofLast_cons, ofLast_cons, ih, hexpects]
  | @group o c inner rest _ _ hc _ _ ih =>
      have hexpects : c.expectsOperand = (Item.group o inner c).isOperator := by
        simp [expectsOperand, hc, Item.isOperator, Item.operator?]
      rw [Item.flatten_group_cons, ofLast_cons, ofLast_append, ofLast_cons, ofLast_cons, ih,
        hexpects]

end Token

end GraphCalc
