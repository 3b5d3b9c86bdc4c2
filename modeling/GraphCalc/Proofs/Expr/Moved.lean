import GraphCalc.Proofs.Expr.Limit
import GraphCalc.Proofs.Outline.Relabelled
import GraphCalc.Proofs.Token.Windows

/-!
# GraphCalc.Proofs.Expr.Moved

Reading a part of a line as a line of its own.

Items whose positions are counted from the start of the part have the same outline, with the same
operands, and the same flaws in their new place.  A complaint shows a part of the line and counts
from its start, so it does not change at all:

* `Outline.ofItems_moved` — the outline moves with the items;
* `Expr.ofItems_moved` — what the items are read as, or refused for, stays the same.
-/

namespace GraphCalc

/-! ## moved items -/

mutual

/-- The item, its positions counted from `d`. -/
def Item.moved (d : Nat) : Item → Item
  | .token t => .token (t.moved d)
  | .group o inner c => .group (o.moved d) (Item.allMoved d inner) (c.moved d)

/-- The items, their positions counted from `d`. -/
def Item.allMoved (d : Nat) : List Item → List Item
  | [] => []
  | item :: items => item.moved d :: Item.allMoved d items

end

/-- The flaw, its position counted from `d`. -/
def Flaw.moved (d : Nat) : Flaw → Flaw
  | located problem start length => .located problem (start - d) length
  | empty => .empty
  | tooDeep => .tooDeep

/-- The outline, its positions counted from `d`. -/
def Outline.moved (d : Nat) : Outline → Outline
  | single t => single (t.moved d)
  | call name argument => call (name.moved d) (Item.allMoved d argument)
  | negation operand => negation (Item.allMoved d operand)
  | binary op left right => binary op (Item.allMoved d left) (Item.allMoved d right)

variable (d : Nat)

/-- Counting positions from `d` on, as a relabelling. -/
def Relabelling.moving : Relabelling := ⟨id, (· - d), fun _ => rfl⟩

namespace Item

/-- Moved items are relabelled ones. -/
theorem allMoved_eq (items : List Item) : allMoved d items = allRelabelled (.moving d) items :=
  match items with
  | [] => by rw [allMoved, allRelabelled]
  | token t :: items => by
      rw [allMoved, moved, allMoved_eq items, allRelabelled_cons, relabelled_token]
      rfl
  | group o inner c :: items => by
      rw [allMoved, moved, allMoved_eq inner, allMoved_eq items, allRelabelled_cons,
        relabelled_group]
      rfl

@[simp] theorem allMoved_nil : allMoved d [] = [] := by rw [allMoved]

/-- Moving items moves their tokens. -/
theorem flatten_allMoved (items : List Item) :
    flatten (allMoved d items) = (flatten items).map (Token.moved d) := by
  rw [allMoved_eq, flatten_allRelabelled]
  rfl

/-- Moved items are as well nested as the items. -/
theorem WellNested.allMoved {items : List Item} (h : WellNested items) :
    WellNested (allMoved d items) := by
  rw [allMoved_eq]
  exact h.allRelabelled _

end Item

open Item

/-! ## moved outlines -/

namespace Outline

/-- The outcome of finding an outline, its positions counted from `d`. -/
def outcomeMoved : Except Flaw Outline → Except Flaw Outline
  | .ok outline => .ok (outline.moved d)
  | .error flaw => .error (flaw.moved d)

theorem outcomeMoved_eq (outcome : Except Flaw Outline) :
    outcomeMoved d outcome = relabelOutcome (.moving d) (Outline.relabelled (.moving d)) outcome := by
  match outcome with
  | .ok (.single t) => rfl
  | .ok (.call ..) | .ok (.negation _) | .ok (.binary ..) =>
      simp only [outcomeMoved, Outline.moved, allMoved_eq]
      rfl
  | .error flaw => cases flaw <;> rfl

/-- The outline moves with the items. -/
theorem ofItems_moved (n : Nat) (items : List Item) :
    ofItems n (allMoved d items) = outcomeMoved d (ofItems n items) := by
  rw [allMoved_eq, ofItems_relabelled, outcomeMoved_eq]

end Outline

/-! ## windows in windows -/

/-- The window, its ends counted from `d`. -/
def Window.moved (d : Nat) (w : Window) : Window := ⟨w.start - d, w.stop - d⟩

/-- The window lies in the part of the line from `d` to `stop`. -/
structure Window.Within (d stop : Nat) (w : Window) : Prop where
  start : d ≤ w.start
  low : d ≤ w.stop
  high : w.stop ≤ stop

variable {d} {stop : Nat} {line : List Char}

/-- A part of a part of the line is a part of the line. -/
theorem Window.text_moved {w : Window} (h : Within d stop w) :
    (w.moved d).text (Window.text ⟨d, stop⟩ line) = w.text line := by
  obtain ⟨hstart, hlow, hhigh⟩ := h
  have htake : min (d + (w.stop - d)) stop = w.stop := by omega
  have hdrop : d + (w.start - d) = w.start := by omega
  simp only [Window.text, Window.moved]
  rw [List.take_drop, List.take_take, List.drop_drop, htake, hdrop]

/-- A complaint about a part of the line does not depend on where positions are counted from. -/
theorem Flaw.refusal_moved {w : Window} (h : w.Within d stop) (flaw : Flaw) :
    (flaw.moved d).refusal (Window.text ⟨d, stop⟩ line) (w.moved d) = flaw.refusal line w := by
  cases flaw with
  | located problem start length =>
      have hstart := h.start
      have hcount : start - d - (w.start - d) = start - w.start := by omega
      simp only [Flaw.moved, Flaw.refusal, Window.text_moved h]
      rw [Window.moved, hcount]
  | empty => rfl
  | tooDeep => rfl

/-- The tokens lie in the part of the line from `d` to `stop`. -/
def Token.AllWithin (d stop : Nat) (ts : List Token) : Prop :=
  ∀ t ∈ ts, d ≤ t.start ∧ t.stop ≤ stop

/-- Items that are not empty cover a part of the part that their tokens lie in. -/
theorem Item.within_window {items : List Item} (hne : items ≠ [])
    (h : Token.AllWithin d stop (flatten items)) : (Item.window items).Within d stop := by
  have ha : items.head? = some (items.head hne) := List.head?_eq_some_head hne
  have hb : items.getLast? = some (items.getLast hne) := List.getLast?_eq_some_getLast hne
  generalize items.head hne = a at ha
  generalize items.getLast hne = b at hb
  have hfirst : a.first ∈ flatten items :=
    List.mem_of_mem_head? (by rw [head?_flatten, ha]; rfl)
  have hlast : b.last ∈ flatten items :=
    List.mem_of_getLast? (by rw [getLast?_flatten, hb]; rfl)
  have hlow : b.last.start ≤ b.last.stop := Nat.le_add_right _ _
  have hwindow : Item.window items = ⟨a.first.start, b.last.stop⟩ := by
    rw [Item.window, ha, hb]
  rw [hwindow]
  exact ⟨(h _ hfirst).1, (h _ hlast).1.trans hlow, (h _ hlast).2⟩

/-- The window moves with the items. -/
theorem Item.window_allMoved {items : List Item} (h : Token.AllWithin d stop (flatten items)) :
    Item.window (allMoved d items) = (Item.window items).moved d := by
  rw [Item.window_eq, Item.window_eq, flatten_allMoved, List.head?_map,
    List.getLast?_map]
  cases (flatten items).head? with
  | none => simp [Window.moved]
  | some a =>
      cases hlast : (flatten items).getLast? with
      | none => simp [Window.moved]
      | some b =>
          have hb := (h b (List.mem_of_getLast? hlast)).1
          have hstop : (b.moved d).stop = b.stop - d := by
            simp only [Token.stop, Token.moved_start, Token.moved_text]
            omega
          simp [Window.moved, hstop]

/-! ## moved expressions -/

namespace Expr

/-- There is nothing to read in no items, whatever the line. -/
theorem ofItems_nil (line line' : List Char) (n : Nat) (w w' : Window) :
    ofItems line n w [] = ofItems line' n w' [] := by
  cases n with
  | zero => rfl
  | succ n =>
      have hempty : Outline.ofItems (n + 1) [] = .error .empty := by
        rw [Outline.ofItems_succ, unwrap, Outline.look_of_noOperator (by simp)]
        · rfl
        · simp
      rw [ofItems_succ, ofItems_succ, hempty]
      rfl

/-- What the items are read as, or refused for, does not depend on where positions are counted
from. -/
theorem ofItems_moved {n : Nat} {items : List Item} {w : Window} (hw : w.Within d stop)
    (h : Token.AllWithin d stop (flatten items)) :
    ofItems (Window.text ⟨d, stop⟩ line) n (w.moved d) (allMoved d items) =
      ofItems line n w items := by
  induction n generalizing items w with
  | zero => rfl
  | succ n ih =>
      rw [ofItems_succ, ofItems_succ, Outline.ofItems_moved]
      cases hfound : Outline.ofItems (n + 1) items with
      | error flaw => simp only [Outline.outcomeMoved, Flaw.refusal_moved hw]
      | ok outline =>
          have htop := Outline.top_of_ofItems hfound
          have hoperand : ∀ operand ∈ outline.operands,
              ofItems (Window.text ⟨d, stop⟩ line) n (Item.window (allMoved d operand))
                (allMoved d operand) = ofItems line n (Item.window operand) operand := by
            intro operand hmem
            have hinside : Token.AllWithin d stop (flatten operand) :=
              fun t ht => h t ((htop.infix_operand operand hmem).subset ht)
            by_cases hne : operand = []
            · rw [hne, allMoved_nil]
              exact ofItems_nil _ _ _ _ _
            · rw [Item.window_allMoved hinside]
              exact ih (Item.within_window hne hinside) hinside
          simp only [Outline.outcomeMoved]
          cases outline with
          | single t => rfl
          | call name argument =>
              simp only [Outline.moved, ofOutline, Token.moved_text,
                hoperand argument (by simp [Outline.operands])]
          | negation operand =>
              simp only [Outline.moved, ofOutline]
              rw [hoperand operand (by simp [Outline.operands])]
          | binary op left right =>
              simp only [Outline.moved, ofOutline]
              rw [hoperand left (by simp [Outline.operands]),
                hoperand right (by simp [Outline.operands])]

end Expr

/-! ## operands as lines -/

section

variable {operand : List Item} {line : List Char}

/-- No items cover no text. -/
theorem text_window_nil (line : List Char) : (Item.window []).text line = [] := by
  simp [Item.window, Window.text]

/-- Items that are not empty cover the line from the first to the last of their tokens. -/
theorem exists_window (hne : operand ≠ []) : ∃ first last,
    (flatten operand).head? = some first ∧ (flatten operand).getLast? = some last ∧
      Item.window operand = ⟨first.start, last.stop⟩ := by
  have hfirst := head?_flatten operand
  have hlast := getLast?_flatten operand
  rw [List.head?_eq_some_head hne, Option.map_some] at hfirst
  rw [List.getLast?_eq_some_getLast hne, Option.map_some] at hlast
  refine ⟨_, _, hfirst, hlast, ?_⟩
  rw [Item.window_eq, hfirst, hlast]

variable {before after : List Token}

/-- The text of items next to each other is a line of its own, with the same items in their new
place. -/
theorem ofLine_window (hnested : WellNested operand)
    (hscan : Token.scan line = .ok (before ++ (flatten operand ++ after))) :
    Item.ofLine ((Item.window operand).text line) =
      .ok (allMoved (Item.window operand).start operand) := by
  refine ofLine_eq_ok_iff.mpr ⟨hnested.allMoved _, ?_⟩
  rw [flatten_allMoved]
  by_cases hne : operand = []
  · rw [hne, text_window_nil, flatten_nil]
    exact Token.scanFrom_eq_ok_iff.mpr .nil
  · obtain ⟨first, last, hfirst, hlast, hwindow⟩ := exists_window hne
    rw [hwindow]
    exact Token.scan_window hscan hfirst hlast

/-- Items next to each other cover a part of the line that has their tokens in it and nothing in
front or behind. -/
theorem window_spans (hne : operand ≠ [])
    (hscan : Token.scan line = .ok (before ++ (flatten operand ++ after))) :
    ((Item.window operand).text line).length =
        (Item.window operand).stop - (Item.window operand).start ∧
      Token.AllWithin (Item.window operand).start (Item.window operand).stop (flatten operand) := by
  obtain ⟨first, last, hfirst, hlast, hwindow⟩ := exists_window hne
  rw [hwindow]
  have hspells := ((Token.scanFrom_eq_ok_iff.mp hscan).window hfirst hlast).1
  have hhigh := (hspells.within last (List.mem_of_getLast? hlast))
  have hstop : last.start ≤ last.stop := Nat.le_add_right _ _
  have hlength : (Window.text ⟨first.start, last.stop⟩ line).length = last.stop - first.start := by
    simp only [Window.text, List.length_drop, List.length_take] at hhigh ⊢
    omega
  refine ⟨hlength, fun t ht => ?_⟩
  have hwithin := hspells.within t ht
  rw [hlength] at hwithin
  dsimp only
  omega

/-- An operand is read as its text is. -/
theorem ofAlgebraic_window (hnested : WellNested operand)
    (hscan : Token.scan line = .ok (before ++ (flatten operand ++ after))) (n : Nat) :
    Expr.ofAlgebraic n ((Item.window operand).text line) =
      Expr.ofItems line n (Item.window operand) operand := by
  rw [Expr.ofAlgebraic, ofLine_window hnested hscan]
  dsimp only
  by_cases hne : operand = []
  · rw [hne, allMoved_nil]
    exact Expr.ofItems_nil _ _ _ _ _
  · obtain ⟨hlength, hinside⟩ := window_spans hne hscan
    have hmoved := @Expr.ofItems_moved _ _ line n _ _
      (Item.within_window hne hinside) hinside
    rw [hlength, ← hmoved, Window.moved, Nat.sub_self]

end

end GraphCalc
