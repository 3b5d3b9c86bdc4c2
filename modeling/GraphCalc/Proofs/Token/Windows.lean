import GraphCalc.Proofs.Token.Spelling

/-!
# GraphCalc.Proofs.Token.Windows

Parts of a line that start and stop with a token.

Such a part is a line of its own: it has no blanks at its ends, and scanning it finds the same
tokens, counted from its start.

* `Spells.window` — the part of a line from one of its tokens to another spells what is between
  them;
* `scan_window` — and scanning that part finds these tokens, moved to its start.
-/

namespace GraphCalc.Token

open Text

/-! ## moving -/

/-- The token, its position counted from `d`. -/
def moved (d : Nat) (t : Token) : Token := { t with start := t.start - d }

@[simp] theorem moved_kind (d : Nat) (t : Token) : (t.moved d).kind = t.kind := rfl

@[simp] theorem moved_text (d : Nat) (t : Token) : (t.moved d).text = t.text := rfl

@[simp] theorem moved_start (d : Nat) (t : Token) : (t.moved d).start = t.start - d := rfl

/-- A text spells the same tokens at another position. -/
theorem Spells.moved {n d : Nat} {cs : List Char} {ts : List Token} (h : Spells n cs ts)
    (hd : d ≤ n) : Spells (n - d) cs (ts.map (Token.moved d)) := by
  induction h with
  | nil => exact .nil
  | @blank n c cs ts hblank _ ih =>
      have hrest := ih (by omega)
      rw [Nat.sub_add_comm hd] at hrest
      exact .blank hblank hrest
  | @token n kind text cs ts hformed hstops _ ih =>
      have hrest := ih (by omega)
      rw [Nat.sub_add_comm hd] at hrest
      exact .token hformed hstops hrest

/-- A text with tokens is not empty. -/
theorem Spells.ne_nil {n : Nat} {cs : List Char} {ts : List Token} (h : Spells n cs ts)
    (hts : ts ≠ []) : cs ≠ [] := by
  rintro rfl
  exact hts (List.length_eq_zero_iff.mp (Nat.le_zero.mp h.length_le))

/-! ## the first token -/

/-- Before the first token there are blanks only, and after it the other tokens are spelled. -/
theorem Spells.uncons {n : Nat} {cs : List Char} {t : Token} {ts : List Token}
    (h : Spells n cs (t :: ts)) : ∃ blanks rest, cs = blanks ++ (t.text ++ rest) ∧
      t.start = n + blanks.length ∧ Formed t.kind t.text ∧
      (∀ c ∈ rest.head?, t.kind.extends c = false) ∧ Spells t.stop rest ts := by
  generalize hall : t :: ts = all at h
  induction h with
  | nil => contradiction
  | @blank n c cs _ hblank _ ih =>
      obtain ⟨blanks, rest, rfl, hstart, hformed, hstops, hrest⟩ := ih hall
      refine ⟨c :: blanks, rest, rfl, ?_, hformed, hstops, hrest⟩
      rw [hstart, List.length_cons]
      omega
  | @token n kind text cs us hformed hstops hrest =>
      obtain ⟨rfl, rfl⟩ := List.cons.inj hall
      exact ⟨[], cs, rfl, rfl, hformed, hstops, hrest⟩

/-- From one of its tokens on, a text spells this and the later ones. -/
theorem Spells.from {n : Nat} {cs : List Char} {before us : List Token} {t : Token}
    (h : Spells n cs (before ++ t :: us)) : ∃ front rest, cs = front ++ rest ∧
      t.start = n + front.length ∧ Spells t.start rest (t :: us) ∧
      ∀ c ∈ rest.head?, isBlank c = false := by
  induction before generalizing n cs with
  | nil =>
      obtain ⟨blanks, rest, rfl, hstart, hformed, hstops, hrest⟩ := h.uncons
      refine ⟨blanks, t.text ++ rest, rfl, hstart, .token hformed hstops hrest, fun c hc => ?_⟩
      rw [List.head?_append_of_ne_nil _ hformed.ne_nil] at hc
      exact hformed.not_isBlank c (List.mem_of_mem_head? hc)
  | cons first before ih =>
      obtain ⟨blanks, rest, rfl, hstart, -, -, hrest⟩ := h.uncons
      obtain ⟨front, rest, rfl, hfront, hspells, hhead⟩ := ih hrest
      refine ⟨blanks ++ (first.text ++ front), rest, by simp, ?_, hspells, hhead⟩
      rw [hfront, Token.stop, hstart]
      simp only [List.length_append]
      omega

/-- Up to one of its tokens, a text spells this and the earlier ones. -/
theorem Spells.upTo {n : Nat} {cs : List Char} {us after : List Token} {t : Token}
    (h : Spells n cs (us ++ t :: after)) : ∃ front rest, cs = front ++ rest ∧
      t.stop = n + front.length ∧ Spells n front (us ++ [t]) ∧
      ∀ c ∈ front.getLast?, isBlank c = false := by
  generalize hall : us ++ t :: after = all at h
  induction h generalizing us with
  | nil => simp at hall
  | @blank n c cs _ hblank _ ih =>
      obtain ⟨front, rest, rfl, hstop, hspells, hlast⟩ := ih hall
      refine ⟨c :: front, rest, rfl, ?_, .blank hblank hspells, ?_⟩
      · rw [hstop, List.length_cons]
        omega
      · rwa [List.getLast?_cons_of_ne_nil (hspells.ne_nil (by simp))]
  | @token n kind text cs all hformed hstops hrest ih =>
      cases us with
      | nil =>
          obtain ⟨rfl, rfl⟩ := List.cons.inj hall
          refine ⟨text, cs, rfl, rfl, ?_, fun c hc => ?_⟩
          · have hspells : Spells n (text ++ []) [⟨kind, text, n⟩] := .token hformed (by simp) .nil
            rwa [List.append_nil] at hspells
          · exact hformed.not_isBlank c (List.mem_of_getLast? hc)
      | cons u us =>
          obtain ⟨rfl, rfl⟩ := List.cons.inj hall
          obtain ⟨front, rest, rfl, hstop, hspells, hlast⟩ := ih rfl
          have hne : front ≠ [] := hspells.ne_nil (by simp)
          refine ⟨text ++ front, rest, by simp, ?_, .token hformed (fun c hc => ?_) hspells, ?_⟩
          · rw [hstop, List.length_append]
            omega
          · refine hstops c ?_
            rwa [List.head?_append_of_ne_nil _ hne]
          · rwa [List.getLast?_append_of_ne_nil _ hne]

/-! ## windows -/

/-- The tokens of a text lie within it. -/
theorem Spells.within {n : Nat} {cs : List Char} {ts : List Token} (h : Spells n cs ts) :
    ∀ t ∈ ts, n ≤ t.start ∧ t.stop ≤ n + cs.length := by
  induction h with
  | nil => simp
  | blank _ _ ih =>
      intro t ht
      have hrest := ih t ht
      rw [List.length_cons]
      omega
  | @token n kind text cs ts _ _ _ ih =>
      intro t ht
      rw [List.length_append]
      rcases List.mem_cons.mp ht with rfl | ht
      · simp only [Token.stop]
        omega
      · have hrest := ih t ht
        omega

/-- A text without blanks at its ends is not changed by taking them off. -/
theorem strip_eq_self {cs : List Char} (hfirst : ∀ c ∈ cs.head?, isBlank c = false)
    (hlast : ∀ c ∈ cs.getLast?, isBlank c = false) : strip cs = cs := by
  have hleft : ∀ {cs : List Char}, (∀ c ∈ cs.head?, isBlank c = false) → stripLeft cs = cs := by
    intro cs h
    exact @dropWhile_append_of_stop _ [] _ (by simp) h
  rw [strip, hleft hfirst, hleft, List.reverse_reverse]
  rwa [List.head?_reverse]

/-- The part of a line between two of its tokens spells what is between them. -/
theorem Spells.window {line : List Char} {before us after : List Token} {first last : Token}
    (h : Spells 0 line (before ++ (us ++ after))) (hfirst : us.head? = some first)
    (hlast : us.getLast? = some last) :
    Spells first.start (Window.text ⟨first.start, last.stop⟩ line) us ∧
      strip (Window.text ⟨first.start, last.stop⟩ line) =
        Window.text ⟨first.start, last.stop⟩ line := by
  obtain ⟨rest, rfl⟩ := List.head?_eq_some_iff.mp hfirst
  obtain ⟨front, tail, rfl, hstart, hspells, hhead⟩ := Spells.from h
  obtain ⟨init, hinit⟩ := List.getLast?_eq_some_iff.mp hlast
  have hsplit : first :: rest.append after = init ++ last :: after := by
    show first :: rest ++ after = _
    rw [hinit, List.append_assoc, List.singleton_append]
  rw [hsplit] at hspells
  obtain ⟨body, tail, rfl, hstop, hbody, hend⟩ := hspells.upTo
  have htext : Window.text ⟨first.start, last.stop⟩ (front ++ (body ++ tail)) = body := by
    rw [Nat.zero_add] at hstart
    rw [hstop, hstart, Window.text, List.take_length_add_append, List.drop_left, List.take_left]
  rw [htext, hinit]
  refine ⟨hbody, strip_eq_self (fun c hc => ?_) hend⟩
  refine hhead c ?_
  rwa [List.head?_append_of_ne_nil _ (hbody.ne_nil (by simp))]

/-- Scanning the part of a line between two of its tokens finds them and what is between them. -/
theorem scan_window {line : List Char} {before us after : List Token} {first last : Token}
    (h : scan line = .ok (before ++ (us ++ after))) (hfirst : us.head? = some first)
    (hlast : us.getLast? = some last) :
    scan (Window.text ⟨first.start, last.stop⟩ line) = .ok (us.map (Token.moved first.start)) := by
  have hspells := ((scanFrom_eq_ok_iff.mp h).window hfirst hlast).1.moved (Nat.le_refl _)
  rw [Nat.sub_self] at hspells
  exact scanFrom_eq_ok_iff.mpr hspells

end GraphCalc.Token
