import GraphCalc.Proofs.Outcome
import GraphCalc.Proofs.Text.Classes
import GraphCalc.Proofs.Text.Runs

/-!
# GraphCalc.Proofs.Token.Spelling

How a line spells its tokens.

`Token.Formed` says which texts a token of each kind can have, and `Token.Spells` lays tokens out
over a line: blanks may stand anywhere between them, and a token ends where its run does.  Scanning
finds exactly that layout:

* `scanFrom_eq_ok_iff` — `scanFrom` returns the tokens a text spells, and no others;
* `Spells.formed`, `Spells.length_le` — what the tokens of a line are like, and how many there can
  be.
-/

namespace GraphCalc.Token

open Text

/-! ## the texts of tokens -/

/-- The texts that a token of each kind can have. -/
inductive Formed : Kind → List Char → Prop
  | number {text : List Char} (nonempty : text ≠ []) (digits : ∀ c ∈ text, inNumber c = true)
      (periods : secondPeriod? text = none) (notAlone : text ≠ ['.']) : Formed .number text
  | word {c : Char} {cs : List Char} (starts : startsWord c = true) (notDigit : inNumber c = false)
      (continues : ∀ d ∈ cs, continuesWord d = true) : Formed .word (c :: cs)
  | single {c : Char} {kind : Kind} (is : single? c = some kind) : Formed kind [c]

/-- The characters that make a token of the given kind longer. -/
def Kind.extends : Kind → Char → Bool
  | number => inNumber
  | word => continuesWord
  | _ => fun _ => false

/-- The seven single characters neither start a number nor a word. -/
theorem inNumber_startsWord_of_single? {c : Char} {kind : Kind} (h : single? c = some kind) :
    inNumber c = false ∧ startsWord c = false := by
  unfold single? at h
  split at h
  · decide
  · decide
  · obtain ⟨op, hop, -⟩ := Option.map_eq_some_iff.mp h
    rw [← Operator.symbol_of_ofSymbol? hop]
    cases op <;> decide

/-- Numbers and words have their own kinds. -/
theorem kind_of_single? {c : Char} {kind : Kind} (h : single? c = some kind) :
    kind ≠ .number ∧ kind ≠ .word := by
  unfold single? at h
  split at h
  · cases h; decide
  · cases h; decide
  · obtain ⟨op, -, rfl⟩ := Option.map_eq_some_iff.mp h
    simp

theorem Formed.inNumber {text : List Char} (h : Formed .number text) :
    ∀ c ∈ text, Token.inNumber c = true := by
  cases h with
  | number _ hdigits => exact hdigits
  | single his => exact absurd rfl (kind_of_single? his).1

theorem Formed.startsWord {text : List Char} (h : Formed .word text) :
    ∃ c cs, text = c :: cs ∧ Text.startsWord c = true ∧ Token.inNumber c = false := by
  cases h with
  | word hstarts hnotDigit => exact ⟨_, _, rfl, hstarts, hnotDigit⟩
  | single his => exact absurd rfl (kind_of_single? his).2

/-- A single character is a token by itself, whatever comes next. -/
theorem extends_of_single? {c : Char} {kind : Kind} (h : single? c = some kind) (d : Char) :
    kind.extends d = false := by
  unfold single? at h
  split at h
  · cases h; rfl
  · cases h; rfl
  · obtain ⟨op, -, rfl⟩ := Option.map_eq_some_iff.mp h
    rfl

/-- A run stops at a character that does not make it longer. -/
theorem Kind.stops_cons {kind : Kind} {c : Char} (h : kind.extends c = false) (cs : List Char) :
    ∀ d ∈ (c :: cs).head?, kind.extends d = false := by
  simpa using h

theorem Formed.ne_nil {kind : Kind} {text : List Char} (h : Formed kind text) : text ≠ [] := by
  cases h with
  | number hne => exact hne
  | word => exact List.cons_ne_nil _ _
  | single => exact List.cons_ne_nil _ _

/-- The variable is a word. -/
theorem formed_variable : Formed .word ['x'] := .word (by decide) (by decide) (by simp)

/-- No character of a token is blank. -/
theorem Formed.not_isBlank {kind : Kind} {text : List Char} (h : Formed kind text) :
    ∀ c ∈ text, isBlank c = false := by
  intro c hc
  cases h with
  | number _ hdigits => exact not_isBlank_of_inNumber (hdigits c hc)
  | word hstarts _ hcontinues =>
      rcases List.mem_cons.mp hc with rfl | hc
      · exact not_isBlank_of_continuesWord (continuesWord_of_startsWord hstarts)
      · exact not_isBlank_of_continuesWord (hcontinues c hc)
  | single his =>
      rw [List.mem_singleton.mp hc]
      exact not_isBlank_of_single? his

/-! ## layout -/

/-- A text at position `n` of its line spells tokens, one after the other. -/
inductive Spells : Nat → List Char → List Token → Prop
  | nil {n : Nat} : Spells n [] []
  | blank {n : Nat} {c : Char} {cs : List Char} {ts : List Token} (isBlank : isBlank c = true)
      (rest : Spells (n + 1) cs ts) : Spells n (c :: cs) ts
  | token {n : Nat} {kind : Kind} {text cs : List Char} {ts : List Token}
      (formed : Formed kind text) (stops : ∀ c ∈ cs.head?, kind.extends c = false)
      (rest : Spells (n + text.length) cs ts) : Spells n (text ++ cs) (⟨kind, text, n⟩ :: ts)

theorem Spells.formed {n : Nat} {cs : List Char} {ts : List Token} (h : Spells n cs ts) :
    ∀ t ∈ ts, Formed t.kind t.text := by
  induction h with
  | nil => simp
  | blank _ _ ih => exact ih
  | token hformed _ _ ih =>
      intro t ht
      rcases List.mem_cons.mp ht with rfl | ht
      · exact hformed
      · exact ih t ht

/-- A line has no more tokens than characters. -/
theorem Spells.length_le {n : Nat} {cs : List Char} {ts : List Token} (h : Spells n cs ts) :
    ts.length ≤ cs.length := by
  induction h with
  | nil => simp
  | blank _ _ ih =>
      rw [List.length_cons]
      omega
  | token hformed _ _ ih =>
      have hpos := List.length_pos_iff.mpr hformed.ne_nil
      rw [List.length_cons, List.length_append]
      omega

/-- A text goes on behind another one, unless it makes the last token of that one longer. -/
theorem Spells.append {n : Nat} {a b : List Char} {ts us : List Token} (ha : Spells n a ts)
    (hb : Spells (n + a.length) b us)
    (hstops : ∀ c ∈ b.head?, ∀ kind : Kind, kind.extends c = false) :
    Spells n (a ++ b) (ts ++ us) := by
  induction ha with
  | nil => exact hb
  | @blank n c cs _ hblank _ ih =>
      refine .blank hblank (ih ?_)
      rwa [List.length_cons, ← Nat.add_assoc, Nat.add_right_comm] at hb
  | @token n kind text cs _ hformed hrun _ ih =>
      rw [List.append_assoc]
      refine .token hformed (fun c hc => ?_) (ih ?_)
      · cases cs with
        | nil => exact hstops c hc kind
        | cons d cs => exact hrun c hc
      · rwa [List.length_append, ← Nat.add_assoc] at hb

/-! ## scanning -/

/-- The flaw of a run does not depend on where it stands. -/
theorem numberFlaw?_eq_none_iff {run : List Char} {start : Nat} :
    numberFlaw? run start = none ↔ secondPeriod? run = none ∧ run ≠ ['.'] := by
  unfold numberFlaw?
  cases h : secondPeriod? run with
  | none => simp
  | some i => simp

/-- A run of digits and periods without a flaw is a number. -/
theorem formed_number_run {n : Nat} {c : Char} {cs : List Char} (hc : inNumber c = true)
    (h : numberFlaw? (c :: cs.takeWhile inNumber) n = none) :
    Formed .number (c :: cs.takeWhile inNumber) := by
  have hrun : ∀ d ∈ c :: cs.takeWhile inNumber, inNumber d = true :=
    List.forall_mem_cons.mpr ⟨hc, fun d hd => List.mem_takeWhile_imp hd⟩
  obtain ⟨hperiods, halone⟩ := numberFlaw?_eq_none_iff.mp h
  exact .number (List.cons_ne_nil _ _) hrun hperiods halone

/-- A run that starts a word is a word. -/
theorem formed_word_run {c : Char} (hc : startsWord c = true) (hnot : ¬inNumber c = true)
    (cs : List Char) : Formed .word (c :: cs.takeWhile continuesWord) :=
  .word hc (by simpa using hnot) fun _ hd => List.mem_takeWhile_imp hd

/-- Every token that scanning finds is spelled where it was found. -/
theorem spells_of_scanFrom {n : Nat} {cs : List Char} {ts : List Token}
    (h : scanFrom n cs = .ok ts) : Spells n cs ts := by
  fun_induction scanFrom n cs generalizing ts
  case case1 =>
      rw [Except.ok.injEq] at h
      subst h
      exact .nil
  case case2 n c cs hblank ih => exact .blank hblank (ih h)
  case case3 => contradiction
  case case4 n c cs _ hnumber run hflaw ih =>
      obtain ⟨us, hus, h⟩ := bind_eq_ok.mp h
      rw [← Except.ok.inj h]
      have hspells := Spells.token (formed_number_run hnumber hflaw)
        (head?_dropWhile_stop inNumber cs) (ih hus)
      rwa [List.cons_append, List.takeWhile_append_dropWhile] at hspells
  case case5 n c cs _ hnumber hword run ih =>
      obtain ⟨us, hus, h⟩ := bind_eq_ok.mp h
      rw [← Except.ok.inj h]
      have hspells := Spells.token (formed_word_run hword hnumber cs)
        (head?_dropWhile_stop continuesWord cs) (ih hus)
      rwa [List.cons_append, List.takeWhile_append_dropWhile] at hspells
  case case6 n c cs _ _ _ kind hkind ih =>
      obtain ⟨us, hus, h⟩ := bind_eq_ok.mp h
      rw [← Except.ok.inj h]
      exact .token (.single hkind) (fun d _ => extends_of_single? hkind d) (ih hus)
  case case7 => contradiction

theorem scanFrom_blank {n : Nat} {c : Char} {cs : List Char} (h : isBlank c = true) :
    scanFrom n (c :: cs) = scanFrom (n + 1) cs := by
  rw [scanFrom, if_pos h]

/-- A whole token in front is found, and scanning goes on behind it. -/
theorem scanFrom_token {n : Nat} {kind : Kind} {text cs : List Char} (h : Formed kind text)
    (hstops : ∀ c ∈ cs.head?, kind.extends c = false) :
    scanFrom n (text ++ cs) =
      (scanFrom (n + text.length) cs).bind fun ts => .ok (⟨kind, text, n⟩ :: ts) := by
  have hblank := h.not_isBlank
  cases h with
  | number hne hdigits hperiods halone =>
      obtain ⟨c, run, rfl⟩ := List.exists_cons_of_ne_nil hne
      have hrun : ∀ d ∈ run, inNumber d = true := fun d hd => hdigits d (by simp [hd])
      have hflaw : numberFlaw? (c :: run) n = none :=
        numberFlaw?_eq_none_iff.mpr ⟨hperiods, halone⟩
      rw [List.cons_append, scanFrom, hblank c (by simp), hdigits c (by simp)]
      simp only [Bool.false_eq_true, if_false, if_true,
        takeWhile_append_of_stop hrun hstops, dropWhile_append_of_stop hrun hstops, hflaw]
      rfl
  | @word c run hstarts hnotDigit hcontinues =>
      rw [List.cons_append, scanFrom, hblank c (by simp), hnotDigit, hstarts]
      simp only [Bool.false_eq_true, if_false, if_true,
        takeWhile_append_of_stop hcontinues hstops,
        dropWhile_append_of_stop hcontinues hstops]
      rfl
  | @single c _ his =>
      obtain ⟨hnumber, hword⟩ := inNumber_startsWord_of_single? his
      rw [List.cons_append, scanFrom, hblank c (by simp), hnumber, hword]
      simp only [Bool.false_eq_true, if_false, his, List.nil_append]
      rfl

/-- Scanning finds the tokens that a text spells. -/
theorem Spells.scanFrom_eq {n : Nat} {cs : List Char} {ts : List Token} (h : Spells n cs ts) :
    scanFrom n cs = .ok ts := by
  induction h with
  | nil => rw [scanFrom]
  | blank hblank _ ih => rw [scanFrom_blank hblank, ih]
  | token hformed hstops _ ih =>
      rw [scanFrom_token hformed hstops, ih]
      rfl

/-- Scanning and spelling are two sides of one thing. -/
theorem scanFrom_eq_ok_iff {n : Nat} {cs : List Char} {ts : List Token} :
    scanFrom n cs = .ok ts ↔ Spells n cs ts :=
  ⟨spells_of_scanFrom, Spells.scanFrom_eq⟩

end GraphCalc.Token
