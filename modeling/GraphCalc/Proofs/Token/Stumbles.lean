import GraphCalc.Proofs.Token.Spans

/-!
# GraphCalc.Proofs.Token.Stumbles

Lines that have no tokens, and the character each of them is refused for.

`Stumbles n cs problem i` is to the flaws of a text what `Spells n cs ts` is to its tokens: blanks and
whole tokens are passed over, up to a character that starts no token, a second period in a run, or a
period that is alone.

* `scanFrom_eq_error_iff` — scanning is refused where a text stumbles, and nowhere else;
* `scan_lexed_or_refused` — a line has one list of spans, which scanning finds, or it stumbles;
* `Stumbles.marks` — what a text stumbles over is one of its characters, and no blank.
-/

namespace GraphCalc

/-- The character that a problem is one of, if it is not one of a token. -/
def Problem.character? : Problem → Option Char
  | unrecognized c => some c
  | secondPeriod | lonePeriod => some '.'
  | _ => none

end GraphCalc

namespace GraphCalc.Token

open Text

/-! ## periods -/

/-- The second period of a run has one period in front of it. -/
theorem split_of_secondPeriod? {run : List Char} {i : Nat} (h : secondPeriod? run = some i) :
    ∃ front behind, run = front ++ '.' :: behind ∧ front.length = i ∧ front.count '.' = 1 := by
  induction run generalizing i with
  | nil => simp [secondPeriod?] at h
  | cons c cs ih =>
      by_cases hc : c = '.'
      · subst hc
        rw [secondPeriod?_period, Option.map_eq_some_iff] at h
        obtain ⟨k, hk, rfl⟩ := h
        obtain ⟨hlt, hdot, hbefore⟩ := List.findIdx?_eq_some_iff_getElem.mp hk
        have hsplit : cs = cs.take k ++ '.' :: cs.drop (k + 1) := by
          have hperiod : cs[k] = '.' := beq_iff_eq.mp hdot
          rw [← hperiod, ← List.drop_eq_getElem_cons hlt, List.take_append_drop]
        have hnone : '.' ∉ cs.take k := by
          intro hmem
          obtain ⟨j, hj, hat⟩ := List.getElem_of_mem hmem
          rw [List.getElem_take] at hat
          rw [List.length_take] at hj
          exact hbefore j (by omega) (beq_iff_eq.mpr hat)
        refine ⟨'.' :: cs.take k, cs.drop (k + 1), congrArg ('.' :: ·) hsplit, ?_, ?_⟩
        · rw [List.length_cons, List.length_take]
          omega
        · rw [List.count_cons_self, List.count_eq_zero.mpr hnone]
      · rw [secondPeriod?_cons hc, Option.map_eq_some_iff] at h
        obtain ⟨k, hk, rfl⟩ := h
        obtain ⟨front, behind, rfl, rfl, hcount⟩ := ih hk
        exact ⟨c :: front, behind, rfl, rfl, by rw [List.count_cons_of_ne hc, hcount]⟩

/-- A period behind a run with one period is the second one. -/
theorem secondPeriod?_append {run : List Char} (h : run.count '.' = 1) (cs : List Char) :
    secondPeriod? (run ++ '.' :: cs) = some run.length := by
  induction run with
  | nil => simp at h
  | cons c run ih =>
      by_cases hc : c = '.'
      · subst hc
        rw [List.count_cons_self, Nat.add_eq_right, List.count_eq_zero] at h
        have hnone : run.findIdx? (· == '.') = none := by
          rw [List.findIdx?_eq_none_iff]
          exact fun d hd => beq_eq_false_iff_ne.mpr fun hdot => h (hdot ▸ hd)
        rw [List.cons_append, secondPeriod?_period, List.findIdx?_append, hnone]
        simp [List.findIdx?_cons, Nat.add_comm]
      · rw [List.count_cons_of_ne hc] at h
        rw [List.cons_append, secondPeriod?_cons hc, ih h]
        rfl

/-! ## where scanning stops -/

/-- A text at position `n` of its line has tokens and blanks up to position `i`, and there the
problem. -/
inductive Stumbles : Nat → List Char → Problem → Nat → Prop
  | unrecognized {n : Nat} {c : Char} {cs : List Char} (notBlank : isBlank c = false)
      (notNumber : inNumber c = false) (notWord : startsWord c = false)
      (notSingle : single? c = none) : Stumbles n (c :: cs) (.unrecognized c) n
  | secondPeriod {n : Nat} {run cs : List Char} (digits : ∀ c ∈ run, inNumber c = true)
      (onePeriod : run.count '.' = 1) : Stumbles n (run ++ '.' :: cs) .secondPeriod (n + run.length)
  | lonePeriod {n : Nat} {cs : List Char} (alone : ∀ c ∈ cs.head?, inNumber c = false) :
      Stumbles n ('.' :: cs) .lonePeriod n
  | blank {n i : Nat} {c : Char} {cs : List Char} {problem : Problem} (isBlank : isBlank c = true)
      (rest : Stumbles (n + 1) cs problem i) : Stumbles n (c :: cs) problem i
  | token {n i : Nat} {kind : Kind} {text cs : List Char} {problem : Problem}
      (formed : Formed kind text) (stops : ∀ c ∈ cs.head?, kind.extends c = false)
      (rest : Stumbles (n + text.length) cs problem i) : Stumbles n (text ++ cs) problem i

/-- A run that is no number stumbles over one of its periods. -/
theorem stumbles_of_numberFlaw? {n : Nat} {c : Char} {cs : List Char} {flaw : Flaw}
    (hc : inNumber c = true) (h : numberFlaw? (c :: cs.takeWhile inNumber) n = some flaw) :
    ∃ problem i, flaw = .located problem i 1 ∧ Stumbles n (c :: cs) problem i := by
  have hrun : ∀ d ∈ c :: cs.takeWhile inNumber, inNumber d = true :=
    List.forall_mem_cons.mpr ⟨hc, fun d hd => List.mem_takeWhile_imp hd⟩
  have hsplit : c :: cs = c :: cs.takeWhile inNumber ++ cs.dropWhile inNumber := by
    rw [List.cons_append, List.takeWhile_append_dropWhile]
  unfold numberFlaw? at h
  split at h
  · next i hi =>
    obtain ⟨front, behind, hfront, rfl, hcount⟩ := split_of_secondPeriod? hi
    rw [hfront, List.append_assoc, List.cons_append] at hsplit
    rw [hfront] at hrun
    rw [hsplit]
    exact ⟨_, _, (Option.some.inj h).symm,
      .secondPeriod (fun d hd => hrun d (List.mem_append_left _ hd)) hcount⟩
  · split at h
    · next halone =>
      obtain ⟨rfl, hnone⟩ := List.cons.inj halone
      have hstop := head?_dropWhile_stop inNumber cs
      rw [hnone] at hsplit
      rw [hsplit]
      exact ⟨_, _, (Option.some.inj h).symm, .lonePeriod hstop⟩
    · contradiction

/-- Scanning is refused where the text stumbles. -/
theorem stumbles_of_scanFrom {n : Nat} {cs : List Char} {flaw : Flaw}
    (h : scanFrom n cs = .error flaw) :
    ∃ problem i, flaw = .located problem i 1 ∧ Stumbles n cs problem i := by
  fun_induction scanFrom n cs
  case case1 => contradiction
  case case2 n c cs hblank ih =>
      obtain ⟨problem, i, hflaw, hrest⟩ := ih h
      exact ⟨problem, i, hflaw, .blank hblank hrest⟩
  case case3 n c cs _ hnumber run found hfound =>
      obtain rfl := Except.error.inj h
      exact stumbles_of_numberFlaw? hnumber hfound
  case case4 n c cs _ hnumber run hnone ih =>
      rcases bind_eq_error.mp h with h | ⟨ts, -, h⟩
      · obtain ⟨problem, i, hflaw, hrest⟩ := ih h
        have hstumbles := Stumbles.token (formed_number_run hnumber hnone)
          (head?_dropWhile_stop inNumber cs) hrest
        rw [List.cons_append, List.takeWhile_append_dropWhile] at hstumbles
        exact ⟨problem, i, hflaw, hstumbles⟩
      · contradiction
  case case5 n c cs _ hnumber hword run ih =>
      rcases bind_eq_error.mp h with h | ⟨ts, -, h⟩
      · obtain ⟨problem, i, hflaw, hrest⟩ := ih h
        have hstumbles := Stumbles.token (formed_word_run hword hnumber cs)
          (head?_dropWhile_stop continuesWord cs) hrest
        rw [List.cons_append, List.takeWhile_append_dropWhile] at hstumbles
        exact ⟨problem, i, hflaw, hstumbles⟩
      · contradiction
  case case6 n c cs _ _ _ kind hkind ih =>
      rcases bind_eq_error.mp h with h | ⟨ts, -, h⟩
      · obtain ⟨problem, i, hflaw, hrest⟩ := ih h
        exact ⟨problem, i, hflaw, .token (.single hkind) (fun d _ => extends_of_single? hkind d) hrest⟩
      · contradiction
  case case7 n c cs hblank hnumber hword hsingle =>
      exact ⟨_, _, (Except.error.inj h).symm, .unrecognized (by simpa using hblank)
        (by simpa using hnumber) (by simpa using hword) hsingle⟩

/-- A run of digits and periods with a flaw is refused. -/
theorem scanFrom_flawed {n : Nat} {c : Char} {cs : List Char} {flaw : Flaw}
    (hc : inNumber c = true) (h : numberFlaw? (c :: cs.takeWhile inNumber) n = some flaw) :
    scanFrom n (c :: cs) = .error flaw := by
  rw [scanFrom, not_isBlank_of_inNumber hc, hc]
  simp only [Bool.false_eq_true, if_false, if_true, h]

/-- A text that stumbles is refused there. -/
theorem Stumbles.scanFrom_eq {n i : Nat} {cs : List Char} {problem : Problem}
    (h : Stumbles n cs problem i) : scanFrom n cs = .error (.located problem i 1) := by
  induction h with
  | unrecognized hblank hnumber hword hsingle =>
      rw [scanFrom, hblank, hnumber, hword]
      simp only [Bool.false_eq_true, if_false, hsingle]
  | @secondPeriod n run cs hdigits hcount =>
      cases run with
      | nil => simp at hcount
      | cons c run =>
          obtain ⟨hc, hrun⟩ := List.forall_mem_cons.mp hdigits
          have htake : (run ++ '.' :: cs).takeWhile inNumber =
              run ++ '.' :: cs.takeWhile inNumber := by
            rw [List.takeWhile_append_of_pos hrun, List.takeWhile_cons_of_pos rfl]
          have hsecond := secondPeriod?_append hcount (cs.takeWhile inNumber)
          rw [List.cons_append, ← htake] at hsecond
          have hflaw : numberFlaw? (c :: (run ++ '.' :: cs).takeWhile inNumber) n =
              some (.located .secondPeriod (n + (c :: run).length) 1) := by
            rw [numberFlaw?, hsecond]
          rw [List.cons_append]
          exact scanFrom_flawed hc hflaw
  | @lonePeriod n cs halone =>
      have htake : ([] ++ cs).takeWhile inNumber = [] :=
        takeWhile_append_of_stop (List.forall_mem_nil _) halone
      rw [List.nil_append] at htake
      refine scanFrom_flawed rfl ?_
      rw [htake]
      rfl
  | blank hblank _ ih => rw [scanFrom_blank hblank, ih]
  | token hformed hstops _ ih =>
      rw [scanFrom_token hformed hstops, ih]
      rfl

/-- Scanning is refused where a text stumbles, and nowhere else. -/
theorem scanFrom_eq_error_iff {n : Nat} {cs : List Char} {flaw : Flaw} :
    scanFrom n cs = .error flaw ↔
      ∃ problem i, flaw = .located problem i 1 ∧ Stumbles n cs problem i := by
  constructor
  · exact stumbles_of_scanFrom
  · rintro ⟨problem, i, rfl, h⟩
    exact h.scanFrom_eq

/-! ## scanning -/

/-- Scanning a line finds the one list of spans that the line is made of, and cuts out their texts.
Where there is no such list, scanning complains about a place in the line: it is the character that
the line stumbles over. -/
theorem scan_lexed_or_refused (chars : List Char) :
    ((∃ ts, scan chars = .ok ts ∧ (∀ spans, Lexed chars spans ↔ spans = ts.map span) ∧
        ∀ t ∈ ts, t.span.text chars = t.text) ∨
      (∃ problem start length, scan chars = .error (.located problem start length) ∧
        ∀ spans, ¬Lexed chars spans)) ∧
    ∀ flaw, scan chars = .error flaw ↔
      ∃ problem start, flaw = .located problem start 1 ∧ Stumbles 0 chars problem start := by
  refine ⟨?_, fun flaw => scanFrom_eq_error_iff⟩
  have hfound : ∀ {spans}, Lexed chars spans → ∃ ts, scan chars = .ok ts ∧ ts.map span = spans := by
    intro spans h
    obtain ⟨ts, hspells, hspans⟩ := h.spells
    exact ⟨ts, hspells.scanFrom_eq, hspans⟩
  cases hscan : scan chars with
  | ok ts =>
      obtain ⟨hlexed, htexts⟩ := (spells_of_scanFrom hscan).lexedFrom
      refine .inl ⟨ts, rfl, fun spans => ⟨fun h => ?_, fun h => h ▸ hlexed⟩, htexts⟩
      obtain ⟨us, hus, rfl⟩ := hfound h
      rw [hscan, Except.ok.injEq] at hus
      rw [hus]
  | error flaw =>
      have hbefore := Item.beforeOutline_of_scanFrom hscan
      cases flaw with
      | empty | tooDeep => exact absurd hbefore id
      | located problem start length =>
          refine .inr ⟨problem, start, length, rfl, fun spans h => ?_⟩
          obtain ⟨ts, hts, -⟩ := hfound h
          rw [hscan] at hts
          contradiction

/-! ## what is marked -/

/-- What a text stumbles over is one of its characters, and no blank. -/
theorem Stumbles.marks {n i : Nat} {cs : List Char} {problem : Problem}
    (h : Stumbles n cs problem i) : ∃ before c after, cs = before ++ c :: after ∧
      i = n + before.length ∧ isBlank c = false ∧ problem.character? = some c := by
  induction h with
  | @unrecognized n c cs hblank => exact ⟨[], c, cs, rfl, rfl, hblank, rfl⟩
  | @secondPeriod n run cs => exact ⟨run, '.', cs, rfl, rfl, by decide, rfl⟩
  | @lonePeriod n cs => exact ⟨[], '.', cs, rfl, rfl, by decide, rfl⟩
  | @blank n i d cs problem _ _ ih =>
      obtain ⟨before, c, after, rfl, rfl, hmarked⟩ := ih
      refine ⟨d :: before, c, after, rfl, ?_, hmarked⟩
      rw [List.length_cons, Nat.add_assoc, Nat.add_comm 1]
  | @token n i kind text cs problem _ _ _ ih =>
      obtain ⟨before, c, after, rfl, rfl, hmarked⟩ := ih
      refine ⟨text ++ before, c, after, (List.append_assoc ..).symm, ?_, hmarked⟩
      rw [List.length_append, Nat.add_assoc]

end GraphCalc.Token
