import Mathlib.Data.List.Basic
import GraphCalc.Proofs.Item.Nesting

/-!
# GraphCalc.Proofs.Item.Partners

Parentheses that belong together, and parentheses that have no partner.

The partner of an opening parenthesis is the closing one that has balanced tokens in front of it, back
to the opening one.  Counting tells the rest: `level ts` is how many parentheses more are opened than
closed in `ts`.

```
level of what stands before a pair   n
level anywhere inside the pair       above n
level behind the pair                n again
```

* `Partners.level_inside`, `Partners.level_behind` — these three lines;
* `Partners.inside_or_apart`, `Partners.left_inj` — so pairs do not cross, and share no parenthesis;
* `Balanced.hasPartner` — in balanced tokens no parenthesis is without a partner;
* `groupTokens_cases` — grouping finds balanced tokens, or the parenthesis that has no partner, with
  what stands before and behind it.
-/

namespace GraphCalc.Item

/-! ## counting -/

/-- The number of opening parentheses. -/
def openings (ts : List Token) : Nat := ts.countP (·.kind == .opening)

/-- The number of closing parentheses. -/
def closings (ts : List Token) : Nat := ts.countP (·.kind == .closing)

/-- More parentheses are closed than opened. -/
def Excess (ts : List Token) : Prop := openings ts < closings ts

instance (ts : List Token) : Decidable (Excess ts) := inferInstanceAs (Decidable (_ < _))

/-- Nowhere have more parentheses been closed than opened. -/
def Steady (ts : List Token) : Prop := ∀ k, ¬Excess (ts.take k)

/-- How many parentheses more are opened than closed. -/
def level (ts : List Token) : Int := openings ts - closings ts

theorem not_excess_iff {ts : List Token} : ¬Excess ts ↔ 0 ≤ level ts := by
  simp only [Excess, level]
  omega

@[simp] theorem level_nil : level [] = 0 := rfl

@[simp] theorem level_append (a b : List Token) : level (a ++ b) = level a + level b := by
  simp only [level, openings, closings, List.countP_append]
  omega

section

variable {t : Token} (ts : List Token)

theorem level_opening (h : t.kind = .opening) : level (t :: ts) = 1 + level ts := by
  simp [level, openings, closings, h]
  omega

theorem level_closing (h : t.kind = .closing) : level (t :: ts) = level ts - 1 := by
  simp [level, openings, closings, h]
  omega

theorem level_token (ho : t.kind ≠ .opening) (hc : t.kind ≠ .closing) :
    level (t :: ts) = level ts := by
  simp [level, openings, closings, ho, hc]

end

/-- As many parentheses are opened as closed in balanced tokens. -/
theorem Balanced.level_eq {ts : List Token} (h : Balanced ts) : level ts = 0 := by
  induction h with
  | nil => rfl
  | token ho hc _ ih => rw [level_token _ ho hc, ih]
  | parentheses ho _ hc _ ihInner ih =>
      rw [level_opening _ ho, level_append, level_closing _ hc, ihInner, ih]
      rfl

theorem Steady.append {a b : List Token} (ha : Steady a) (hb : Steady b) : Steady (a ++ b) := by
  intro k
  have hleft := not_excess_iff.mp (ha k)
  have hright := not_excess_iff.mp (hb (k - a.length))
  rw [List.take_append, not_excess_iff, level_append]
  omega

theorem Steady.opening {t : Token} {ts : List Token} (ht : t.kind = .opening) (h : Steady ts) :
    Steady (t :: ts) := by
  intro k
  rw [not_excess_iff]
  cases k with
  | zero => exact Int.le_refl 0
  | succ k =>
      have hrest := not_excess_iff.mp (h k)
      rw [List.take_succ_cons, level_opening _ ht]
      omega

/-- Behind tokens of which none closes too many, one that does goes down by one. -/
theorem level_take_append_closing {inner ts : List Token} {c : Token} (hinner : Steady inner)
    (hc : c.kind = .closing) (hts : Steady ts) (k : Nat) :
    -1 ≤ level ((inner ++ c :: ts).take k) := by
  have hleft := not_excess_iff.mp (hinner k)
  rw [List.take_append, level_append]
  cases hk : k - inner.length with
  | zero =>
      rw [List.take_zero, level_nil]
      omega
  | succ m =>
      have hright := not_excess_iff.mp (hts m)
      rw [List.take_succ_cons, level_closing _ hc]
      omega

theorem Balanced.steady {ts : List Token} (h : Balanced ts) : Steady ts := by
  induction h with
  | nil => exact fun k => by simp [Excess, openings, closings]
  | @token t ts ho hc _ ih =>
      intro k
      rw [not_excess_iff]
      cases k with
      | zero => exact Int.le_refl 0
      | succ k =>
          rw [List.take_succ_cons, level_token _ ho hc]
          exact not_excess_iff.mp (ih k)
  | parentheses ho _ hc _ ihInner ih =>
      intro k
      rw [not_excess_iff]
      cases k with
      | zero => exact Int.le_refl 0
      | succ k =>
          have hrest := level_take_append_closing ihInner hc ih k
          rw [List.take_succ_cons, level_opening _ ho]
          omega

/-! ## partners -/

/-- The parentheses at two positions have balanced tokens between them. -/
def Partners (ts : List Token) (i j : Nat) : Prop :=
  ∃ before o inner c after, ts = before ++ o :: (inner ++ c :: after) ∧ o.kind = .opening ∧
    Balanced inner ∧ c.kind = .closing ∧ before.length = i ∧ before.length + 1 + inner.length = j

/-- An opening parenthesis without a partner. -/
def Unclosed (ts : List Token) (i : Nat) : Prop :=
  (∃ t, ts[i]? = some t ∧ t.kind = .opening) ∧ ∀ j, ¬Partners ts i j

namespace Partners

variable {ts : List Token} {i j i' j' : Nat}

theorem lt (h : Partners ts i j) : i < j := by
  obtain ⟨before, o, inner, c, after, -, -, -, -, rfl, rfl⟩ := h
  omega

theorem opening (h : Partners ts i j) : ∃ t, ts[i]? = some t ∧ t.kind = .opening := by
  obtain ⟨before, o, inner, c, after, rfl, ho, -, -, rfl, -⟩ := h
  exact ⟨o, by simp, ho⟩

theorem closing (h : Partners ts i j) : ∃ t, ts[j]? = some t ∧ t.kind = .closing := by
  obtain ⟨before, o, inner, c, after, rfl, -, -, hc, -, rfl⟩ := h
  refine ⟨c, ?_, hc⟩
  rw [List.getElem?_append_right (by omega),
    show before.length + 1 + inner.length - before.length = inner.length + 1 by omega,
    List.getElem?_cons_succ, List.getElem?_append_right (Nat.le_refl _), Nat.sub_self,
    List.getElem?_cons_zero]

/-- The tokens strictly between partners are balanced. -/
theorem balanced (h : Partners ts i j) : Balanced ((ts.take j).drop (i + 1)) := by
  obtain ⟨before, o, inner, c, after, rfl, -, hinner, -, rfl, rfl⟩ := h
  have hfront : (before ++ o :: (inner ++ c :: after)).take (before.length + 1 + inner.length) =
      (before ++ [o]) ++ inner := by
    rw [Nat.add_assoc, List.take_length_add_append, Nat.add_comm 1, List.take_succ_cons,
      List.take_left, List.append_assoc, List.singleton_append]
  have hlength : (before ++ [o]).length = before.length + 1 := List.length_append
  rw [hfront, ← hlength, List.drop_left]
  exact hinner

theorem append (a b : List Token) (h : Partners ts i j) :
    Partners (a ++ ts ++ b) (a.length + i) (a.length + j) := by
  obtain ⟨before, o, inner, c, after, rfl, ho, hinner, hc, rfl, rfl⟩ := h
  refine ⟨a ++ before, o, inner, c, after ++ b, by simp, ho, hinner, hc, ?_, ?_⟩
  · rw [List.length_append]
  · rw [List.length_append]
    omega

/-- Inside a pair more parentheses are open than before it. -/
theorem level_inside (h : Partners ts i j) {m : Nat} (hi : i < m) (hj : m ≤ j) :
    level (ts.take i) < level (ts.take m) := by
  obtain ⟨before, o, inner, c, after, rfl, ho, hinner, -, rfl, rfl⟩ := h
  obtain ⟨k, rfl⟩ := Nat.exists_eq_add_of_lt hi
  have hk : k - inner.length = 0 := by omega
  have hlevel := not_excess_iff.mp (hinner.steady k)
  rw [List.take_left, Nat.add_assoc, List.take_length_add_append, List.take_succ_cons,
    List.take_append, hk, List.take_zero, List.append_nil, level_append, level_opening _ ho]
  omega

/-- Behind a pair as many parentheses are open as before it. -/
theorem level_behind (h : Partners ts i j) : level (ts.take (j + 1)) = level (ts.take i) := by
  obtain ⟨before, o, inner, c, after, rfl, ho, hinner, hc, rfl, rfl⟩ := h
  have hend : before.length + 1 + inner.length + 1 = before.length + (inner.length + 1 + 1) := by
    omega
  rw [List.take_left, hend, List.take_length_add_append, List.take_succ_cons,
    List.take_length_add_append, List.take_succ_cons, List.take_zero, level_append,
    level_opening _ ho, level_append, level_closing _ hc, hinner.level_eq, level_nil]
  omega

/-- The pair that is opened later is inside the other one, or behind it. -/
theorem inside_or_apart (h : Partners ts i j) (h' : Partners ts i' j') (hlt : i < i') :
    j < i' ∨ j' < j := by
  by_contra hcross
  have hopened := h.level_inside hlt (by omega)
  have hclosed := h.level_behind
  rcases Nat.lt_or_ge j j' with hj | hj
  · have hinside := h'.level_inside (m := j + 1) (by omega) (by omega)
    omega
  · have hsame : j = j' := by omega
    have hclosed' := h'.level_behind
    rw [← hsame] at hclosed'
    omega

/-- A closing parenthesis has one partner. -/
theorem left_inj (h : Partners ts i j) (h' : Partners ts i' j) : i = i' := by
  have hlt := h.lt
  have hlt' := h'.lt
  rcases Nat.lt_trichotomy i i' with hi | hi | hi
  · have := h.inside_or_apart h' hi
    omega
  · exact hi
  · have := h'.inside_or_apart h hi
    omega

end Partners

/-- If the token at a position is a parenthesis, it has a partner. -/
def HasPartner (ts : List Token) (k : Nat) (t : Token) : Prop :=
  (t.kind = .opening → ∃ j, Partners ts k j) ∧ (t.kind = .closing → ∃ i, Partners ts i k)

theorem HasPartner.append {ts : List Token} {k : Nat} {t : Token} (a b : List Token)
    (h : HasPartner ts k t) : HasPartner (a ++ ts ++ b) (a.length + k) t :=
  ⟨fun ho => (h.1 ho).imp' _ fun _ => Partners.append a b,
    fun hc => (h.2 hc).imp' _ fun _ => Partners.append a b⟩

/-- In balanced tokens every parenthesis has a partner. -/
theorem Balanced.hasPartner {ts : List Token} (h : Balanced ts) {k : Nat} {t : Token}
    (hk : ts[k]? = some t) : HasPartner ts k t := by
  induction h generalizing k with
  | nil => simp at hk
  | @token u rest ho hc _ ih =>
      cases k with
      | zero =>
          obtain rfl := Option.some.inj hk
          exact ⟨fun h => absurd h ho, fun h => absurd h hc⟩
      | succ k =>
          have hlater := (ih hk).append [u] []
          rwa [List.append_nil, List.singleton_append, List.length_singleton,
            Nat.add_comm] at hlater
  | @parentheses o c inner rest ho hinner hc _ ihInner ih =>
      have hpair : Partners (o :: (inner ++ c :: rest)) 0 (inner.length + 1) :=
        ⟨[], o, inner, c, rest, rfl, ho, hinner, hc, rfl, by simp [Nat.add_comm]⟩
      cases k with
      | zero =>
          obtain rfl := Option.some.inj hk
          exact ⟨fun _ => ⟨_, hpair⟩, fun h => by simp [ho] at h⟩
      | succ k =>
          -- the position is inside the pair, at its end or behind it
          rw [List.getElem?_cons_succ] at hk
          rcases Nat.lt_trichotomy k inner.length with hlt | rfl | hlt
          · rw [List.getElem?_append_left hlt] at hk
            have hinside := (ihInner hk).append [o] (c :: rest)
            rwa [List.singleton_append, List.cons_append, List.length_singleton,
              Nat.add_comm] at hinside
          · rw [List.getElem?_append_right (Nat.le_refl _), Nat.sub_self] at hk
            obtain rfl := Option.some.inj hk
            exact ⟨fun h => by simp [hc] at h, fun _ => ⟨0, hpair⟩⟩
          · obtain ⟨m, rfl⟩ := Nat.exists_eq_add_of_lt hlt
            rw [List.getElem?_append_right (by omega),
              show inner.length + m + 1 - inner.length = m + 1 by omega,
              List.getElem?_cons_succ] at hk
            have hbehind := (ih hk).append (o :: (inner ++ [c])) []
            have hplace : (o :: (inner ++ [c])).length + m = inner.length + m + 1 + 1 := by
              simp
              omega
            rwa [hplace, List.append_nil, List.cons_append, List.append_assoc,
              List.singleton_append] at hbehind

theorem Balanced.not_unclosed {ts : List Token} (h : Balanced ts) (i : Nat) : ¬Unclosed ts i := by
  rintro ⟨⟨t, ht, ho⟩, hnone⟩
  obtain ⟨j, hj⟩ := (h.hasPartner ht).1 ho
  exact hnone j hj

/-! ## parentheses without a partner -/

section

variable {before after : List Token} {t : Token}

/-- Behind balanced tokens, a closing parenthesis is the first one too many. -/
theorem excess_of_closing (after : List Token) (hbefore : Balanced before)
    (ht : t.kind = .closing) :
    Excess ((before ++ t :: after).take (before.length + 1)) ∧
      ∀ m ≤ before.length, ¬Excess ((before ++ t :: after).take m) := by
  constructor
  · have hlevel : level ((before ++ t :: after).take (before.length + 1)) = -1 := by
      rw [List.take_length_add_append, List.take_succ_cons, List.take_zero, level_append,
        hbefore.level_eq, level_closing _ ht]
      rfl
    by_contra hno
    rw [not_excess_iff] at hno
    omega
  · intro m hm
    rw [List.take_append_of_le_length hm]
    exact hbefore.steady m

/-- An opening parenthesis has no partner if those behind it never close too many. -/
theorem unclosed_of_opening (before : List Token) (ht : t.kind = .opening)
    (hafter : Steady after) :
    Unclosed (before ++ t :: after) before.length := by
  refine ⟨⟨t, by simp, ht⟩, fun j hj => ?_⟩
  have hbehind := hj.level_behind
  obtain ⟨m, rfl⟩ := Nat.exists_eq_add_of_lt hj.lt
  have hlevel := not_excess_iff.mp (hafter (m + 1))
  rw [List.take_left, Nat.add_assoc, Nat.add_assoc, List.take_length_add_append,
    List.take_succ_cons, level_append, level_opening _ ht] at hbehind
  omega

/-- In front of balanced tokens stands the last parenthesis that has no partner, if there is one. -/
theorem le_of_unclosed (hafter : Balanced after) {k : Nat}
    (h : Unclosed (before ++ t :: after) k) : k ≤ before.length := by
  obtain ⟨⟨u, hu, ho⟩, hnone⟩ := h
  by_contra hlt
  obtain ⟨m, rfl⟩ := Nat.exists_eq_add_of_lt (Nat.lt_of_not_le hlt)
  rw [List.getElem?_append_right (by omega),
    show before.length + m + 1 - before.length = m + 1 by omega,
    List.getElem?_cons_succ] at hu
  obtain ⟨j, hj⟩ := (hafter.hasPartner hu).1 ho
  have hlift := hj.append (before ++ [t]) []
  simp only [List.append_nil, List.append_assoc, List.singleton_append, List.length_append,
    List.length_singleton] at hlift
  refine hnone (before.length + 1 + j) ?_
  rwa [Nat.add_right_comm]

end

/-! ## grouping -/

/-- What has been read when some parentheses are open has none too many that are closed. -/
theorem steady_pendingTokens {stack : List Pending} {done : List Item}
    (h : PendingNested stack done) : Steady (pendingTokens stack done) := by
  obtain ⟨hdone, hstack⟩ := h
  have hread : Steady (flatten done.reverse) :=
    (balanced_iff.mpr ⟨_, wellNested_reverse hdone, rfl⟩).steady
  induction stack generalizing done with
  | nil => exact hread
  | cons p stack ih =>
      obtain ⟨hp, hbefore⟩ := hstack p (by simp)
      have hearlier := ih hbefore (fun q hq => hstack q (by simp [hq]))
        (balanced_iff.mpr ⟨_, wellNested_reverse hbefore, rfl⟩).steady
      exact hearlier.append (hread.opening hp)

/-- Where grouping stops, a parenthesis has no partner. -/
theorem unmatched_of_groupFrom {stack : List Pending} {done : List Item} {ts : List Token}
    {flaw : Flaw} (hpending : PendingNested stack done) (h : groupFrom stack done ts = .error flaw) :
    ∃ before t after, pendingTokens stack done ++ ts = before ++ t :: after ∧
      (Balanced before ∧ t.kind = .closing ∧ flaw = t.flaw .unmatchedClosing ∨
        Steady before ∧ t.kind = .opening ∧ Balanced after ∧ flaw = t.flaw .unmatchedOpening) := by
  induction ts generalizing stack done with
  | nil =>
      cases stack with
      | nil => contradiction
      | cons p stack =>
          obtain ⟨hdone, hstack⟩ := hpending
          obtain ⟨hp, hbefore⟩ := hstack p (by simp)
          have hearlier : Steady (pendingTokens stack p.before) :=
            steady_pendingTokens ⟨hbefore, fun q hq => hstack q (by simp [hq])⟩
          refine ⟨pendingTokens stack p.before, p.opening, flatten done.reverse,
            by simp [pendingTokens], .inr ⟨hearlier, hp, ?_, (Except.error.inj h).symm⟩⟩
          exact balanced_iff.mpr ⟨_, wellNested_reverse hdone, rfl⟩
  | cons t ts ih =>
      obtain ⟨hdone, hstack⟩ := hpending
      by_cases ho : t.kind = .opening
      · rw [groupFrom_opening ho] at h
        have hlater := ih ⟨.nil, by simpa [ho, hdone] using hstack⟩ h
        simpa [pendingTokens] using hlater
      · by_cases hc : t.kind = .closing
        · cases stack with
          | nil =>
              rw [groupFrom_unmatched hc] at h
              exact ⟨flatten done.reverse, t, ts, rfl,
                .inl ⟨balanced_iff.mpr ⟨_, wellNested_reverse hdone, rfl⟩, hc,
                  (Except.error.inj h).symm⟩⟩
          | cons p stack =>
              obtain ⟨hp, hbefore⟩ := hstack p (by simp)
              have hgroup : WellNested (group p.opening done.reverse t :: p.before) :=
                .group hp (wellNested_reverse hdone) hc hbefore
              rw [groupFrom_closing hc] at h
              have hlater := ih ⟨hgroup, fun q hq => hstack q (by simp [hq])⟩ h
              rw [pendingTokens_cons, tokens] at hlater
              simpa [pendingTokens] using hlater
        · rw [groupFrom_token ho hc] at h
          have hlater := ih ⟨.token ho hc hdone, hstack⟩ h
          rw [pendingTokens_cons, tokens] at hlater
          simpa using hlater

/-- A line of tokens is balanced, or it has a closing parenthesis behind balanced tokens, or an
opening one in front of them. -/
theorem groupTokens_cases (ts : List Token) :
    (∃ items, groupTokens ts = .ok items ∧ Balanced ts) ∨
      ∃ before t after, ts = before ++ t :: after ∧
        (Balanced before ∧ t.kind = .closing ∧
            groupTokens ts = .error (t.flaw .unmatchedClosing) ∨
          Steady before ∧ t.kind = .opening ∧ Balanced after ∧
            groupTokens ts = .error (t.flaw .unmatchedOpening)) := by
  cases hgroup : groupTokens ts with
  | ok items => exact .inl ⟨items, rfl, balanced_iff.mpr ⟨items, groupTokens_eq_ok_iff.mp hgroup⟩⟩
  | error flaw =>
      obtain ⟨before, t, after, hts, hcase⟩ := unmatched_of_groupFrom ⟨.nil, by simp⟩ hgroup
      refine .inr ⟨before, t, after, by simpa [pendingTokens] using hts, ?_⟩
      simpa only [Except.error.injEq] using hcase

/-- One of the tokens is to blame where they cannot be grouped. -/
theorem exists_flaw_of_groupTokens {ts : List Token} {flaw : Flaw}
    (h : groupTokens ts = .error flaw) : ∃ t ∈ ts, ∃ problem : Problem,
      problem.Concerns t.kind ∧ flaw = t.flaw problem := by
  obtain ⟨items, hitems, -⟩ | ⟨before, t, after, rfl, ⟨-, ht, herror⟩ | ⟨-, ht, -, herror⟩⟩ :=
    groupTokens_cases ts
  · rw [hitems] at h
    contradiction
  · exact ⟨t, by simp, .unmatchedClosing, ht, Except.error.inj (h.symm.trans herror)⟩
  · exact ⟨t, by simp, .unmatchedOpening, ht, Except.error.inj (h.symm.trans herror)⟩

end GraphCalc.Item
