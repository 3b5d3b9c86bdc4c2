import Mathlib.Data.List.TakeWhile
import GraphCalc.Text.Blank

/-!
# GraphCalc.Proofs.Text.Runs

Runs of characters of one class, as they are taken off the front of a text, and the words of a text,
which are its runs between blanks.

* `words_eq_iff` — `words` finds the words that a text is made of, and no others.
-/

namespace GraphCalc.Text

variable {p : Char → Bool} {run rest : List Char}

/-- A run followed by something else is taken as a whole. -/
theorem takeWhile_append_of_stop (hrun : ∀ c ∈ run, p c = true)
    (hrest : ∀ c ∈ rest.head?, p c = false) : (run ++ rest).takeWhile p = run := by
  rw [List.takeWhile_append_of_pos hrun]
  cases rest with
  | nil => simp
  | cons c rest =>
      have hc : p c = false := hrest c rfl
      simp [hc]

/-- A run followed by something else is dropped as a whole. -/
theorem dropWhile_append_of_stop (hrun : ∀ c ∈ run, p c = true)
    (hrest : ∀ c ∈ rest.head?, p c = false) : (run ++ rest).dropWhile p = rest := by
  rw [List.dropWhile_append_of_pos hrun]
  cases rest with
  | nil => simp
  | cons c rest =>
      have hc : p c = false := hrest c rfl
      simp [hc]

/-- What is left after a run does not go on with it. -/
theorem head?_dropWhile_stop (p : Char → Bool) (cs : List Char) :
    ∀ c ∈ (cs.dropWhile p).head?, p c = false := by
  intro c hc
  have h := List.head?_dropWhile_not p cs
  rw [Option.mem_def.mp hc] at h
  simpa using h

/-- A text falls into a run and what stops it in one way only. -/
theorem run_append_inj {run' rest' : List Char} (hrun : ∀ c ∈ run, p c = true)
    (hrun' : ∀ c ∈ run', p c = true) (hrest : ∀ c ∈ rest.head?, p c = false)
    (hrest' : ∀ c ∈ rest'.head?, p c = false) (h : run ++ rest = run' ++ rest') :
    run = run' ∧ rest = rest' := by
  have htake := takeWhile_append_of_stop hrun hrest
  have hdrop := dropWhile_append_of_stop hrun hrest
  rw [h, takeWhile_append_of_stop hrun' hrest'] at htake
  rw [h, dropWhile_append_of_stop hrun' hrest'] at hdrop
  exact ⟨htake.symm, hdrop.symm⟩

/-! ## words -/

/-- A blank in front of a text is skipped. -/
theorem words_blank {b : Char} (hb : isBlank b = true) (cs : List Char) :
    words (b :: cs) = words cs := by
  have hstrip : stripLeft (b :: cs) = stripLeft cs := List.dropWhile_cons_of_pos hb
  rw [words, words]
  split
  · next h =>
    rw [hstrip] at h
    split
    · rfl
    · next h' =>
      rw [h] at h'
      contradiction
  · next h =>
    rw [hstrip] at h
    split
    · next h' =>
      rw [h] at h'
      contradiction
    · next h' =>
      rw [h] at h'
      cases h'
      rfl

/-- A run of characters up to a blank, or the end, is a word. -/
theorem words_run_append (hne : run ≠ []) (hrun : ∀ c ∈ run, isBlank c = false)
    (hrest : ∀ c ∈ rest.head?, isBlank c = true) : words (run ++ rest) = run :: words rest := by
  cases run with
  | nil => exact absurd rfl hne
  | cons c run =>
      have hc : isBlank c = false := hrun c (by simp)
      have hrun' : ∀ d ∈ run, (!isBlank d) = true := fun d hd => by simp [hrun d (by simp [hd])]
      have hrest' : ∀ d ∈ rest.head?, (!isBlank d) = false := fun d hd => by simp [hrest d hd]
      have hstrip : stripLeft (c :: run ++ rest) = c :: (run ++ rest) := by
        simp [stripLeft, hc]
      rw [words]
      split
      · next h =>
        rw [hstrip] at h
        contradiction
      · next h =>
        rw [hstrip] at h
        cases h
        rw [takeWhile_append_of_stop hrun' hrest', dropWhile_append_of_stop hrun' hrest']

/-- A text is made of words with blanks between and around them: no word is empty or has a blank in
it, and each ends at a blank or with the text. -/
inductive Separated : List Char → List (List Char) → Prop
  | nil : Separated [] []
  | blank {b : Char} {cs : List Char} {ws : List (List Char)} (isBlank : isBlank b = true)
      (rest : Separated cs ws) : Separated (b :: cs) ws
  | word {w cs : List Char} {ws : List (List Char)} (nonempty : w ≠ [])
      (whole : ∀ c ∈ w, isBlank c = false) (ends : ∀ c ∈ cs.head?, isBlank c = true)
      (rest : Separated cs ws) : Separated (w ++ cs) (w :: ws)

/-- The blanks in front make no difference. -/
theorem Separated.ofStripLeft {cs : List Char} {ws : List (List Char)}
    (h : Separated (stripLeft cs) ws) : Separated cs ws := by
  induction cs with
  | nil => exact h
  | cons c cs ih =>
      cases hc : isBlank c with
      | true =>
          have hstrip : stripLeft (c :: cs) = stripLeft cs := List.dropWhile_cons_of_pos hc
          rw [hstrip] at h
          exact .blank hc (ih h)
      | false =>
          have hstrip : stripLeft (c :: cs) = c :: cs :=
            List.dropWhile_cons_of_neg (by simp [hc])
          rwa [hstrip] at h

theorem separated_words (cs : List Char) : Separated cs (words cs) := by
  fun_induction words cs with
  | case1 cs hstrip =>
      refine .ofStripLeft ?_
      rw [hstrip]
      exact .nil
  | case2 cs c rest hstrip ih =>
      have hc : isBlank c = false := by
        refine head?_dropWhile_stop isBlank cs c ?_
        rw [show cs.dropWhile isBlank = c :: rest from hstrip]
        rfl
      have hwhole : ∀ d ∈ c :: rest.takeWhile (!isBlank ·), isBlank d = false := by
        intro d hd
        rcases List.mem_cons.mp hd with rfl | hd
        · exact hc
        · simpa using List.mem_takeWhile_imp hd
      have hends : ∀ d ∈ (rest.dropWhile (!isBlank ·)).head?, isBlank d = true := by
        intro d hd
        simpa using head?_dropWhile_stop (!isBlank ·) rest d hd
      have hword := Separated.word (List.cons_ne_nil _ _) hwhole hends ih
      rw [List.cons_append, List.takeWhile_append_dropWhile] at hword
      refine .ofStripLeft ?_
      rwa [hstrip]

theorem Separated.words_eq {cs : List Char} {ws : List (List Char)} (h : Separated cs ws) :
    words cs = ws := by
  induction h with
  | nil =>
      rw [words]
      rfl
  | blank hb _ ih => rw [words_blank hb, ih]
  | word hne hwhole hends _ ih => rw [words_run_append hne hwhole hends, ih]

/-- The words of a text are those that it is made of. -/
theorem words_eq_iff {cs : List Char} {ws : List (List Char)} :
    words cs = ws ↔ Separated cs ws :=
  ⟨fun h => h ▸ separated_words cs, Separated.words_eq⟩

end GraphCalc.Text
