import GraphCalc.Proofs.Entering
import GraphCalc.Proofs.Grammar.Accounted
import GraphCalc.Proofs.Shell.Runs
import GraphCalc.Proofs.Token.Spans

/-!
# GraphCalc.Proofs.Shell.Words

Lines whose first word is a command word.

Blanks of any kind separate words, but a command is looked for before the first space.  A command
word is found if the line starts with it and a space comes next, or nothing.  Behind another blank,
or in front of one, it is not found; then the line is read as an expression, and as no expression
starts with a command word, it is refused and the function is lost.

* `not_derives_of_ofWord?` — no expression starts with a command word;
* `Shell.execute_of_spaced` — where the command is found, it is run with its argument stripped;
* `Shell.execute_of_unspaced` — where it is not found, the line is refused;
* `Shell.execute_of_word` — these are all the cases, and blanks around the argument do not matter.
-/

namespace GraphCalc

open Text

/-! ## blanks in front -/

theorem Text.isBlank_space : isBlank ' ' = true := by decide

/-- A blank at the front is stripped. -/
theorem Text.strip_blank {b : Char} (hb : isBlank b = true) (cs : List Char) :
    strip (b :: cs) = strip cs := by
  have hleft : stripLeft (b :: cs) = stripLeft cs := List.dropWhile_cons_of_pos hb
  rw [strip, strip, hleft]

theorem Text.strip_blanks {bs : List Char} (hbs : ∀ b ∈ bs, isBlank b = true) (cs : List Char) :
    strip (bs ++ cs) = strip cs := by
  induction bs with
  | nil => rfl
  | cons b bs ih =>
      obtain ⟨hb, hbs⟩ := List.forall_mem_cons.mp hbs
      rw [List.cons_append, strip_blank hb, ih hbs]

/-- Blanks at the front are no tokens. -/
theorem Token.scanFrom_blanks {bs : List Char} (hbs : ∀ b ∈ bs, isBlank b = true) (n : Nat)
    (cs : List Char) : scanFrom n (bs ++ cs) = scanFrom (n + bs.length) cs := by
  induction bs generalizing n with
  | nil => rfl
  | cons b bs ih =>
      obtain ⟨hb, hbs⟩ := List.forall_mem_cons.mp hbs
      rw [List.cons_append, scanFrom_blank hb, ih hbs, List.length_cons, Nat.add_right_comm,
        Nat.add_assoc]

/-! ## command words -/

/-- What has an ASCII capital is a letter. -/
theorem isLetter_of_capital {c : Char} (h : (capital c).isUpper = true) : isLetter c = true := by
  unfold capital at h
  split at h
  · next hc =>
    rw [beq_iff_eq.mp hc]
    decide +kernel
  · split at h
    · next hc =>
      rw [beq_iff_eq.mp hc]
      decide +kernel
    · by_cases hascii : c.toNat < 128
      · exact forall_ascii (P := fun c => c.toUpper.isUpper = true → isLetter c = true)
          (by decide +kernel) hascii h
      · have hsame : c.toUpper = c := by
          unfold Char.toUpper
          rw [dif_neg]
          intro hlower
          have hle : c.toNat ≤ 122 := hlower.2
          omega
        rw [hsame] at h
        have hle : c.toNat ≤ 90 := (of_decide_eq_true h).2
        omega

/-- A letter and its lower-case form have the same capital. -/
theorem capital_toLower (c : Char) : capital c.toLower = capital c := by
  by_cases hascii : c.toNat < 128
  · exact forall_ascii (P := fun c => capital c.toLower = capital c) (by decide +kernel) hascii
  · rw [toLower_eq_self (by omega)]

section

variable {w : List Char} {command : Command}

theorem capitals_of_ofWord? (h : Command.ofWord? w = some command) :
    capitals w = command.word.toList := by
  have hfound := List.find?_some h
  exact (beq_iff_eq.mp hfound).symm

/-- Command words are written in ASCII capitals. -/
theorem isUpper_of_mem_word (command : Command) :
    ∀ c ∈ command.word.toList, c.isUpper = true := by
  rw [← List.all_eq_true]
  cases command with
  | define format => cases format <;> decide
  | _ => decide

/-- A command word is made of letters. -/
theorem isLetter_of_ofWord? (h : Command.ofWord? w = some command) :
    ∀ c ∈ w, isLetter c = true := by
  intro c hc
  refine isLetter_of_capital (isUpper_of_mem_word command _ ?_)
  rw [← capitals_of_ofWord? h]
  exact List.mem_map_of_mem hc

theorem not_isBlank_of_isLetter {c : Char} (h : isLetter c = true) : isBlank c = false :=
  not_isBlank_of_continuesWord (continuesWord_of_startsWord (by simp [startsWord, h]))

/-- A command word does not end before the first space. -/
theorem ne_space_of_ofWord? (h : Command.ofWord? w = some command) :
    ∀ c ∈ w, (c != ' ') = true := by
  intro c hc
  rw [bne_iff_ne]
  rintro rfl
  have hblank := not_isBlank_of_isLetter (isLetter_of_ofWord? h ' ' hc)
  rw [isBlank_space] at hblank
  contradiction

theorem ne_nil_of_ofWord? (h : Command.ofWord? w = some command) : w ≠ [] := by
  rintro rfl
  have hnone : Command.ofWord? [] = none := by decide
  rw [hnone] at h
  contradiction

/-- A command word is a token. -/
theorem formed_of_ofWord? (h : Command.ofWord? w = some command) : Token.Formed .word w := by
  have hstarts : ∀ c ∈ w, startsWord c = true := fun c hc => by
    simp [startsWord, isLetter_of_ofWord? h c hc]
  cases w with
  | nil => exact absurd rfl (ne_nil_of_ofWord? h)
  | cons c cs =>
      have hc := hstarts c (List.mem_cons_self ..)
      exact .word hc (Token.inNumber_eq_false_of_startsWord hc) fun d hd =>
        continuesWord_of_startsWord (hstarts d (List.mem_cons_of_mem c hd))

/-! ## no expression -/

/-- No command word is a name in expressions, in any case. -/
theorem lower_ne_of_ofWord? (h : Command.ofWord? w = some command) {name : List Char}
    (hname : name = ['x'] ∨ ∃ fn : Elementary, name = fn.name) : lower w ≠ name := by
  have hplain : ∀ c ∈ name, isPlain c = true := by
    rcases hname with rfl | ⟨fn, rfl⟩
    · exact List.forall_mem_singleton.mpr (by decide)
    · exact isPlain_name fn
  rw [ne_eq, lower_eq_iff_of_plain hplain]
  intro hlower
  have hcapitals : capitals name = command.word.toList := by
    rw [← hlower, ← capitals_of_ofWord? h, capitals, capitals, List.map_map]
    exact List.map_congr_left fun c _ => capital_toLower c
  revert hcapitals
  rcases hname with rfl | ⟨fn, rfl⟩
  · cases command with
    | define format => cases format <;> decide
    | _ => decide
  · cases command with
    | define format => cases format <;> cases fn <;> decide
    | _ => cases fn <;> decide

/-- The first token of an expression, if it is a word, is the variable or a function. -/
theorem Derives.name_of_first {phrase : Phrase} {t : Token} {ts : List Token} {e : Expr Float}
    (h : Derives phrase (t :: ts) e) (hk : t.kind = .word) :
    t.isWord ['x'] ∨ ∃ fn : Elementary, t.isWord fn.name := by
  refine (h.told.known t ?_).2 hk
  rw [Token.seen, Token.seenFrom_cons (by simp [hk])]
  exact List.mem_cons_self ..

/-- No expression starts with a command word. -/
theorem not_derives_of_ofWord? (h : Command.ofWord? w = some command) {phrase : Phrase} {n : Nat}
    {ts : List Token} {e : Expr Float} : ¬Derives phrase (⟨.word, w, n⟩ :: ts) e := by
  intro hderives
  rcases hderives.name_of_first rfl with hword | ⟨fn, hword⟩
  · exact lower_ne_of_ofWord? h (.inl rfl) hword.2
  · exact lower_ne_of_ofWord? h (.inr ⟨fn, rfl⟩) hword.2

/-- A line whose first word is a command word makes no definition. -/
theorem read_eq_error_of_ofWord? (h : Command.ofWord? w = some command) {lead tail : List Char}
    (hlead : ∀ c ∈ lead, isBlank c = true) (htail : ∀ c ∈ tail.head?, isBlank c = true)
    (limit : Nat) :
    ∃ reason, Definition.read .algebraic (lead ++ (w ++ tail)) limit = .error reason := by
  cases hread : Definition.read .algebraic (lead ++ (w ++ tail)) limit with
  | error reason => exact ⟨reason, rfl⟩
  | ok d =>
      obtain ⟨e, he, -⟩ := Definition.read_eq_ok_iff.mp hread
      obtain ⟨ts, hscan, hderives⟩ := derives_of_ofAlgebraic he
      have hstops : ∀ c ∈ tail.head?, Token.Kind.word.extends c = false := by
        intro c hc
        by_contra hcontinues
        have hnot := not_isBlank_of_continuesWord (Bool.eq_true_of_not_eq_false hcontinues)
        rw [htail c hc] at hnot
        contradiction
      rw [Token.scan, Token.scanFrom_blanks hlead,
        Token.scanFrom_token (formed_of_ofWord? h) hstops] at hscan
      obtain ⟨us, -, hus⟩ := bind_eq_ok.mp hscan
      rw [← Except.ok.inj hus] at hderives
      exact absurd hderives (not_derives_of_ofWord? h)

end

namespace Shell

variable (shell : Shell) {lead w tail : List Char} {command : Command}

/-! ## where the command is found -/

/-- A line that starts with a command word and goes on with a space, or not at all, runs the
command. -/
theorem execute_of_spaced (hw : Command.ofWord? w = some command)
    (htail : ∀ c ∈ tail.head?, c = ' ') :
    shell.execute (w ++ tail) = shell.run command (strip tail) := by
  have hword : (w ++ tail).takeWhile (· != ' ') = w :=
    takeWhile_append_of_stop (ne_space_of_ofWord? hw) fun c hc => by simp [htail c hc]
  have hargument : strip ((w ++ tail).drop (w.length + 1)) = strip tail := by
    rw [← List.drop_drop, List.drop_left]
    cases tail with
    | nil => rfl
    | cons c cs =>
        rw [htail c rfl, strip_blank isBlank_space]
        rfl
  simp only [execute, hword, hw, hargument]

/-! ## where it is not found -/

/-- A line that starts with a blank, or goes on with another blank than a space behind its first
word, has no command. -/
theorem command?_eq_none (hw : Command.ofWord? w = some command)
    (hlead : ∀ c ∈ lead, isBlank c = true) (htail : ∀ c ∈ tail.head?, isBlank c = true)
    (h : ¬(lead = [] ∧ ∀ c ∈ tail.head?, c = ' ')) :
    command? (lead ++ (w ++ tail)) = none := by
  have hnone : ∀ {typed : List Char}, (typed = [] ∨ ∃ c ∈ typed, isBlank c = true) →
      Command.ofWord? typed = none := by
    intro typed htyped
    by_contra hsome
    obtain ⟨found, hfound⟩ := Option.ne_none_iff_exists'.mp hsome
    rcases htyped with hempty | ⟨c, hc, hblank⟩
    · exact ne_nil_of_ofWord? hfound hempty
    · rw [not_isBlank_of_isLetter (isLetter_of_ofWord? hfound c hc)] at hblank
      contradiction
  refine hnone ?_
  cases lead with
  | cons b lead =>
      by_cases hspace : b = ' '
      · left
        simp [hspace]
      · right
        exact ⟨b, by simp [hspace], hlead b (List.mem_cons_self ..)⟩
  | nil =>
      obtain ⟨b, rest, rfl, hb⟩ : ∃ b rest, tail = b :: rest ∧ b ≠ ' ' := by
        cases tail with
        | nil => exact absurd ⟨rfl, by simp⟩ h
        | cons b rest => exact ⟨b, rest, rfl, fun hspace => h ⟨rfl, by simp [hspace]⟩⟩
      right
      refine ⟨b, ?_, htail b rfl⟩
      have hrun : ∀ c ∈ w ++ [b], (c != ' ') = true := by
        intro c hc
        rcases List.mem_append.mp hc with hmem | hmem
        · exact ne_space_of_ofWord? hw c hmem
        · rw [List.mem_singleton.mp hmem, bne_iff_ne]
          exact hb
      rw [List.nil_append, List.append_cons, List.takeWhile_append_of_pos hrun]
      simp

/-- Such a line is read as an expression and refused.  The function is lost. -/
theorem execute_of_unspaced (hw : Command.ofWord? w = some command)
    (hlead : ∀ c ∈ lead, isBlank c = true) (htail : ∀ c ∈ tail.head?, isBlank c = true)
    (h : ¬(lead = [] ∧ ∀ c ∈ tail.head?, c = ' ')) :
    shell.execute (lead ++ (w ++ tail)) = shell.define .algebraic (lead ++ (w ++ tail)) ∧
      ∃ reason, Definition.read .algebraic (lead ++ (w ++ tail)) = .error reason ∧
        (shell.execute (lead ++ (w ++ tail))).shell =
          ⟨{ shell.engine with definition := none, lastError := some reason }, .algebraic⟩ := by
  have hentered : entered? (lead ++ (w ++ tail)) = some (.algebraic, lead ++ (w ++ tail)) := by
    rw [entered?, command?_eq_none hw hlead htail h]
  have hexecute := execute_of_entered shell hentered
  obtain ⟨reason, hread⟩ := read_eq_error_of_ofWord? hw hlead htail nestingLimit
  refine ⟨hexecute, reason, hread, ?_⟩
  rw [hexecute, define, hread]
  rfl

/-- A line whose first word, between blanks, is a command word.

* If it starts with that word and goes on with a space, or not at all, it runs the command, and the
  blanks around the argument do not matter: with further blanks behind the space the same comes of
  it, in every respect.
* Otherwise it is an expression that is refused, and the function is lost. -/
theorem execute_of_word (hw : Command.ofWord? w = some command)
    (hlead : ∀ c ∈ lead, isBlank c = true) (htail : ∀ c ∈ tail.head?, isBlank c = true) :
    ((lead = [] ∧ ∀ c ∈ tail.head?, c = ' ') →
      shell.execute (lead ++ (w ++ tail)) = shell.run command (strip tail)) ∧
    (∀ s a, (∀ c ∈ s, isBlank c = true) →
      shell.execute (w ++ ' ' :: (s ++ a)) = shell.execute (w ++ ' ' :: a)) ∧
    (¬(lead = [] ∧ ∀ c ∈ tail.head?, c = ' ') →
      shell.execute (lead ++ (w ++ tail)) = shell.define .algebraic (lead ++ (w ++ tail)) ∧
        ∃ reason, Definition.read .algebraic (lead ++ (w ++ tail)) = .error reason ∧
          (shell.execute (lead ++ (w ++ tail))).shell =
            ⟨{ shell.engine with definition := none, lastError := some reason }, .algebraic⟩) := by
  refine ⟨?_, fun s a hs => ?_, execute_of_unspaced shell hw hlead htail⟩
  · rintro ⟨rfl, hspaced⟩
    exact execute_of_spaced shell hw hspaced
  · rw [execute_of_spaced shell hw (by simp), execute_of_spaced shell hw (by simp),
      strip_blank isBlank_space, strip_blank isBlank_space, strip_blanks hs]

/-- Behind two spaces an argument is found, and behind a tab the command is not. -/
theorem execute_of_word_print :
    let shell : Shell := ⟨{ Engine.new {} with definition := some ⟨.var, .const 1⟩ }, .algebraic⟩
    let spaced := "print".toList ++ ' ' :: "RPN".toList
    let tabbed := "print".toList ++ '\t' :: "RPN".toList
    Command.ofWord? "print".toList = some .print ∧
      shell.execute ("print".toList ++ ' ' :: ([' '] ++ "RPN".toList)) = shell.execute spaced ∧
      (shell.execute spaced).printed = "f(x)  = x\nf'(x) = 1\n".toList ∧
      shell.execute tabbed = shell.define .algebraic tabbed ∧
        ∃ reason, Definition.read .algebraic tabbed = .error reason ∧
          (shell.execute tabbed).shell =
            ⟨{ shell.engine with definition := none, lastError := some reason }, .algebraic⟩ := by
  intro shell spaced tabbed
  have hword : Command.ofWord? "print".toList = some .print := by decide
  have htab : isBlank '\t' = true := by decide
  have hrun : (shell.run .print (strip (' ' :: "RPN".toList))).printed =
      "f(x)  = x\nf'(x) = 1\n".toList := by decide +kernel
  obtain ⟨hfound, hblanks, -⟩ := @execute_of_word shell [] "print".toList (' ' :: "RPN".toList)
    .print hword (by simp) (by simp [isBlank_space])
  obtain ⟨-, -, hrefused⟩ := @execute_of_word shell [] "print".toList ('\t' :: "RPN".toList)
    .print hword (by simp) (by simp [htab])
  have hprint := hfound ⟨rfl, by simp⟩
  exact ⟨hword, hblanks [' '] _ (by simp [isBlank_space]), (congrArg Reply.printed hprint).trans hrun,
    hrefused (by simp)⟩

/-- Not every blank will do behind a command word: with a tab in place of the space, to look at a
function is to lose it. -/
theorem execute_print_tab :
    let d : Definition := ⟨.var, .const 1⟩
    let shell : Shell := ⟨{ Engine.new {} with definition := some d }, .algebraic⟩
    Command.ofWord? "PRINT".toList = some .print ∧ isBlank '\t' = true ∧
      (shell.execute ("PRINT".toList ++ ' ' :: "RPN".toList)).shell.engine.definition = some d ∧
      (shell.execute ("PRINT".toList ++ '\t' :: "RPN".toList)).shell.engine.definition = none ∧
      ¬∀ (shell : Shell) (w s a : List Char), (Command.ofWord? w).isSome = true → s ≠ [] →
        (∀ c ∈ s, isBlank c = true) →
          shell.execute (w ++ (s ++ a)) = shell.execute (w ++ ' ' :: a) := by
  intro d shell
  have hword : Command.ofWord? "PRINT".toList = some .print := by decide
  have htab : isBlank '\t' = true := by decide
  have hfound := @execute_of_spaced shell "PRINT".toList (' ' :: "RPN".toList) .print hword
    (by simp)
  obtain ⟨-, reason, -, hrefused⟩ := @execute_of_unspaced shell [] "PRINT".toList
    ('\t' :: "RPN".toList) .print hword (by simp) (by simp [htab]) (by simp)
  rw [List.nil_append] at hrefused
  have hkept : (shell.execute ("PRINT".toList ++ ' ' :: "RPN".toList)).shell.engine.definition =
      some d := by
    rw [hfound, shell_run]
  have hlost : (shell.execute ("PRINT".toList ++ '\t' :: "RPN".toList)).shell.engine.definition =
      none := by
    rw [hrefused]
  refine ⟨hword, htab, hkept, hlost, fun hall => ?_⟩
  have hsame := hall shell "PRINT".toList ['\t'] "RPN".toList (by decide) (by simp)
    (by simp [htab])
  rw [List.singleton_append] at hsame
  rw [hsame, hkept] at hlost
  contradiction

end Shell

end GraphCalc
