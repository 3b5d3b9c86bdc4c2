import GraphCalc.Console

/-!
# GraphCalc.Proofs.Shell.Runs

What a run of the shell comes to.

A line enters an expression, forgets the function, or only looks.  Lines that look may fail, and
leave the shell as it is; the others cannot fail:

* `Shell.shell_execute` — the shell after one line;
* `Shell.changes_eq_false_of_failure` — a line that fails is one that only looks;
* `Shell.format_after`, `Shell.after_eq_filter` — the notation and the shell after many lines;
* `Console.run_eq` — a run at the console is the lines executed one after the other;
* `Console.run_in_order` — so all this holds of any run at the console.
-/

namespace GraphCalc

namespace Shell

/-! ## lines -/

/-- The command that a line starts with. -/
def command? (line : List Char) : Option Command := Command.ofWord? (line.takeWhile (· != ' '))

/-- What follows the first word of a line, without the blanks at its ends. -/
def argument (line : List Char) : List Char :=
  Text.strip (line.drop ((line.takeWhile (· != ' ')).length + 1))

/-- The expression that a line enters, and its notation.  A line without a command is one. -/
def entered? (line : List Char) : Option (Notation × List Char) :=
  match command? line with
  | some (.define format) => some (format, argument line)
  | some _ => none
  | none => some (.algebraic, line)

/-- The line enters an expression, or forgets the function. -/
def changes (line : List Char) : Bool :=
  (entered? line).isSome || command? line == some .reset

/-- The line asks to leave the shell. -/
def leaves (line : List Char) : Bool := command? line == some .exit

variable (shell : Shell) {line : List Char}

/-- A line that enters an expression defines it. -/
theorem execute_of_entered {format : Notation} {text : List Char}
    (h : entered? line = some (format, text)) : shell.execute line = shell.define format text := by
  unfold entered? command? at h
  unfold execute
  dsimp only
  cases hcommand : Command.ofWord? (line.takeWhile (· != ' ')) with
  | none =>
      rw [hcommand] at h
      cases h
      rfl
  | some command =>
      rw [hcommand] at h
      cases command with
      | define format =>
          cases h
          rfl
      | _ => contradiction

/-- Any other line runs its command. -/
theorem execute_of_command (h : entered? line = none) : ∃ command, command? line = some command ∧
    (∀ format, command ≠ .define format) ∧
      shell.execute line = shell.run command (argument line) := by
  unfold entered? at h
  cases hcommand : command? line with
  | none =>
      rw [hcommand] at h
      contradiction
  | some command =>
      refine ⟨command, rfl, ?_, ?_⟩
      · rintro format rfl
        rw [hcommand] at h
        contradiction
      · unfold command? at hcommand
        simp only [execute, hcommand, argument]

/-! ## commands -/

theorem choose_eq_error {β : Type} {command : Command} {choices : List (String × β)} {default : β}
    {argument : List Char} {e : ShellError}
    (h : choose command choices default argument = .error e) : e = .usage command := by
  unfold choose at h
  split at h
  · contradiction
  · dsimp only at h
    split at h
    · contradiction
    · cases h
      rfl

/-- What a command does to the shell, which for most of them is nothing. -/
theorem shell_run (command : Command) (argument : List Char) :
    (shell.run command argument).shell =
      match command with
      | .define format => ⟨shell.engine.define format argument, format⟩
      | .reset => { shell with engine := shell.engine.reset }
      | _ => shell := by
  cases command with
  | define | reset | help | exit => rfl
  | print =>
      simp only [run, print]
      split <;> rfl
  | area =>
      simp only [run, area]
      split
      · rfl
      · split <;> rfl
  | plot =>
      simp only [run, plot]
      split <;> rfl

/-- To enter an expression and to forget the function are commands that cannot fail, and leaving is
the only one that ends in leaving. -/
theorem failure_run (command : Command) (argument : List Char) :
    match command with
    | .define _ | .reset | .help => (shell.run command argument).failure = none
    | .exit => (shell.run command argument).failure = some .exit
    | _ => (shell.run command argument).failure ≠ some .exit := by
  cases command with
  | define | reset | help | exit => rfl
  | print =>
      simp only [run, print]
      split
      · next e he => simp [choose_eq_error he]
      · simp
  | area =>
      simp only [run, area]
      split
      · next e he => simp [choose_eq_error he]
      · split <;> simp
  | plot =>
      simp only [run, plot]
      split
      · next e he => simp [choose_eq_error he]
      · simp

/-! ## one line -/

/-- The shell after a line. -/
theorem shell_execute (line : List Char) : (shell.execute line).shell =
    match entered? line with
    | some (format, text) => ⟨shell.engine.define format text, format⟩
    | none => if command? line = some .reset then { shell with engine := shell.engine.reset }
      else shell := by
  cases hentered : entered? line with
  | some entered => rw [execute_of_entered shell hentered]; rfl
  | none =>
      obtain ⟨command, hcommand, hdefine, hrun⟩ := execute_of_command shell hentered
      rw [hrun, hcommand, shell_run]
      cases command with
      | define format => exact absurd rfl (hdefine format)
      | _ => simp

/-- A line that only looks leaves the shell as it is. -/
theorem shell_execute_of_not_changes (h : changes line = false) :
    (shell.execute line).shell = shell := by
  rw [changes, Bool.or_eq_false_iff, Option.isSome_eq_false_iff, Option.isNone_iff_eq_none,
    beq_eq_false_iff_ne] at h
  rw [shell_execute, h.1, if_neg h.2]

/-- A line that fails is one that only looks. -/
theorem changes_eq_false_of_failure (h : (shell.execute line).failure ≠ none) :
    changes line = false := by
  cases hentered : entered? line with
  | some entered =>
      rw [execute_of_entered shell hentered] at h
      exact absurd rfl h
  | none =>
      obtain ⟨command, hcommand, hdefine, hrun⟩ := execute_of_command shell hentered
      have hreset : command ≠ .reset := by
        rintro rfl
        rw [hrun] at h
        exact h rfl
      simp [changes, hentered, hcommand, hreset]

/-- A line that enters an expression cannot fail. -/
theorem failure_execute_of_entered {entered : Notation × List Char}
    (h : entered? line = some entered) : (shell.execute line).failure = none := by
  rw [execute_of_entered shell h]
  rfl

/-- Only the command to leave ends in leaving. -/
theorem failure_eq_exit_iff : (shell.execute line).failure = some .exit ↔ leaves line = true := by
  rw [leaves, beq_iff_eq]
  cases hentered : entered? line with
  | some entered =>
      rw [failure_execute_of_entered shell hentered]
      simp only [reduceCtorEq, false_iff]
      intro hexit
      rw [entered?, hexit] at hentered
      contradiction
  | none =>
      obtain ⟨command, hcommand, -, hrun⟩ := execute_of_command shell hentered
      have hfailure := failure_run shell command (argument line)
      rw [hrun, hcommand]
      cases command <;> simp_all

/-! ## lines one after the other -/

/-- The shell after some lines. -/
def after (shell : Shell) (lines : List (List Char)) : Shell :=
  lines.foldl (fun shell line => (shell.execute line).shell) shell

/-- What comes of some lines, one after the other. -/
def replies (shell : Shell) : List (List Char) → List Reply
  | [] => []
  | line :: lines => shell.execute line :: (shell.execute line).shell.replies lines

theorem after_cons (line : List Char) (lines : List (List Char)) :
    shell.after (line :: lines) = (shell.execute line).shell.after lines := rfl

/-- The notation is that of the last expression that was entered. -/
theorem format_after (lines : List (List Char)) : (shell.after lines).format =
    (((lines.filterMap entered?).getLast?).map Prod.fst).getD shell.format := by
  induction lines generalizing shell with
  | nil => rfl
  | cons line lines ih =>
      rw [after_cons, ih, shell_execute, List.filterMap_cons]
      cases entered? line with
      | some entered =>
          rw [List.getLast?_cons]
          cases (lines.filterMap entered?).getLast? <;> rfl
      | none =>
          dsimp only
          split <;> rfl

/-- A text that is refused counts, and forgetting the function does not. -/
example : ((["rpn +".toList, "reset".toList].filterMap entered?).getLast?).map Prod.fst =
    some .reversePolish := by decide +kernel

/-- Lines that only look can be left out. -/
theorem after_eq_filter (lines : List (List Char)) :
    shell.after lines = shell.after (lines.filter changes) := by
  induction lines generalizing shell with
  | nil => rfl
  | cons line lines ih =>
      cases h : changes line with
      | true => rw [List.filter_cons_of_pos h, after_cons, after_cons, ih]
      | false =>
          rw [List.filter_cons_of_neg (by simp [h]), after_cons,
            shell_execute_of_not_changes shell h, ih]

end Shell

namespace Console

open Shell

/-! ## the console -/

/-- The lines that are read at the console, without the blanks at their ends, up to the first one
that leaves the shell. -/
def heard : List (List Char) → List (List Char)
  | [] => []
  | line :: lines =>
    if leaves (Text.strip line) then [Text.strip line] else Text.strip line :: heard lines

/-- The lines among them that are executed. -/
def executed (lines : List (List Char)) : List (List Char) :=
  (heard lines).filter fun line => !line.isEmpty

/-- What comes of every line that is read, which is nothing if it is empty. -/
def answers (shell : Shell) : List (List Char) → List (Option Reply)
  | [] => []
  | line :: lines =>
    if line.isEmpty then none :: answers shell lines
    else some (shell.execute line) :: answers (shell.execute line).shell lines

/-- What stands on the console after a line was asked for: the text that it prints and, if it fails,
the message of the failure.  Leaving has none. -/
def shown : Option Reply → List Char
  | none => []
  | some reply =>
    reply.printed ++
      match reply.failure with
      | none | some .exit => []
      | some e => printLine e.message

/-- What comes of a run at the console, from the lines that are read and executed. -/
def summary (shell : Shell) (lines : List (List Char)) : Transcript where
  shell := shell.after (executed lines)
  printed := ((answers shell (heard lines)).flatMap fun answer => prompt ++ shown answer) ++
    if (heard lines).any leaves then [] else prompt
  log := (shell.replies (executed lines)).flatMap Reply.log
  figures := (shell.replies (executed lines)).flatMap fun reply => reply.figure.toList

variable (shell : Shell) {line : List Char} (lines : List (List Char))

/-- The answers that there are come from the lines that are executed. -/
theorem filterMap_answers : (answers shell lines).filterMap id =
    shell.replies (lines.filter fun line => !line.isEmpty) := by
  induction lines generalizing shell with
  | nil => rfl
  | cons line lines ih =>
      by_cases hempty : line.isEmpty = true
      · rw [answers, if_pos hempty, List.filter_cons_of_neg (by simp [hempty])]
        exact ih shell
      · rw [answers, if_neg hempty, List.filter_cons_of_pos (by simpa using hempty), replies]
        exact congrArg _ (ih _)

theorem run_blank (h : Text.strip line = []) :
    run shell (line :: lines) =
      { run shell lines with printed := prompt ++ (run shell lines).printed } := by
  simp [run, turn, h]

theorem turn_line (h : Text.strip line ≠ []) :
    turn shell line =
      let reply := shell.execute (Text.strip line)
      ⟨reply.shell, shown (some reply), reply.figure, reply.log, reply.failure == some .exit⟩ := by
  have hempty : ¬(Text.strip line).isEmpty = true := by simpa using h
  exact if_neg hempty

theorem run_line (h : Text.strip line ≠ []) :
    run shell (line :: lines) =
      let reply := shell.execute (Text.strip line)
      let rest := if leaves (Text.strip line) then ⟨reply.shell, [], [], []⟩
        else run reply.shell lines
      ⟨rest.shell, prompt ++ shown (some reply) ++ rest.printed, reply.log ++ rest.log,
        reply.figure.toList ++ rest.figures⟩ := by
  have hends : (((shell.execute (Text.strip line)).failure == some .exit) = true) ↔
      leaves (Text.strip line) = true := by
    rw [beq_iff_eq]
    exact failure_eq_exit_iff shell
  simp only [run, turn_line shell h, hends]

/-- A run at the console is the lines executed one after the other. -/
theorem run_eq : run shell lines = summary shell lines := by
  induction lines generalizing shell with
  | nil => rfl
  | cons line lines ih =>
      by_cases hblank : Text.strip line = []
      · have hstays : leaves [] = false := by decide
        rw [run_blank shell lines hblank, ih]
        simp [summary, executed, heard, answers, hblank, hstays, shown]
      · have hempty : (Text.strip line).isEmpty = false := by simpa using hblank
        rw [run_line shell lines hblank]
        cases hleaves : leaves (Text.strip line) with
        | true =>
            simp [summary, executed, heard, answers, replies, after, hleaves, hblank]
        | false =>
            simp [summary, executed, heard, answers, replies, after, hleaves, hblank, ih]

/-- Nothing is read after a line that leaves the shell. -/
theorem rest_of_leaves {before rest : List (List Char)}
    (h : executed lines = before ++ line :: rest) (hleaves : leaves line = true) : rest = [] := by
  have hheard : ∀ before rest, heard lines = before ++ line :: rest → rest = [] := by
    clear h
    intro before
    induction lines generalizing before with
    | nil => simp [heard]
    | cons first lines ih =>
        intro rest h
        rw [heard] at h
        split at h
        · cases before with
          | nil => exact (List.cons.inj h).2.symm
          | cons => simp at h
        · next hstays =>
          cases before with
          | nil =>
              rw [(List.cons.inj h).1] at hstays
              contradiction
          | cons => exact ih _ _ (List.cons.inj h).2
  obtain ⟨a, b, hsplit, -, hb⟩ := List.filter_eq_append_iff.mp h
  obtain ⟨c, d, rfl, -, -, hd⟩ := List.filter_eq_cons_iff.mp hb
  have hnone := hheard (a ++ c) d (by rw [hsplit, List.append_assoc])
  rw [← hd, hnone, List.filter_nil]

/-- A run of the shell over any lines, with any engine.

* The lines are executed one after the other, without the blanks at their ends and without the empty
  ones, up to the first that leaves the shell.  What each of them prints, opens and logs comes in
  this order, with the message of a failure at the end, and the next line is asked for.  The run
  also ends with its lines, which is how it is interrupted.
* The notation is that of the last line that entered an expression, and algebraic before any.
* Lines that neither enter an expression nor forget the function can be left out of the run.
* Such a line leaves the shell as it finds it.  So does every line that fails, and a line that
  enters an expression does not fail. -/
theorem run_in_order (engine : Engine) (lines : List (List Char)) :
    let shell : Shell := ⟨engine, .algebraic⟩
    let transcript := run shell lines
    (transcript.shell = shell.after (executed lines) ∧
      transcript.printed =
        ((answers shell (heard lines)).flatMap fun answer => prompt ++ shown answer) ++
          (if (heard lines).any leaves then [] else prompt) ∧
      transcript.log = (shell.replies (executed lines)).flatMap Reply.log ∧
      transcript.figures =
        (shell.replies (executed lines)).flatMap (fun reply => reply.figure.toList) ∧
      (answers shell (heard lines)).filterMap id = shell.replies (executed lines)) ∧
    transcript.shell.format =
      ((((executed lines).filterMap entered?).getLast?).map Prod.fst).getD .algebraic ∧
    transcript.shell = shell.after ((executed lines).filter changes) ∧
    ∀ before line rest, executed lines = before ++ line :: rest →
      let found := shell.after before
      let reply := found.execute line
      (changes line = false → reply.shell = found) ∧
      (reply.failure ≠ none → reply.shell = found) ∧
      (reply.failure = some .exit → rest = []) ∧
      ((entered? line).isSome = true → reply.failure = none) := by
  intro shell transcript
  have hrun : transcript = summary shell lines := run_eq shell lines
  rw [hrun]
  refine ⟨⟨rfl, rfl, rfl, rfl, filterMap_answers shell (heard lines)⟩,
    format_after shell (executed lines), after_eq_filter shell (executed lines),
    fun before line rest hline => ⟨fun hlooks => shell_execute_of_not_changes _ hlooks,
      fun hfails => ?_, fun hexit => ?_, fun hentered => ?_⟩⟩
  · exact shell_execute_of_not_changes _ (changes_eq_false_of_failure _ hfails)
  · exact rest_of_leaves lines hline ((failure_eq_exit_iff _).mp hexit)
  · obtain ⟨entered, hentered⟩ := Option.isSome_iff_exists.mp hentered
    exact failure_execute_of_entered _ hentered

end Console

end GraphCalc
