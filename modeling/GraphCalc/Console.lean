import GraphCalc.Shell

/-!
# GraphCalc.Console

The shell at a console, line by line.

Each line is asked for with a prompt.  The blanks at its ends are dropped and an empty line is passed
over.  A failure is shown and the next line is asked for; only the command to leave ends the run, or
an interrupt, for which a run over given lines waits at one more prompt.

The end of the input ends nothing.  It is a failure like any other, shown and asked past again and
again until the run is interrupted.
-/

namespace GraphCalc.Console

/-- What a line is asked for with. -/
def prompt : List Char := "\n>>> ".toList

/-- What comes of a line at the console: the shell after it, the text it prints, the figure it opens,
the log entries, and whether it ends the run. -/
structure Turn where
  shell : Shell
  printed : List Char := []
  figure : Option Figure := none
  log : List (List Char) := []
  ends : Bool := false

/-- One line at the console. -/
def turn (shell : Shell) (line : List Char) : Turn :=
  let line := Text.strip line
  if line.isEmpty then { shell := shell }
  else
    let reply := shell.execute line
    let shown := match reply.failure with
      | none | some .exit => []
      | some e => Shell.printLine e.message
    { shell := reply.shell, printed := reply.printed ++ shown, figure := reply.figure,
      log := reply.log, ends := reply.failure == some .exit }

/-- Everything that comes of a run: the text on the console, the log entries and the figures, each in
order, and the shell that is left. -/
structure Transcript where
  shell : Shell
  printed : List Char
  log : List (List Char)
  figures : List Figure

/-- The run of a shell over lines, interrupted at the prompt after the last of them.

The failure `NumericError.endless` is shown like any other and the run goes on.  It stands for a
loop that is never left, and there the run would stay: nothing is shown, and no line after it is
asked for. -/
def run (shell : Shell) : List (List Char) → Transcript
  | [] => ⟨shell, prompt, [], []⟩
  | line :: lines =>
    let t := turn shell line
    let rest := if t.ends then ⟨t.shell, [], [], []⟩ else run t.shell lines
    ⟨rest.shell, prompt ++ t.printed ++ rest.printed, t.log ++ rest.log,
      t.figure.toList ++ rest.figures⟩

/-- What is shown in place of a line when the input has ended. -/
def endOfInput : List Char := Shell.printLine "EOF when reading a line".toList

/-! ## the command line -/

/-- The arguments that ask for the log. -/
def isVerbose (arguments : List String) : Bool :=
  arguments.contains "-v" || arguments.contains "--verbose"

/-- A log entry as it is written. -/
def logLine (entry : List Char) : List Char :=
  "DEBUG mathplot.engine: ".toList ++ entry ++ ['\n']

/-- The log as it is written, if it was asked for. -/
def logText (arguments : List String) (log : List (List Char)) : List Char :=
  if isVerbose arguments then log.flatMap logLine else []

end GraphCalc.Console
