import GraphCalc.Figure
import GraphCalc.Text.Blank
import GraphCalc.Text.Capital

/-!
# GraphCalc.Shell

The command shell.  A line is a command if what stands before its first space is a command word, in
any case; what follows is the command's argument, without the blanks at its ends.  Any other line is
an expression in algebraic notation.

The shell shows expressions in the notation of the last one that was typed, whether that one was
accepted or not.
-/

namespace GraphCalc

/-! ## commands -/

/-- The commands. -/
inductive Command where
  | define (format : Notation)
  | print
  | area
  | plot
  | reset
  | help
  | exit
deriving DecidableEq

namespace Command

/-- Every command, in the order of the help text. -/
def all : List Command :=
  [define .algebraic, define .reversePolish, print, area, plot, reset, help, exit]

/-- The word a command is chosen by. -/
def word : Command → String
  | define format => format.name
  | print => "PRINT"
  | area => "AREA"
  | plot => "PLOT"
  | reset => "RESET"
  | help => "HELP"
  | exit => "EXIT"

/-- A command with its argument. -/
def usage : Command → String
  | define format => format.name ++ " <expression>"
  | print => "PRINT [AOS|RPN]"
  | area => "AREA [RECT|TRAP]"
  | plot => "PLOT [CARTESIAN|POLAR]"
  | reset => "RESET"
  | help => "HELP"
  | exit => "EXIT"

/-- The command that a word in any case stands for. -/
def ofWord? (word : List Char) : Option Command :=
  let typed := Text.capitals word
  all.find? fun c => c.word.toList == typed

end Command

/-! ## the shell -/

/-- An engine, and the notation expressions are shown in. -/
structure Shell where
  engine : Engine
  format : Notation

/-- Why a line fails. -/
inductive ShellError where
  /-- The argument of a command is none of its choices. -/
  | usage (command : Command)
  | numeric (e : NumericError Float)
  /-- The line asks to leave the shell. -/
  | exit
deriving DecidableEq

/-- How a failure is put. -/
def ShellError.message : ShellError → List Char
  | usage command => "Syntax error. Correct usage:\n  ".toList ++ command.usage.toList
  | numeric e => e.message
  | exit => []

/-- What comes of a line: the shell after it, the text it prints, the figure it opens, the log
entries, and the failure it ends in. -/
structure Reply where
  shell : Shell
  printed : List Char := []
  figure : Option Figure := none
  log : List (List Char) := []
  failure : Option ShellError := none

namespace Shell

/-- A shell with a new engine. -/
def new (settings : Settings) : Shell := ⟨Engine.new settings, .algebraic⟩

/-- A line of text as it is printed. -/
def printLine (text : List Char) : List Char := text ++ ['\n']

/-! ## arguments -/

/-- What an argument chooses, in any case; nothing is the default. -/
def choose {β : Type} (command : Command) (choices : List (String × β)) (default : β)
    (argument : List Char) : Except ShellError β :=
  if argument.isEmpty then .ok default
  else
    let typed := Text.capitals argument
    match choices.find? fun choice => choice.1.toList == typed with
    | some choice => .ok choice.2
    | none => .error (.usage command)

/-- The notations by name. -/
def notations : List (String × Notation) :=
  [(Notation.algebraic.name, .algebraic), (Notation.reversePolish.name, .reversePolish)]

/-- The rules of integration by name. -/
def rules : List (String × Quadrature.Rule) :=
  [("RECT", .rectangles), ("RECTANGULAR", .rectangles), ("TRAP", .trapezoids),
    ("TRAPEZOIDAL", .trapezoids)]

/-- The kinds of plot by name. -/
def projections : List (String × Projection) :=
  [("CARTESIAN", .cartesian), ("POLAR", .polar)]

/-! ## what commands do -/

/-- The function and its derivative, as they are shown. -/
def definitionText (engine : Engine) (format : Notation) : List Char :=
  match engine.lines format with
  | [] => printLine "No function".toList
  | lines =>
    (List.zip ["f(x)  = ".toList, "f'(x) = ".toList] lines).flatMap fun (label, line) =>
      printLine (label ++ line)

/-- Reads an expression, and shows it or the reason why it is refused. -/
def define (shell : Shell) (format : Notation) (text : List Char) : Reply :=
  let outcome := Definition.read format text
  let engine := shell.engine.adopt outcome
  let printed := match outcome with
    | .ok _ => definitionText engine format
    | .error reason => printLine "Invalid expression".toList ++ printLine reason.message
  { shell := ⟨engine, format⟩, printed := printed,
    log := [Definition.logEntry format text outcome] }

/-- Shows the function and its derivative. -/
def print (shell : Shell) (argument : List Char) : Reply :=
  match choose .print notations shell.format argument with
  | .error e => { shell := shell, failure := some e }
  | .ok format => { shell := shell, printed := definitionText shell.engine format }

/-- Shows the integral of the function.  The failure `NumericError.endless` stands for a sum that is
never left: such a line has no answer, and no line after it is read. -/
def area (shell : Shell) (argument : List Char) : Reply :=
  match choose .area rules shell.engine.settings.rule argument with
  | .error e => { shell := shell, failure := some e }
  | .ok rule =>
    match shell.engine.area { rule := some rule } with
    | .error e => { shell := shell, failure := some (.numeric e) }
    | .ok v => { shell := shell, printed := printLine (Number.written v) }

/-- Opens a figure of the function and its derivative.  The failure `NumericError.endless` stands
for a curve that is never left: such a figure keeps only its axes, and no line after this one is
read. -/
def plot (shell : Shell) (argument : List Char) : Reply :=
  match choose .plot projections .cartesian argument with
  | .error e => { shell := shell, failure := some e }
  | .ok projection =>
    let figure := Figure.draw shell.engine projection
    { shell := shell, figure := some figure, failure := figure.failure.map .numeric }

/-- The usage of every command. -/
def helpText : List Char :=
  Command.all.flatMap fun c => printLine ("  Syntax: ".toList ++ c.usage.toList)

/-- Runs a command. -/
def run (shell : Shell) (command : Command) (argument : List Char) : Reply :=
  match command with
  | .define format => shell.define format argument
  | .print => shell.print argument
  | .area => shell.area argument
  | .plot => shell.plot argument
  | .reset => { shell := { shell with engine := shell.engine.reset } }
  | .help => { shell := shell, printed := helpText }
  | .exit => { shell := shell, failure := some .exit }

/-- Runs a line. -/
def execute (shell : Shell) (line : List Char) : Reply :=
  let word := line.takeWhile (· != ' ')
  let rest := line.drop (word.length + 1)
  match Command.ofWord? word with
  | some command => shell.run command (Text.strip rest)
  | none => shell.define .algebraic line

end Shell

end GraphCalc
