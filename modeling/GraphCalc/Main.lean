import GraphCalc.Console

/-!
# GraphCalc.Main

The shell at a terminal.  Lines come from standard input and answers go to standard output; the log
goes to standard error, if `-v` or `--verbose` asks for it.  A terminal has nowhere to show a figure,
so figures are computed and dropped.  An interrupt ends the program.
-/

namespace GraphCalc.Console

/-- Asks for lines until one ends the run.  The end of the input does not. -/
partial def converse (arguments : List String) (input output log : IO.FS.Stream) (shell : Shell) :
    IO Unit := do
  output.putStr (String.ofList prompt)
  output.flush
  let line ← input.getLine
  if line.isEmpty then
    output.putStr (String.ofList endOfInput)
    converse arguments input output log shell
  else
    let turn := turn shell line.toList
    log.putStr (String.ofList (logText arguments turn.log))
    output.putStr (String.ofList turn.printed)
    output.flush
    if turn.ends then return
    converse arguments input output log turn.shell

end GraphCalc.Console

open GraphCalc

/-- Runs the shell with the default settings. -/
def main (arguments : List String) : IO Unit := do
  Console.converse arguments (← IO.getStdin) (← IO.getStdout) (← IO.getStderr) (Shell.new {})
