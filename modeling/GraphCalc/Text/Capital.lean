/-!
# GraphCalc.Text.Capital

Capitals, for comparing what was typed with a command name.  The names are ASCII, so a character
matters only if its capital is: the ASCII letters, and the two letters `ſ` and `ı`, whose capitals are
`S` and `I`.  (`ß` and the Latin ligatures have capitals of several ASCII letters: `SS`, `FF`, `FI`,
`FL`, `FFI`, `FFL` and `ST`.  No command name contains any of these, so such a character keeps a word
from being a command whether it is capitalised or left alone.)
-/

namespace GraphCalc.Text

/-- The capital of a character that has an ASCII capital; any other character itself. -/
def capital (c : Char) : Char :=
  if c == 'ſ' then 'S' else if c == 'ı' then 'I' else c.toUpper

/-- A word in capitals. -/
def capitals (cs : List Char) : List Char := cs.map capital

end GraphCalc.Text
