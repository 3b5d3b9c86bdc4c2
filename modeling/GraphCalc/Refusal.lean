/-!
# GraphCalc.Refusal

Why a text is not read as an expression.

A problem with a place in the line is a `Flaw` while the line is being read, in positions of the whole
line.  What is shown of it is a `Complaint`: the part of the line that was being read, with carets
under the place.  Every other reason to refuse a text is a constructor of `Refusal`.
-/

namespace GraphCalc

/-! ## problems with a place -/

/-- What is wrong at a place in a line. -/
inductive Problem where
  | unrecognized (c : Char)
  | secondPeriod
  | lonePeriod
  | unmatchedOpening
  | unmatchedClosing
  | missingOperand
  | unexpectedToken
  /-- Anything else, in the words of whoever complains. -/
  | remark (words : List Char)
deriving DecidableEq

/-- How a problem is put. -/
def Problem.message : Problem → List Char
  | unrecognized c => "Unrecognized character '".toList ++ c :: ['\x27']
  | secondPeriod => "Unexpected period (.)".toList
  | lonePeriod => "Invalid number".toList
  | unmatchedOpening => "Unmatched \"(\"".toList
  | unmatchedClosing => "Unmatched \")\"".toList
  | missingOperand => "Missing operand".toList
  | unexpectedToken => "Unexpected token".toList
  | remark words => words

/-- A problem as it is shown: `length` characters of `text` from `index` on are to blame. -/
structure Complaint where
  problem : Problem
  text : List Char
  index : Nat
  length : Nat
deriving DecidableEq

/-- A complaint in three lines: the text, carets under the place, and the problem. -/
def Complaint.message (c : Complaint) : List Char :=
  "\nERROR: ".toList ++ c.text
    ++ "\n       ".toList ++ List.replicate c.index ' ' ++ List.replicate c.length '^'
    ++ '\n' :: c.problem.message

/-! ## refusals -/

/-- Why a text is refused. -/
inductive Refusal where
  /-- Something is wrong at a place in the text. -/
  | located (complaint : Complaint)
  /-- There is nothing where an expression should be. -/
  | empty
  /-- A call of a name that is no function. -/
  | unknownFunction (name : List Char)
  /-- An operation with a symbol that is no operator. -/
  | unknownOperator (symbol : List Char)
  /-- A word or number that stands for nothing. -/
  | unknownToken (text : List Char)
  /-- A word of reverse Polish text that stands for nothing. -/
  | illegalToken (text : List Char)
  /-- Reverse Polish text in which operands are missing or left over. -/
  | unbalanced
  /-- An expression nested beyond what is handled. -/
  | tooDeep
deriving DecidableEq

/-- How a refusal is put. -/
def Refusal.message : Refusal → List Char
  | located complaint => complaint.message
  | empty => "Empty expression".toList
  | unknownFunction name => "Unknown function \"".toList ++ name ++ ['\x22']
  | unknownOperator symbol => "Unknown operator \"".toList ++ symbol ++ ['\x22']
  | unknownToken text => "Unknown token \"".toList ++ text ++ ['\x22']
  | illegalToken text => "Illegal token \"".toList ++ text ++ ['\x22']
  | unbalanced => "Invalid RPN expression".toList
  | tooDeep => "maximum recursion depth exceeded".toList

/-- Expressions nested to more levels than this are refused, so that no later operation on an accepted
one has to descend further. -/
def nestingLimit : Nat := 980

/-! ## flaws -/

/-- A part of a line, from one position up to another. -/
structure Window where
  start : Nat
  stop : Nat
deriving DecidableEq

/-- The part of `line` that a window shows. -/
def Window.text (window : Window) (line : List Char) : List Char :=
  (line.take window.stop).drop window.start

/-- Why reading stops, with a place in the whole line. -/
inductive Flaw where
  | located (problem : Problem) (start length : Nat)
  | empty
  | tooDeep
deriving DecidableEq

/-- The refusal that a flaw leads to while a window of `line` is being read. -/
def Flaw.refusal (line : List Char) (window : Window) : Flaw → Refusal
  | located problem start length =>
    .located ⟨problem, window.text line, start - window.start, length⟩
  | empty => .empty
  | tooDeep => .tooDeep

end GraphCalc
