import FieldUsage.Host.Goal

/-!
Operators between expressions and in front of assignments. A `>` is read alone as a token, because
it may close type arguments; only between expressions it is joined with the marks right behind it.
-/

namespace FieldUsage.Host.Operator

open Reader

variable {text : List Char}

def precedences : List (String × Nat) :=
  [("??", 1), ("||", 1), ("&&", 2), ("|", 3), ("^", 4), ("&", 5),
   ("==", 6), ("!=", 6), ("===", 6), ("!==", 6),
   ("<", 7), ("<=", 7), (">", 7), (">=", 7), ("instanceof", 7), ("in", 7),
   ("<<", 8), (">>", 8), (">>>", 8), ("+", 9), ("-", 9), ("*", 10), ("/", 10), ("%", 10),
   ("**", 11)]

/-- The precedence of `in`, which casts share. -/
def castPrecedence : Nat := 7

def assignments : List String :=
  ["=", "+=", "-=", "*=", "/=", "%=", "**=", "<<=", ">>=", ">>>=", "&=", "|=", "^=", "&&=", "||=",
   "??="]

def unaryWords : List String := ["delete", "void", "typeof"]

def unaryMarks : List String := ["+", "-", "~", "!"]

/-- The mark at the current token, joined with what follows a `>`. -/
def wideMark : Reader text (Option String) := do
  let state ← get
  match state.token with
  | .mark ">" => return some (String.ofList (greaterMark state.cursor.rest))
  | .mark mark => return some mark
  | _ => return none

/-- Passes over the mark at the current token, joined with what follows a `>`. -/
def advanceWide : Reader text Unit := do
  let state ← get
  match state.token with
  | .mark ">" => jump (state.cursor.advance (greaterMark state.cursor.rest).length)
  | _ => advance

def binary? : Reader text (Option (String × Nat)) := do
  match ← current with
  | .word "in" false => return if (← read).hasIn then some ("in", 7) else none
  | .word "instanceof" false => return some ("instanceof", 7)
  | _ =>
      match ← wideMark with
      | some mark => return (precedences.lookup mark).map fun precedence => (mark, precedence)
      | none => return none

/-- Whether the current token is a mark that joins two expressions. -/
def isBinaryMark : Reader text Bool := do
  match ← wideMark with
  | some mark => return (precedences.lookup mark).isSome
  | none => return false

def assignment? : Reader text (Option String) := do
  match ← wideMark with
  | some mark => return if assignments.contains mark then some mark else none
  | none => return none

/-- Whether an operator is joined with an operand that would need parentheses: `??` is not mixed
with the other logical operators. -/
def mixes (operator : String) (operand : Form text) : Bool :=
  if operator == "??" then operand == .binary "&&" || operand == .binary "||"
  else (operator == "&&" || operator == "||") && operand == .binary "??"

/-- Notes an expression that is changed though it cannot be assigned to. -/
def checkTarget (node : Node text) : Reader text Unit := do
  unless node.form.assignable do note node.start

end FieldUsage.Host.Operator
