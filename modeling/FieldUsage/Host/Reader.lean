import FieldUsage.Host.Template
import FieldUsage.Language

/-!
Reading host text token by token. A reader holds the current token and may be sent back to an
earlier state, and it meets two kinds of faults: those that end the reading, and those that are
noted while it goes on. Only the first noted fault is kept, since only one is ever reported, and a
fault that ends the reading is reported in its place. All dialects share one grammar; types and
markup elements are the two parts of it that a dialect may lack, and where both are present a `<` is
read as markup first.
-/

namespace FieldUsage.Host

/-- Which parts of the grammar a source is written in. -/
structure Dialect where
  /-- Type annotations, declarations and casts are read. -/
  types : Bool
  /-- Markup elements are expressions. -/
  markup : Bool
deriving DecidableEq, Repr

/-- The dialect of a source language. Documents of their own are never read as host text. -/
def Dialect.ofLanguage : Language → Dialect
  | .typeScript => { types := true, markup := false }
  | .tsx => { types := true, markup := true }
  | .javaScript | .graphQL => { types := false, markup := true }

/-- What the constructs around the current token allow. -/
structure Context where
  dialect : Dialect
  /-- More than any repetition over the text can take. -/
  budget : Nat
  inFunction : Bool := false
  inAsync : Bool := false
  inGenerator : Bool := false
  /-- Some function other than an arrow is around, so that its call target can be named. -/
  hasTarget : Bool := false
  inClass : Bool := false
  /-- The class around is abstract, so that its members may be. -/
  inAbstractClass : Bool := false
  /-- The class around extends another one. -/
  inDerivedClass : Bool := false
  inParameters : Bool := false
  /-- In the value of a class field. -/
  inField : Bool := false
  /-- In a declaration without a body. -/
  inDeclare : Bool := false
  /-- `super` may be used. -/
  hasSuper : Bool := false
  canBreak : Bool := false
  canContinue : Bool := false
  /-- `in` is an operator here. -/
  hasIn : Bool := true
  /-- A colon here belongs to a conditional expression that is still open. -/
  colonExpected : Bool := false
  /-- A conditional type is not read here. -/
  plainTypes : Bool := false
  /-- Faults are not noted, because the reading is on trial. -/
  silent : Bool := false

structure State (text : List Char) where
  /-- Where the current token begins. -/
  cursor : Cursor text
  token : Token
  /-- The current token is spelled in the text if it is a word. -/
  spelled : ∀ {name : String} {escaped : Bool}, token = .word name escaped → Spelled text name
  /-- The number of characters of the current token. -/
  length : Nat
  /-- A line ends between the previous token and this one. -/
  newline : Bool
  /-- The byte offset that a complaint about the current token names. The end of the text is named
  by the end of the last token. -/
  place : Nat := 0
  /-- The first fault noted. -/
  fault : Option Nat := none
  /-- The labels of the statements around, innermost first. -/
  labels : List String := []
  /-- Where an expression began that may turn out to be the parameters of an arrow function. -/
  arrowStart : Option Nat := none

/-- A computation that reads host text, and fails with the byte offset of its fault. Where it has
come to is known also after a failure. -/
abbrev Reader (text : List Char) := ReaderT Context (EStateM Nat (State text))

/-- The tagged templates found in a construct, in the order of the walk over it. -/
abbrev Found (text : List Char) := List (Template text)

variable {text : List Char} {α : Type}

/-- The state at the first token from a cursor on. -/
def State.readFrom (state : State text) (silent : Bool) (start : Cursor text) : State text :=
  let gap := skipGap .blank start.rest { offset := start.offset }
  let cursor := start.advance gap.length
  let found := lexeme cursor.offset cursor.rest
  { state with
    cursor := cursor
    token := found.token
    spelled := cursor.spelled
    length := found.length
    newline := gap.newline
    place := match found.token with
      | .finish => start.offset
      | .broken offset => offset
      | _ => cursor.offset
    fault := if silent then state.fault else (state.fault.or gap.fault).or found.fault }

def State.tokenEnd (state : State text) : Cursor text :=
  state.cursor.advance state.length

namespace Reader

def current : Reader text Token :=
  return (← get).token

def place : Reader text Nat :=
  return (← get).place

def afterNewline : Reader text Bool :=
  return (← get).newline

def unexpected : Reader text α := do
  throw (← place)

/-- Notes a fault and goes on. -/
def note (offset : Nat) : Reader text Unit := do
  unless (← read).silent do
    modify fun state => { state with fault := state.fault.or (some offset) }

def noteAny : Option Nat → Reader text Unit
  | some offset => note offset
  | none => return

def jump (cursor : Cursor text) : Reader text Unit := do
  let silent := (← read).silent
  modify fun state => state.readFrom silent cursor

/-- Goes on with the next token, unless the text ends. -/
def advance : Reader text Unit := do
  unless (← get).token == .finish do jump (← get).tokenEnd

def peekState : Reader text (State text) :=
  return let state := (← get); state.readFrom true state.tokenEnd

def peek : Reader text Token :=
  return (← peekState).token

/-- Runs a reader on trial: on failure everything is as before. -/
def attempt (reader : Reader text α) : Reader text (Option α) := do
  let context ← read
  let state ← get
  match reader { context with silent := true } state with
  | .ok value next => set next; return some value
  | .error .. => return none

/-- What a reader would give here, without going there. -/
def lookahead (reader : Reader text Bool) : Reader text Bool := do
  let context ← read
  let state ← get
  match reader { context with silent := true } state with
  | .ok value _ => return value
  | .error .. => return false

def typed : Reader text Bool :=
  return (← read).dialect.types

def hasMarkup : Reader text Bool :=
  return (← read).dialect.markup

def isMark (mark : String) : Reader text Bool :=
  return (← get).token == .mark mark

def isAnyMark (marks : List String) : Reader text Bool := do
  match (← get).token with
  | .mark mark => return marks.contains mark
  | _ => return false

/-- Whether the current token is a keyword, written without escapes. -/
def isWord (word : String) : Reader text Bool :=
  return (← get).token == .word word false

def isAnyWord (words : List String) : Reader text Bool := do
  match (← get).token with
  | .word word false => return words.contains word
  | _ => return false

def isName : Reader text Bool := do
  match (← get).token with
  | .word _ _ => return true
  | _ => return false

def eatMark (mark : String) : Reader text Bool := do
  if ← isMark mark then advance; return true
  else return false

def eatWord (word : String) : Reader text Bool := do
  if ← isWord word then advance; return true
  else return false

def expectMark (mark : String) : Reader text Unit := do
  unless ← eatMark mark do unexpected

def expectWord (word : String) : Reader text Unit := do
  unless ← eatWord word do unexpected

def atStatementEnd : Reader text Bool := do
  match (← get).token with
  | .finish | .mark ";" | .mark "\x7d" => return true
  | _ => afterNewline

/-- Ends a statement with a semicolon, or without one where that is allowed. -/
def eatSemicolon : Reader text Bool := do
  if ← eatMark ";" then return true
  else atStatementEnd

def expectSemicolon : Reader text Unit := do
  unless ← eatSemicolon do unexpected

/-- Repeats a step until it gives nothing. Every step passes over some text, so the bound is never
what ends it. -/
def repeatStep {σ : Type} (step : σ → Reader text (Option σ)) : Nat → σ → Reader text σ
  | 0, state => return state
  | bound + 1, state => do
      match ← step state with
      | some next => repeatStep step bound next
      | none => return state

def loop {σ : Type} (start : σ) (step : σ → Reader text (Option σ)) : Reader text σ := do
  repeatStep step (← read).budget start

/-- Reads items up to a closing mark and passes over it. -/
def itemsUntil (close : String) (item : Reader text (Found text)) : Reader text (Found text) := do
  let found ← loop [] fun found => do
    if ← isMark close then return none
    else return some (found ++ (← item))
  expectMark close
  return found

/-- Reads items separated by commas up to a closing mark and passes over it. A comma may follow the
last item. -/
def commaList (close : String) (item : Reader text (Found text)) : Reader text (Found text) :=
  itemsUntil close do
    let found ← item
    unless ← isMark close do expectMark ","
    return found

def separated (mark : String) (item : Reader text (Found text)) : Reader text (Found text) := do
  loop (← item) fun found => do
    if ← eatMark mark then return some (found ++ (← item))
    else return none

end Reader

end FieldUsage.Host
