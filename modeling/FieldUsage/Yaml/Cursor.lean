/-!
Tokens of YAML and the state of reading them. Indentation becomes tokens of its own, so that a block
collection is enclosed by marks just as a flow collection is. The state has the rest of the text with
the place it begins at, the open block collections, and the places where a key may have begun. Whether
a scalar is a key shows only at the colon behind it, so such places are kept until then.
-/

namespace FieldUsage.Yaml

inductive Token where
  /-- A scalar. Only one that is neither quoted nor a block is plain. -/
  | scalar (plain : Bool) (text : List Char)
  | blockSequence
  | blockMapping
  /-- The end of a block collection. -/
  | blockEnd
  /-- `-` before an item of a block sequence. -/
  | entry
  | flowSequence
  | flowSequenceEnd
  | flowMapping
  | flowMappingEnd
  /-- `,` -/
  | comma
  /-- Stands before a key, whether or not it is marked in the text. -/
  | key
  /-- `:` before a value. -/
  | value
  | anchor (name : List Char)
  | reference (name : List Char)
  | tag (text : List Char)
  | directive
  | documentStart
  | documentEnd
deriving DecidableEq, Repr

/-- An open level of indentation. -/
structure Level where
  /-- The column of the level outside. -/
  outer : Int
  /-- Whether the level is a block collection, which has an end of its own. -/
  isBlock : Bool
deriving Repr

/-- A place where a key may have begun. -/
structure KeyPlace where
  possible : Bool := false
  /-- At the column of a block mapping nothing but a key can stand. -/
  required : Bool := false
  /-- The number of tokens before the place. -/
  tokens : Nat := 0
  line : Nat := 0
  column : Nat := 0
  index : Nat := 0
deriving Repr

inductive Flow where
  | sequence
  | mapping
deriving DecidableEq, Repr

structure Cursor where
  rest : List Char
  /-- The number of characters before the rest. -/
  index : Nat := 0
  line : Nat := 0
  column : Nat := 0
  /-- Whether only blanks were before on this line. -/
  fresh : Bool := true
  /-- The column of the innermost level. -/
  indent : Int := -1
  levels : List Level := []
  /-- The open flow collections. -/
  flow : List Flow := []
  /-- The place of a key outside of all flow collections. -/
  outerKey : KeyPlace := {}
  /-- The places of keys in the open flow collections. -/
  flowKeys : List KeyPlace := []
  keyAllowed : Bool := true
  /-- Where a colon belongs to a key even if no blank follows it. -/
  adjacentAt : Option Nat := none
  tokens : Array Token := #[]

abbrev Reader := StateT Cursor Option

def isBlank (c : Char) : Bool := c == ' ' || c == '\t'

def isBreak (c : Char) : Bool := c == '\n' || c == '\r'

def isFlowMark (c : Char) : Bool :=
  c == ',' || c == '[' || c == ']' || c == '{' || c == '}'

def endsWord : List Char → Bool
  | [] => true
  | c :: _ => isBlank c || isBreak c

def endsLine : List Char → Bool
  | [] => true
  | c :: _ => isBreak c

def isDocumentMark : List Char → Bool
  | a :: b :: c :: rest =>
      ((a == '-' && b == '-' && c == '-') || (a == '.' && b == '.' && c == '.')) && endsWord rest
  | _ => false

namespace Reader

def rest : Reader (List Char) := return (← get).rest

def peek : Reader (Option Char) := return (← get).rest.head?

def skipBlanks (count : Nat) : Reader Unit :=
  modify fun c =>
    { c with rest := c.rest.drop count, index := c.index + count, column := c.column + count }

/-- Passes over characters of a line that are not blanks only. -/
def skip (count : Nat) : Reader Unit := do
  skipBlanks count
  modify ({ · with fresh := false })

def skipBreak : Reader Unit :=
  modify fun c =>
    let length := match c.rest with
      | '\r' :: '\n' :: _ => 2
      | _ => 1
    { c with
      rest := c.rest.drop length, index := c.index + length, line := c.line + 1, column := 0,
      fresh := true }

def emit (token : Token) : Reader Unit :=
  modify fun c => { c with tokens := c.tokens.push token }

def emitAt (place : Nat) (token : Token) : Reader Unit :=
  modify fun c => { c with tokens := c.tokens.insertIdxIfInBounds place token }

/-- Passes over blanks and a comment up to the end of the line. A comment has to stand behind a
blank. Gives the blanks. -/
def skipToLineEnd : Reader (List Char) := do
  let blanks := (← rest).takeWhile isBlank
  skipBlanks blanks.length
  if (← peek) == some '#' then
    if blanks.isEmpty then failure
    skipBlanks ((← rest).takeWhile (!isBreak ·)).length
  return blanks

def inFlow : Reader Bool := return !(← get).flow.isEmpty

def allowKey (allowed : Bool) : Reader Unit :=
  modify ({ · with keyAllowed := allowed })

/-- The place of the key in the innermost flow collection, or outside of all. -/
def keyPlace : Reader KeyPlace := do
  let c ← get
  return c.flowKeys.head?.getD c.outerKey

def setKeyPlace (place : KeyPlace) : Reader Unit :=
  modify fun c =>
    match c.flowKeys with
    | _ :: outer => { c with flowKeys := place :: outer }
    | [] => { c with outerKey := place }

def saveKey : Reader Unit := do
  let c ← get
  if c.keyAllowed then
    let required := c.flow.isEmpty && c.indent == (c.column : Int) && c.levels.head?.any (·.isBlock)
    setKeyPlace
      { possible := true, required, tokens := c.tokens.size, line := c.line, column := c.column,
        index := c.index }

/-- Forgets the place of a key, which may not be where a key is required. -/
def dropKey : Reader Unit := do
  let place ← keyPlace
  if place.possible && place.required then failure
  setKeyPlace { place with possible := false }

/-- The longest text of a key that is not marked. -/
def keyLimit : Nat := 1024

/-- Outside of flow collections, a key ends on the line on which it begins. -/
def dropStaleKeys : Reader Unit := do
  let c ← get
  let place := c.outerKey
  if place.possible && c.flow.isEmpty &&
      (decide (place.line < c.line) || decide (place.index + keyLimit < c.index)) then
    if place.required then failure
    set { c with outerKey := { place with possible := false } }

/-- Closes levels that are not block collections. -/
def dropLooseLevels : Reader Unit :=
  modify fun c =>
    let loose := c.levels.takeWhile (!·.isBlock)
    { c with
      levels := c.levels.drop loose.length
      indent := (loose.getLast?.map (·.outer)).getD c.indent }

/-- Closes levels that are further to the right than a column. -/
def closeLevels (column : Int) : List Level → Reader Unit
  | [] => return
  | level :: outer => do
      if column < (← get).indent then
        modify ({ · with indent := level.outer, levels := outer })
        if level.isBlock then emit .blockEnd
        closeLevels column outer

/-- Closes levels that are further to the right than a column, outside of flow collections. -/
def unindent (column : Int) : Reader Unit := do
  unless ← inFlow do closeLevels column (← get).levels

/-- Opens a block collection at a column, unless it is open there already. Its token goes to a place
among the tokens. -/
def openBlock (column : Nat) (place : Nat) (token : Token) : Reader Unit := do
  unless ← inFlow do
    let c ← get
    if c.indent ≤ (column : Int) then
      match c.levels with
      | level :: outer =>
          unless level.isBlock do set { c with indent := level.outer, levels := outer }
      | [] => pure ()
    let c ← get
    if c.indent < (column : Int) then
      set { c with levels := { outer := c.indent, isBlock := true } :: c.levels, indent := column }
      emitAt place token

/-- Opens a level one column to the right of a block collection: what belongs to an entry is
indented. -/
def openLoose : Reader Unit :=
  modify fun c =>
    if c.flow.isEmpty && c.levels.head?.any (·.isBlock) then
      { c with
        levels := { outer := c.indent, isBlock := false } :: c.levels
        indent := c.indent + 1 }
    else c

end Reader

end FieldUsage.Yaml
