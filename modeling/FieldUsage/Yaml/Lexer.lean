import FieldUsage.Yaml.Scalar

/-!
Reading tokens. The marks of the text become tokens one after another; the tokens for keys and for
the ends of block collections come in where the indentation and the colons show that they belong.
-/

namespace FieldUsage.Yaml.Reader

/-- Passes over blanks, comments and line ends. A tab may not stand where a line is indented, unless
nothing follows it. -/
def skipToToken : (bound : Nat) → Reader Unit
  | 0 => return
  | bound + 1 => do
      let c ← get
      match c.rest.head? with
      | some char =>
          if char == '\t' && !c.levels.isEmpty && c.fresh &&
              decide ((c.column : Int) < c.indent) then
            let _ ← skipToLineEnd
            unless endsLine (← rest) do failure
            skipToToken bound
          else if isBlank char then
            skipBlanks 1
            skipToToken bound
          else if isBreak char then
            skipBreak
            unless ← inFlow do allowKey true
            skipToToken bound
          else if char == '#' then
            skipBlanks (c.rest.takeWhile (!isBreak ·)).length
            skipToToken bound
          else return
      | none => return

def openFlow (kind : Flow) : Reader Unit := do
  saveKey
  openLoose
  modify fun c => { c with flow := kind :: c.flow, flowKeys := {} :: c.flowKeys }
  allowKey true
  skip 1
  let _ ← skipToLineEnd
  emit (match kind with | .sequence => .flowSequence | .mapping => .flowMapping)

/-- Closes a flow collection. A colon may follow it at once if the collection is a key in another
one. -/
def closeFlow (token : Token) : Reader Unit := do
  dropKey
  modify fun c => { c with flow := c.flow.tail, flowKeys := c.flowKeys.tail }
  allowKey false
  skip 1
  let _ ← skipToLineEnd
  if ← inFlow then modify fun c => { c with adjacentAt := some c.index }
  emit token

def comma : Reader Unit := do
  dropKey
  allowKey true
  skip 1
  let _ ← skipToLineEnd
  emit .comma

def afterProperty : Reader Bool := do
  match (← get).tokens.back? with
  | some (.anchor _) | some (.tag _) => return true
  | _ => return false

/-- A hyphen before an item of a block sequence. -/
def entry : Reader Unit := do
  if ← inFlow then failure
  let c ← get
  unless c.keyAllowed do failure
  if (← afterProperty) && c.column = 0 && decide (-1 < c.indent) then failure
  skip 1
  openBlock c.column c.tokens.size .blockSequence
  let blanks ← skipToLineEnd
  match ← rest with
  | '-' :: more => if blanks.contains '\t' && endsWord more then failure
  | _ => pure ()
  if (← peek).any fun char => isBreak char || isFlowMark char then openLoose
  dropKey
  allowKey true
  emit .entry

/-- A question mark before a key. -/
def markedKey : Reader Unit := do
  let c ← get
  let flow ← inFlow
  unless flow do
    unless c.keyAllowed do failure
    openBlock c.column c.tokens.size .blockMapping
  dropKey
  allowKey !flow
  skip 1
  skipBlanks ((← rest).takeWhile (· == ' ')).length
  if (← peek) == some '\t' then failure
  emit .key

/-- A colon before a value. If a key may have begun before it, it did. -/
def value : Reader Unit := do
  let start ← get
  let place ← keyPlace
  let flow := !start.flow.isEmpty
  skip 1
  if (← peek) == some '\t' then
    let blanks ← skipToLineEnd
    if !blanks.contains ' ' &&
        (← peek).any fun char => char == '-' || char.isAlphanum || char == '_' then
      failure
  if place.possible then
    emitAt place.tokens .key
    if start.flow.head? == some .sequence && decide (place.line < start.line) then failure
    openBlock place.column place.tokens .blockMapping
    openLoose
    setKeyPlace { place with possible := false }
    allowKey false
  else
    unless flow do
      unless start.keyAllowed do failure
      openBlock start.column start.tokens.size .blockMapping
    openLoose
    allowKey !flow
  emit .value

def anchorName : Reader (List Char) := do
  skip 1
  let name := (← rest).takeWhile fun char => !isBlank char && !isBreak char && !isFlowMark char
  if name.isEmpty then failure
  skip name.length
  return name

def tag : Reader (List Char) := do
  let text ← rest
  let name :=
    match text with
    | '!' :: '<' :: more =>
        '!' :: '<' :: more.takeWhile fun char => !isBlank char && !isBreak char
    | _ => text.takeWhile fun char => !isBlank char && !isBreak char && !isFlowMark char
  skip name.length
  unless endsWord (← rest) || ((← inFlow) && (← peek).any isFlowMark) do failure
  return name

def documentMark (token : Token) : Reader Unit := do
  if ← inFlow then failure
  unindent (-1)
  dropKey
  allowKey false
  skip 3
  emit token
  if token = .documentEnd then
    let _ ← skipToLineEnd
    unless endsLine (← rest) do failure

def directive : Reader Unit := do
  unindent (-1)
  dropKey
  allowKey false
  skip ((← rest).takeWhile (!isBreak ·)).length
  emit .directive

/-- A scalar, which may be a key. What follows a block scalar is a new line, so a key may begin
there. -/
def scalar (plain keyAfter : Bool) (read : Reader (List Char)) : Reader Unit := do
  saveKey
  allowKey keyAfter
  let text ← read
  emit (.scalar plain text)

/-- A quoted scalar. A colon may follow it at once in a flow collection. -/
def quotedScalar (quote : Char) : Reader Unit := do
  scalar false false (quoted quote)
  skipToToken (← rest).length
  modify fun c => { c with adjacentAt := some c.index }

def token : Reader Unit := do
  let c ← get
  let flow := !c.flow.isEmpty
  match c.rest with
  | [] => return
  | char :: more =>
      let ends := endsWord more
      if c.column = 0 && char == '%' then directive
      else if c.column = 0 && isDocumentMark c.rest then
        documentMark (if char == '-' then .documentStart else .documentEnd)
      else if (c.column : Int) < c.indent && !(flow && [']', '}', ','].contains char) then failure
      else
        match char with
        | '[' => openFlow .sequence
        | '{' => openFlow .mapping
        | ']' => closeFlow .flowSequenceEnd
        | '}' => closeFlow .flowMappingEnd
        | ',' => comma
        | '*' => saveKey; allowKey false; emit (.reference (← anchorName))
        | '&' => saveKey; allowKey false; emit (.anchor (← anchorName))
        | '!' => saveKey; allowKey false; emit (.tag (← tag))
        | '\'' => quotedScalar '\''
        | '"' => quotedScalar '"'
        | '%' | '@' | '`' => failure
        | char =>
            if char == '-' && ends then entry
            else if char == '?' && ends then markedKey
            else if char == ':' && ends then value
            else if char == ':' && flow &&
                (more.head?.any isFlowMark || c.adjacentAt == some c.index) then value
            else if char == '|' && !flow then scalar false true (block false)
            else if char == '>' && !flow then scalar false true (block true)
            else scalar true false plain

def tokens : (bound : Nat) → Reader Unit
  | 0 => failure
  | bound + 1 => do
      skipToToken ((← rest).length + 1)
      dropStaleKeys
      unindent (← get).column
      if (← rest).isEmpty then
        if ← inFlow then failure
        unindent (-1)
        dropKey
      else
        token
        tokens bound

end Reader

/-- The tokens of a text, without a mark of its encoding. -/
def Token.ofText? (text : List Char) : Option (List Token) := do
  let text := match text with
    | '\ufeff' :: rest => rest
    | _ => text
  let (_, cursor) ← (Reader.tokens (text.length + 1)).run { rest := text }
  return cursor.tokens.toList

end FieldUsage.Yaml
