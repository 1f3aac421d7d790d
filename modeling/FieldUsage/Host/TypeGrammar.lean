import FieldUsage.Host.Goal

/-!
Type annotations of host text. Types say nothing about the documents in a file, with one exception:
the computed keys of members are expressions, and templates in them are found. Template literal
types are no templates.
-/

namespace FieldUsage.Host.TypeGrammar

open Reader

variable {text : List Char}

def foundIn (grammar : Grammar text) (goal : Goal) : Reader text (Found text) :=
  return (← grammar goal).templates

/-- A type wherever conditional types are allowed again. -/
def freeType (grammar : Grammar text) : Reader text (Found text) :=
  withReader (fun context => { context with plainTypes := false }) (foundIn grammar .type)

def annotation (grammar : Grammar text) : Reader text (Found text) := do
  expectMark ":"
  freeType grammar

def annotation? (grammar : Grammar text) : Reader text (Found text) := do
  if (← typed) && (← isMark ":") then annotation grammar else return []

/-- Takes only an opening bracket as the current token. -/
def cutBracket : Reader text Unit :=
  modify fun state => { state with token := .mark "<", spelled := nofun, length := 1 }

/-- Cuts a doubled opening bracket so that the first one is the current token. -/
def openBracket : Reader text Unit := do
  if ← isMark "<<" then cutBracket

def arguments (grammar : Grammar text) : Reader text (Found text) := do
  openBracket
  expectMark "<"
  commaList ">" (freeType grammar)

def opensArguments : Reader text Bool :=
  isAnyMark ["<", "<<"]

/-- One type parameter with its modifiers, bound and default. Of the modifiers, `in` comes first,
and `const` is only for what can be called or constructed. -/
def parameter (grammar : Grammar text) (callable : Bool) : Reader text (Found text) := do
  let _ ← loop false fun hasOut => do
    let start ← place
    if (← isAnyWord ["const", "in", "out"]) &&
        (match ← peek with | .word _ _ => true | _ => false) then
      if (← isWord "out") && (← peek) == .word "extends" false then return none
      if (hasOut && (← isWord "in")) || (!callable && (← isWord "const")) then note start
      let isOut ← isWord "out"
      advance
      return some (hasOut || isOut)
    else return none
  let _ ← anyName
  let bound ← if ← eatWord "extends" then freeType grammar else pure []
  let default ← if ← eatMark "=" then freeType grammar else pure []
  return bound ++ default

def parameters (grammar : Grammar text) (callable : Bool := true) : Reader text (Found text) := do
  openBracket
  expectMark "<"
  commaList ">" (parameter grammar callable)

def parameters? (grammar : Grammar text) (callable : Bool := true) : Reader text (Found text) := do
  if (← typed) && (← opensArguments) then parameters grammar callable else return []

/-- A name with dots. -/
def entityName (first : Reader text (Word text)) : Reader text Unit := do
  let _ ← first
  loop () fun _ => do
    if ← eatMark "." then
      if ← isName then
        advance
        return some ()
      else
        note (← place)
        return none
    else return none

/-- The type a function gives back, which may be a statement about one of its parameters. -/
def returned (grammar : Grammar text) : Reader text (Found text) := do
  let next ← peekState
  let isSubject (token : Token) := match token with
    | .word name _ => isFreeWord name || name == "this"
    | _ => false
  if (← isWord "asserts") && isSubject next.token && !next.newline then
    advance
    advance
    if (← isWord "is") && !(← afterNewline) then
      advance
      freeType grammar
    else return []
  else if isSubject (← current) && next.token == .word "is" false && !next.newline then
    advance
    advance
    freeType grammar
  else freeType grammar

def returned? (grammar : Grammar text) : Reader text (Found text) := do
  if (← typed) && (← eatMark ":") then returned grammar else return []

def signatureParameter (grammar : Grammar text) : Reader text (Found text) := do
  let rest ← eatMark "..."
  let name ← foundIn grammar .binding
  unless rest do
    let _ ← eatMark "?"
  let type ← annotation? grammar
  return name ++ type

def signatureParameters (grammar : Grammar text) : Reader text (Found text) := do
  expectMark "("
  commaList ")" (signatureParameter grammar)

def functionType (grammar : Grammar text) : Reader text (Found text) := do
  let bounds ← parameters? grammar
  let names ← signatureParameters grammar
  expectMark "=>"
  let result ← returned grammar
  return bounds ++ names ++ result

/-- Passes over brackets with all that is between them. -/
def skipBrackets : Reader text Unit := do
  let _ ← loop 0 fun depth => do
    let opens ← isAnyMark ["\x7b", "["]
    let closes ← isAnyMark ["\x7d", "]"]
    if (← current) == .finish then unexpected
    advance
    let depth := if opens then depth + 1 else if closes then depth - 1 else depth
    return if depth = 0 then none else some depth
  return

/-- Whether a parenthesis opens the parameters of a function type rather than a type. -/
def opensFunction : Reader text Bool :=
  lookahead do
    expectMark "("
    if ← isAnyMark [")", "..."] then return true
    if ← isName then advance
    else if ← isAnyMark ["\x7b", "["] then skipBrackets
    else return false
    if ← isAnyMark [":", ",", "?", "="] then return true
    if ← eatMark ")" then isMark "=>" else return false

/-- A type that is not conditional. -/
def plainType (grammar : Grammar text) : Reader text (Found text) := do
  if ← isMark "<" then functionType grammar
  else if (← isMark "(") && (← opensFunction) then functionType grammar
  else if ← isWord "new" then advance; functionType grammar
  else if (← isWord "abstract") && (← peek) == .word "new" false then
    advance; advance; functionType grammar
  else
    let _ ← eatMark "|"
    separated "|" do
      let _ ← eatMark "&"
      separated "&" (foundIn grammar .prefixedType)

def type (grammar : Grammar text) : Reader text (Found text) := do
  let subject ← foundIn grammar .plainType
  if (← read).plainTypes || (← afterNewline) || !(← isWord "extends") then return subject
  advance
  let bound ← withReader (fun context => { context with plainTypes := true })
    (foundIn grammar .plainType)
  expectMark "?"
  let yes ← freeType grammar
  expectMark ":"
  let no ← freeType grammar
  return subject ++ bound ++ yes ++ no

/-- The bound of an inferred type, unless it turns out to be the test of a conditional type. -/
def inferredBound (grammar : Grammar text) : Reader text (Found text) := do
  if ← isWord "extends" then
    let free := !(← read).plainTypes
    let bound ← attempt do
      advance
      let bound ← withReader (fun context => { context with plainTypes := true })
        (foundIn grammar .plainType)
      if free && (← isMark "?") then unexpected
      return bound
    return bound.getD []
  else return []

/-- The key of a member, which is an expression when it is computed. -/
def memberKey (grammar : Grammar text) : Reader text (Found text) := do
  match ← current with
  | .word _ _ | .string _ | .number => advance; return []
  | .mark "[" =>
      advance
      let key ← withoutIn (foundIn grammar .assignment)
      expectMark "]"
      return key
  | .mark "#" =>
      note (← place)
      let _ ← privateName
      return []
  | _ => unexpected

/-- Whether a bracket opens an index signature. -/
def opensIndex : Reader text Bool :=
  lookahead do
    expectMark "["
    if ← isWord "this" then return false
    let _ ← anyName
    isAnyMark [":", ","]

def indexSignature (grammar : Grammar text) : Reader text (Found text) := do
  expectMark "["
  let _ ← identifier
  let key ← annotation grammar
  expectMark "]"
  let value ← annotation? grammar
  return key ++ value

/-- Whether a token can begin the key of a member. -/
def beginsKey : Token → Bool
  | .word _ _ | .string _ | .number => true
  | .mark mark => ["[", "#"].contains mark
  | _ => false

def accessor (grammar : Grammar text) : Reader text (Found text) := do
  let isGetter ← isWord "get"
  advance
  let key ← memberKey grammar
  if isGetter then
    expectMark "("
    expectMark ")"
    return key ++ (← annotation? grammar)
  else
    if (← isMark "(") && (← peek) == .mark ")" then unexpected
    return key ++ (← signatureParameters grammar)

/-- One member of an object type, without what separates it from the next. -/
def member (grammar : Grammar text) : Reader text (Found text) := do
  let signature : Reader text (Found text) := do
    let bounds ← parameters? grammar
    let names ← signatureParameters grammar
    let result ← returned? grammar
    return bounds ++ names ++ result
  if ← isAnyMark ["(", "<"] then signature
  else if (← isWord "new") && ((← peek) == .mark "(" || (← peek) == .mark "<") then
    advance
    signature
  else
    if (← isWord "readonly") && beginsKey (← peek) then advance
    if (← isMark "[") && (← opensIndex) then indexSignature grammar
    else
      if (← isAnyWord ["get", "set"]) && beginsKey (← peek) then
        if let some found ← attempt (accessor grammar) then return found
      let key ← memberKey grammar
      let _ ← eatMark "?"
      let rest ← if ← isAnyMark ["(", "<"] then signature else annotation? grammar
      return key ++ rest

def members (grammar : Grammar text) : Reader text (Found text) := do
  expectMark "\x7b"
  itemsUntil "\x7d" do
    let found ← member grammar
    unless ← eatMark "," do expectSemicolon
    return found

/-- Whether a brace opens a mapped type. -/
def opensMapped : Reader text Bool :=
  lookahead do
    expectMark "\x7b"
    if ← isAnyMark ["+", "-"] then
      advance
      isWord "readonly"
    else
      let _ ← eatWord "readonly"
      expectMark "["
      let _ ← reference
      isWord "in"

def mapped (grammar : Grammar text) : Reader text (Found text) := do
  expectMark "\x7b"
  if ← isAnyMark ["+", "-"] then
    advance
    expectWord "readonly"
  else
    let _ ← eatWord "readonly"
  expectMark "["
  let _ ← anyName
  expectWord "in"
  let keys ← freeType grammar
  let renamed ← if ← eatWord "as" then freeType grammar else pure []
  expectMark "]"
  if ← isAnyMark ["+", "-"] then
    advance
    expectMark "?"
  else
    let _ ← eatMark "?"
  let value ← annotation? grammar
  expectSemicolon
  expectMark "\x7d"
  return keys ++ renamed ++ value

/-- Whether a name labels an element of a tuple. -/
def labelsElement : Reader text Bool :=
  lookahead do
    let _ ← anyName
    let _ ← eatMark "?"
    isMark ":"

/-- A tuple. Once an element may be missing, all later ones may be. -/
def tuple (grammar : Grammar text) : Reader text (Found text) := do
  expectMark "["
  let (found, _) ← loop (([] : Found text), false) fun (found, optional) => do
    if ← isMark "]" then return none
    let start ← place
    let rest ← eatMark "..."
    let labelled ← labelsElement
    let mut missing := false
    if labelled then
      let _ ← anyName
      missing ← eatMark "?"
      expectMark ":"
    let type ← freeType grammar
    if !rest then
      if ← eatMark "?" then missing := true
    if optional && !missing && !rest && !labelled then throw start
    unless ← isMark "]" do expectMark ","
    return some (found ++ type, optional || missing)
  expectMark "]"
  return found

/-- The holes of a template literal type, from its backquote on. -/
def templateType (grammar : Grammar text) : Reader text (Found text) := do
  let start ← place
  loop (([] : Found text), true) (fun (found, more) => do
    if !more then return none
    let after := (← get).tokenEnd
    match segment? after.rest with
    | none => throw start
    | some (raw, hole) =>
        let stop := after.advance raw.length
        if hole then
          jump (stop.advance 2)
          let type ← freeType grammar
          unless ← isMark "\x7d" do unexpected
          return some (found ++ type, true)
        else
          jump (stop.advance 1)
          return some (found, false))
    >>= fun (found, _) => return found

def imported (grammar : Grammar text) : Reader text (Found text) := do
  expectWord "import"
  expectMark "("
  unless (← current) matches .string _ do note (← place)
  advance
  let hasOptions := (← eatMark ",") && (← isMark "\x7b")
  let options ← if hasOptions then foundIn grammar .assignment else pure []
  let _ ← eatMark ","
  expectMark ")"
  if ← eatMark "." then entityName anyName
  let more ← if ← opensArguments then arguments grammar else pure []
  return options ++ more

/-- Words that stand for themselves where a type is read. -/
def constantWords : List String :=
  ["void", "true", "false", "this"]

/-- The names of the types that are always there; they take no arguments. -/
def basicTypes : List String :=
  ["any", "unknown", "never", "object", "string", "number", "boolean", "symbol", "bigint",
   "undefined", "null", "intrinsic"]

/-- Reserved words that can name a type all the same. -/
def typeWords : List String := ["null", "break", "enum"]

/-- A type that no operator precedes or follows. -/
def atom (grammar : Grammar text) : Reader text (Found text) := do
  match ← current with
  | .string _ | .number => advance; return []
  | .backquote => templateType grammar
  | .mark "-" =>
      advance
      if (← current) == .number then advance; return [] else unexpected
  | .mark "\x7b" => if ← opensMapped then mapped grammar else members grammar
  | .mark "[" => tuple grammar
  | .mark "(" =>
      advance
      let inner ← freeType grammar
      expectMark ")"
      return inner
  | .word "typeof" false =>
      advance
      if ← isWord "import" then imported grammar
      else
        entityName anyName
        if (← opensArguments) && !(← afterNewline) then arguments grammar else return []
  | .word "import" false => imported grammar
  | .word name _ =>
      if constantWords.contains name then
        advance
        if name == "this" && (← isWord "is") && !(← afterNewline) then
          advance
          freeType grammar
        else return []
      else if (reservedWords.contains name && !typeWords.contains name) || name == "let" then
        unexpected
      else if basicTypes.contains name && (← peek) != .mark "." then
        advance
        return []
      else
        entityName anyName
        if (← opensArguments) && !(← afterNewline) then arguments grammar else return []
  | _ => unexpected

/-- A type with the brackets that follow it. -/
def bracketed (grammar : Grammar text) : Reader text (Found text) := do
  loop (← atom grammar) fun found => do
    if (← isMark "[") && !(← afterNewline) then
      advance
      if ← eatMark "]" then return some found
      let index ← freeType grammar
      expectMark "]"
      return some (found ++ index)
    else return none

/-- A type with the operators that precede it. -/
def prefixed (grammar : Grammar text) : Reader text (Found text) := do
  if ← isAnyWord ["keyof", "unique", "readonly"] then
    advance
    foundIn grammar .prefixedType
  else if ← eatWord "infer" then
    let _ ← anyName
    inferredBound grammar
  else bracketed grammar

end FieldUsage.Host.TypeGrammar
