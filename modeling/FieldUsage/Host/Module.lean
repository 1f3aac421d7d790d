import FieldUsage.Host.Statement

/-!
Modules of host text: imports, exports and the statements between them. The text of a file is read
as one module, and what is kept of it are its tagged templates in the order of the walk.
-/

namespace FieldUsage.Host.Module

open Reader TypeGrammar

variable {text : List Char}

def source : Reader text Unit := do
  match ← current with
  | .string _ => advance
  | _ => unexpected

def attributes (grammar : Grammar text) : Reader text (Found text) := do
  let opens := (← isAnyWord ["with", "assert"]) && !(← afterNewline)
  if (← typed) && opens then
    advance
    return (← Literal.object grammar).templates
  else return []

def fromModule (grammar : Grammar text) : Reader text (Found text) := do
  expectWord "from"
  source
  let found ← attributes grammar
  expectSemicolon
  return found

/-- The name of something in another module: a word or a string. Gives the word. -/
def externalName : Reader text (Option String) := do
  match ← current with
  | .word name _ => advance; return some name
  | .string _ => advance; return none
  | _ => unexpected

/-- Whether the word `type` marks what follows it as a type, in a list of names. -/
def marksType : Reader text Bool := do
  if (← typed) && (← isWord "type") then
    lookahead do
      advance
      if ← eatWord "as" then
        if ← eatWord "as" then isName
        else return !(← isName)
      else isName
  else return false

/-- One name in the list of an import. It is marked as a type once at most. -/
def importName (allTypes : Bool) : Reader text (Found text) := do
  let start ← place
  if ← marksType then
    if allTypes then note start
    advance
  let start ← place
  let name ← externalName
  if ← eatWord "as" then
    let _ ← bindingName
  else
    if name.isNone then throw start
  return []

def importAll : Reader text Unit := do
  expectMark "*"
  expectWord "as"
  let _ ← bindingName
  return

/-- A name for a part of another namespace or for a module, after `=`. -/
def importEquals : Reader text (Found text) := do
  expectMark "="
  if (← isWord "require") && (← peek) == .mark "(" then
    advance
    advance
    source
    expectMark ")"
  else entityName anyName
  expectSemicolon
  return []

/-- Whether the word `type` makes an import one of types only. -/
def importsTypes : Reader text Bool := do
  if (← typed) && (← isWord "type") then
    lookahead do
      advance
      if ← isWord "from" then
        advance
        return (← isWord "from") || (← isMark "=")
      else return (← isName) || (← isAnyMark ["\x7b", "*"])
  else return false

/-- Whether a word says at which point the module of an import is loaded. -/
def importsPhase : Reader text Bool := do
  if ← isWord "defer" then return (← peek) == .mark "*"
  else if ← isWord "source" then
    lookahead do
      advance
      if ← eatWord "from" then isWord "from" else isName
  else return false

def importItem (grammar : Grammar text) : Reader text (Found text) := do
  match ← current with
  | .string _ =>
      advance
      let found ← attributes grammar
      let _ ← eatSemicolon
      return found
  | _ =>
      let allTypes ← importsTypes
      if allTypes || (← importsPhase) then advance
      if ← isName then
        let start ← place
        let word ← reference
        if unassignable.contains word.name then note start
        if (← typed) && (← isMark "=") then return ← importEquals
        if ← eatMark "," then
          unless ← isAnyMark ["\x7b", "*"] do return ← fromModule grammar
        else return ← fromModule grammar
      if ← isMark "*" then importAll
      else
        expectMark "\x7b"
        let _ ← commaList "\x7d" (importName allTypes)
      fromModule grammar

/-- One name in the list of an export: where it begins, and whether it names a variable of this
module. -/
def exportName : Reader text (Option Nat) := do
  if ← marksType then advance
  let start ← place
  let name ← externalName
  if ← eatWord "as" then
    let _ ← externalName
  match name with
  | some word =>
      return if reservedWords.contains word || word == "package" then some start else none
  | none => return some start

/-- A list of exported names. Without a module to take them from, they have to name variables. -/
def exportNames (grammar : Grammar text) : Reader text (Found text) := do
  expectMark "\x7b"
  let faults ← loop [] fun faults => do
    if ← isMark "\x7d" then return none
    let fault ← exportName
    unless ← isMark "\x7d" do expectMark ","
    return some (faults ++ fault.toList)
  expectMark "\x7d"
  if ← isWord "from" then fromModule grammar
  else
    for fault in faults do note fault
    let _ ← eatSemicolon
    return []

/-- Decorators behind the word `export`, which may not have them on both sides. -/
def moreDecorators (grammar : Grammar text) (marked : Found text) (before : Bool) :
    Reader text (Found text) := do
  let start ← place
  if before && (← isMark "@") then note start
  return marked ++ (← Function.decorators grammar)

def exportDefault (grammar : Grammar text) (marked : Found text) (before : Bool) :
    Reader text (Found text) := do
  let marked ← moreDecorators grammar marked before
  let next ← peekState
  if ← eatWord "class" then Class.tail grammar marked false
  else if (← typed) && (← isWord "abstract") &&
      next.token == .word "class" false && !next.newline then
    advance
    advance
    Class.tail grammar marked false true
  else if ← eatWord "function" then Function.named grammar false false
  else if ← Statement.opensAsyncFunction then
    advance
    advance
    Function.named grammar true false
  else if (← typed) && (← isWord "interface") && (← Declaration.wordFollows) then
    advance
    Declaration.interface grammar
  else
    let value ← withIn (foundIn grammar .assignment)
    expectSemicolon
    return value

def exportDeclaration (grammar : Grammar text) (marked : Found text) (before : Bool) :
    Reader text (Found text) := do
  let marked ← moreDecorators grammar marked before
  if ← isWord "class" then Statement.classDeclaration grammar marked
  else if ← isWord "function" then Statement.functionDeclaration grammar false
  else
    if let some found ← Declaration.declaration? grammar marked then return found
    match ← Statement.declaration? grammar true with
    | some found => return found
    | none => unexpected

/-- An export after its keyword, and after decorators that may stand before it. -/
def exportItem (grammar : Grammar text) (marked : Found text) (before : Bool) :
    Reader text (Found text) := do
  let types ← typed
  let next ← peek
  if types && (← isWord "import") then
    advance
    if (← isWord "type") && (← Declaration.wordFollows) then advance
    let _ ← anyName
    importEquals
  else if types && (← eatMark "=") then
    let value ← withIn (foundIn grammar .expression)
    expectSemicolon
    return value
  else if types && (← isWord "as") && next == .word "namespace" false then
    advance
    advance
    let _ ← identifier
    expectSemicolon
    return []
  else if ← eatWord "default" then exportDefault grammar marked before
  else
    if types && (← isWord "type") && (next == .mark "\x7b" || next == .mark "*") then advance
    if ← eatMark "*" then
      if ← eatWord "as" then
        let _ ← externalName
      fromModule grammar
    else if ← isMark "\x7b" then exportNames grammar
    else exportDeclaration grammar marked before

/-- An item of a module or namespace: an import, an export or a statement. -/
def item (grammar : Grammar text) : Reader text (Found text) := do
  let next ← peek
  if (← isWord "import") && next != .mark "(" && next != .mark "." then
    advance
    importItem grammar
  else if ← eatWord "export" then exportItem grammar [] false
  else if ← isMark "@" then
    let marked ← Function.decorators grammar
    if ← eatWord "export" then exportItem grammar marked true
    else if ← Statement.opensClass then Statement.classDeclaration grammar marked
    else Statement.decorated grammar marked
  else Statement.statement grammar true

/-- Gives templates the shape of a node that nothing else is asked of. -/
def node (reader : Reader text (Found text)) : Reader text (Node text) := do
  let start ← place
  return { start, templates := ← reader }

/-- Reads a goal, with a grammar for the goals inside it. -/
def read (grammar : Grammar text) : Grammar text
  | .item => node (item grammar)
  | .statement declarations => node (Statement.statement grammar declarations)
  | .expression => Expression.expression grammar
  | .assignment => Expression.assignment grammar
  | .unary => Expression.unary grammar
  | .member behindNew => Expression.member grammar behindNew
  | .leftHandSide => Expression.leftHandSide grammar
  | .decorator => Expression.decorator grammar
  | .markup => node (Markup.element grammar)
  | .binding => Binding.pattern grammar
  | .type => node (TypeGrammar.type grammar)
  | .plainType => node (TypeGrammar.plainType grammar)
  | .prefixedType => node (TypeGrammar.prefixed grammar)

/-- The grammar down to a nesting depth. -/
def grammar : Nat → Grammar text
  | 0, _ => unexpected
  | depth + 1, goal => read (grammar depth) goal

/-- More nested goals than a text can open: every character opens a few at most. -/
def depthBound (text : List Char) : Nat :=
  8 * (text.length + 8)

def items : Reader text (Found text) :=
  loop [] fun found => do
    if (← current) == .finish then return none
    else return some (found ++ (← item (grammar (depthBound text))))

/-- The length of the line that names the interpreter of a script, if the text begins with one. -/
def shebangLength : List Char → Nat
  | '#' :: '!' :: rest => 2 + (rest.takeWhile (!isLineEnd ·)).length
  | _ => 0

/-- The tagged templates of a module, or the byte offset of what is wrong with it. -/
def templates (dialect : Dialect) (text : List Char) : Except Nat (Found text) := do
  let first : State text :=
    { cursor := Cursor.start text, token := .finish, spelled := nofun, length := 0,
      newline := false }
  let context : Context := { dialect, budget := text.length + 1 }
  let start := (Cursor.start text).advance (shebangLength text)
  match items context (first.readFrom false start) with
  | .error offset _ => throw offset
  | .ok found state =>
      match state.fault with
      | some offset => throw offset
      | none => return found

end FieldUsage.Host.Module
