import FieldUsage.Host.Declaration
import FieldUsage.Host.Expression

/-!
Statements of host text. The walk over a `do` statement visits its test before its body; all other
statements are walked in the order they are written.
-/

namespace FieldUsage.Host.Statement

open Reader TypeGrammar

variable {text : List Char}

inductive VariableKind where
  | functionWide
  | changing
  | constant
  /-- A resource that is released at the end. -/
  | resource
deriving DecidableEq

structure Variables (text : List Char) where
  kind : VariableKind
  templates : Found text := []
  /-- Where each of them begins. -/
  starts : List Nat := []
  /-- The first one has a value. -/
  hasValue : Bool := false
  /-- The first one has a type. -/
  hasType : Bool := false

/-- One variable with its type and value. A constant needs a value, and so does a pattern, except in
the head of a loop. -/
def variableItem (grammar : Grammar text) (inLoop : Bool) (seen : Variables text) :
    Reader text (Variables text) := do
  let start ← place
  if seen.kind != .functionWide && (← isWord "let") then unexpected
  let pattern ← grammar .binding
  let named := match pattern.form with
    | .name _ => true
    | _ => false
  if (← typed) && named then
    let _ ← eatMark "!"
  let hasType := (← typed) && (← isMark ":")
  let type ← annotation? grammar
  let looped := inLoop && (← isAnyWord ["in", "of"])
  let hasValue := !looped && (← isMark "=")
  let value ← if hasValue then
      advance
      foundIn grammar .assignment
    else
      if !looped && !(← read).inDeclare then
        if seen.kind == .resource || (seen.kind == .constant && !inLoop) then note start
        else if !named then throw start
      pure []
  let isFirst := seen.starts.isEmpty
  return { seen with
    templates := seen.templates ++ pattern.templates ++ type ++ value
    starts := seen.starts ++ [start]
    hasValue := if isFirst then hasValue else seen.hasValue
    hasType := if isFirst then hasType else seen.hasType }

def declaredVariables (grammar : Grammar text) (kind : VariableKind) (inLoop : Bool) :
    Reader text (Variables text) := do
  let first ← variableItem grammar inLoop { kind }
  loop first fun seen => do
    if ← eatMark "," then return some (← variableItem grammar inLoop seen)
    else return none

/-- Whether `let` declares variables, rather than being a name. -/
def letDeclares (next : Token) : Bool :=
  match next with
  | .word word _ => !reservedWords.contains word || word == "enum"
  | .mark "[" | .mark "\x7b" => true
  | _ => false

/-- The kind of variables that the current word declares, if it does. -/
def variableKind? : Reader text (Option VariableKind) := do
  match ← current with
  | .word "var" false => return some .functionWide
  | .word "const" false => return some .constant
  | .word "let" false => return if letDeclares (← peek) then some .changing else none
  | _ => return none

/-- Whether a resource is declared at the word `using`: a name follows it on the same line. -/
def opensResource : Reader text Bool := do
  let next ← peekState
  match next.token with
  | .word word _ => return (← isWord "using") && !next.newline && !reservedWords.contains word
  | _ => return false

/-- Passes over the words in front of declared resources, if they come next. -/
def eatResource : Reader text Bool := do
  if !(← typed) then return false
  if ← opensResource then
    advance
    return true
  let waits ← if (← isWord "await") && (← peek) == .word "using" false then
      lookahead (advance *> opensResource)
    else pure false
  if waits then
    advance
    advance
  return waits

/-- Notes that a statement should have ended here, and passes over what stands in front of its
end: an expression as far as it can be read, and any tokens behind it. -/
def skipToSemicolon (grammar : Grammar text) : Reader text Unit := do
  note (← place)
  try
    let _ ← grammar .expression
  catch _ => pure ()
  loop () fun _ => do
    if ← eatSemicolon then return none
    Literal.skipToken
    Literal.expectWhole
    return some ()

def variableStatement (grammar : Grammar text) (kind : VariableKind) :
    Reader text (Found text) := do
  let found ← withIn (declaredVariables grammar kind false)
  unless ← eatSemicolon do skipToSemicolon grammar
  return found.templates

def block (grammar : Grammar text) : Reader text (Found text) := do
  expectMark "\x7b"
  Function.statementsUntilBrace grammar

def test (grammar : Grammar text) : Reader text (Found text) := do
  expectMark "("
  let found ← withIn (foundIn grammar .expression)
  expectMark ")"
  return found

/-- A statement in which declarations are refused. -/
def plain (grammar : Grammar text) : Reader text (Found text) :=
  foundIn grammar (.statement false)

def loopBody (grammar : Grammar text) : Reader text (Found text) :=
  withReader (fun context => { context with canBreak := true, canContinue := true }) (plain grammar)

/-- A `break` or `continue`. Its label, if it has one, names a statement around it. -/
def leave (isBreak : Bool) : Reader text (Found text) := do
  let start ← place
  advance
  let label ← if ← eatSemicolon then pure none else
    do
      let label ← identifier
      expectSemicolon
      pure (some label.name)
  let labels := (← get).labels
  let known := label.all labels.contains
  let context ← read
  let allowed := if isBreak then context.canBreak else context.canContinue
  unless known && (allowed || (isBreak && label.isSome)) do note start
  return []

/-- The parts of a loop head that stand between semicolons, after the first one. -/
def countingHead (grammar : Grammar text) (first : Found text) : Reader text (Found text) := do
  let test ← if ← isMark ";" then pure [] else withIn (foundIn grammar .expression)
  let _ ← eatMark ";"
  let step ← if ← isMark ")" then pure [] else withIn (foundIn grammar .expression)
  return first ++ test ++ step

/-- What a loop goes through, from `in` or `of` on. Tells whether it is `of`. -/
def collectionHead (grammar : Grammar text) (first : Found text) :
    Reader text (Found text × Bool) := do
  let isOf ← isWord "of"
  advance
  let inner ← withIn (foundIn grammar (if isOf then .assignment else .expression))
  return (first ++ inner, isOf)

/-- The head of a `for` loop that declares variables, after its keyword. -/
def declaringHead (grammar : Grammar text) (kind : VariableKind) :
    Reader text (Found text × Bool) := do
  let found ← withoutIn (declaredVariables grammar kind true)
  if ← isAnyWord ["in", "of"] then
    match found.starts with
    | [start] =>
        if found.hasValue || found.hasType then note start
        if kind == .resource && (← isWord "in") then note start
    | _ :: rest => for start in rest do note start
    | [] => pure ()
    collectionHead grammar found.templates
  else
    expectMark ";"
    return (← countingHead grammar found.templates, false)

/-- The head of a `for` loop. Tells whether it goes through the values of a collection. -/
def loopHead (grammar : Grammar text) (waits : Bool) : Reader text (Found text × Bool) := do
  match ← variableKind? with
  | some kind =>
      advance
      declaringHead grammar kind
  | none =>
      let isResource ← lookahead (do return (← eatResource) && (← peek) == .word "of" false)
      if isResource then
        let _ ← eatResource
        return ← declaringHead grammar .resource
      if ← eatMark ";" then return (← countingHead grammar [], false)
      let isAsync ← isWord "async"
      let first ← withoutIn (grammar .expression)
      if ← isAnyWord ["in", "of"] then
        if isAsync && first.form.isName "async" && !waits && (← isWord "of") then note first.start
        let isIn ← isWord "in"
        let target ← Expression.assignmentTarget first
        if isIn && (← typed) && (target.form == .object || target.form == .array) then
          note target.start
        collectionHead grammar target.templates
      else
        expectMark ";"
        return (← countingHead grammar first.templates, false)

/-- A `for` loop. Only a loop through the values of a collection can wait. -/
def forLoop (grammar : Grammar text) : Reader text (Found text) := do
  expectWord "for"
  let wait ← place
  let waits ← eatWord "await"
  expectMark "("
  let (head, isOf) ← loopHead grammar waits
  expectMark ")"
  let body ← loopBody grammar
  if waits && !isOf then throw wait
  return head ++ body

/-- A `do` loop: the walk visits its test before its body. -/
def doLoop (grammar : Grammar text) : Reader text (Found text) := do
  expectWord "do"
  let body ← loopBody grammar
  expectWord "while"
  let test ← test grammar
  let _ ← eatMark ";"
  return test ++ body

/-- A `switch`: at most one of its cases is the default. -/
def switch (grammar : Grammar text) : Reader text (Found text) := do
  expectWord "switch"
  let subject ← test grammar
  expectMark "\x7b"
  let cases ← withReader (fun context => { context with canBreak := true }) do
    let (found, _) ← loop (([] : Found text), false) fun (found, defaulted) => do
      let isDefault ← isWord "default"
      unless isDefault || (← isWord "case") do return none
      advance
      if isDefault && defaulted then unexpected
      let value ← if isDefault then pure [] else withIn (foundIn grammar .expression)
      expectMark ":"
      let inner ← loop [] fun inner => do
        if (← isAnyWord ["case", "default"]) || (← isMark "\x7d") || (← current) == .finish then
          return none
        else return some (inner ++ (← foundIn grammar (.statement true)))
      return some (found ++ value ++ inner, defaulted || isDefault)
    pure found
  expectMark "\x7d"
  return subject ++ cases

def catchClause (grammar : Grammar text) : Reader text (Found text) := do
  let binding ← if ← eatMark "(" then
      let pattern ← grammar .binding
      let type ← annotation? grammar
      expectMark ")"
      pure (pattern.templates ++ type)
    else pure []
  return binding ++ (← block grammar)

/-- A `try`: it catches, or it cleans up, or both. -/
def tryStatement (grammar : Grammar text) : Reader text (Found text) := do
  expectWord "try"
  let body ← block grammar
  let offset ← place
  let catches ← eatWord "catch"
  let handler ← if catches then catchClause grammar else pure []
  let finishes ← eatWord "finally"
  let cleanup ← if finishes then block grammar else pure []
  unless catches || finishes do note offset
  return body ++ handler ++ cleanup

/-- A statement behind a label. A label is not used twice on the way in. -/
def labelled (grammar : Grammar text) : Reader text (Found text) := do
  let start ← place
  let label := (← identifier).name
  expectMark ":"
  let outer := (← get).labels
  modify fun state => { state with labels := label :: outer }
  let isFunction ← isWord "function"
  let offset ← place
  let found ← withReader (fun context => { context with canBreak := true }) (plain grammar)
  if isFunction then note offset
  if outer.contains label then note start
  modify fun state => { state with labels := outer }
  return found

def expressionStatement (grammar : Grammar text) : Reader text (Found text) := do
  let value ← withIn (grammar .expression)
  if ← eatSemicolon then return value.templates
  else if ← Operator.isBinaryMark then
    note (← place)
    let whole ← Expression.binaryRest grammar (← read).budget { value with form := .other } 0
    return whole.templates
  else unexpected

def functionDeclaration (grammar : Grammar text) (async : Bool) : Reader text (Found text) := do
  expectWord "function"
  Function.named grammar async true

/-- Whether the words for a declared asynchronous function come next. -/
def opensAsyncFunction : Reader text Bool := do
  let next ← peekState
  return (← isWord "async") && next.token == .word "function" false && !next.newline

def declaredWords : List String :=
  ["function", "class", "const", "let", "var", "enum", "interface", "type", "namespace", "module",
   "global", "abstract"]

def opensDeclared : Reader text Bool := do
  if (← typed) && (← isWord "declare") then
    let next ← peekState
    match next.token with
    | .word word false => return declaredWords.contains word
    | _ => return false
  else return false

def classDeclaration (grammar : Grammar text) (marked : Found text) : Reader text (Found text) := do
  let isAbstract ← if ← typed then eatWord "abstract" else pure false
  expectWord "class"
  Class.tail grammar marked true isAbstract

/-- Statements that begin with a keyword; none if the current word is none of them. -/
def keywordStatement? (grammar : Grammar text) (declarations : Bool) :
    Reader text (Option (Found text)) := do
  let start ← place
  let next ← peek
  match ← current with
  | .word "break" false => return some (← leave true)
  | .word "continue" false => return some (← leave false)
  | .word "debugger" false => advance; expectSemicolon; return some []
  | .word "do" false => return some (← doLoop grammar)
  | .word "for" false => return some (← forLoop grammar)
  | .word "function" false =>
      unless declarations do note start
      return some (← functionDeclaration grammar false)
  | .word "class" false =>
      unless declarations do note start
      return some (← classDeclaration grammar [])
  | .word "if" false =>
      advance
      let test ← test grammar
      let yes ← plain grammar
      let no ← if ← eatWord "else" then plain grammar else pure []
      return some (test ++ yes ++ no)
  | .word "return" false =>
      advance
      let value ← if ← eatSemicolon then pure [] else
        do
          let value ← withIn (foundIn grammar .expression)
          expectSemicolon
          pure value
      unless (← read).inFunction do note start
      return some value
  | .word "switch" false => return some (← switch grammar)
  | .word "throw" false =>
      advance
      if ← afterNewline then unexpected
      let value ← withIn (foundIn grammar .expression)
      expectSemicolon
      return some value
  | .word "try" false => return some (← tryStatement grammar)
  | .word "catch" false | .word "finally" false =>
      note start
      let catches ← eatWord "catch"
      try
        let _ ← if catches then catchClause grammar else pure []
        let _ ← if ← eatWord "finally" then block grammar else pure []
      catch _ => pure ()
      return some []
  | .word "with" false =>
      note start
      advance
      let object ← test grammar
      return some (object ++ (← plain grammar))
  | .word "while" false =>
      advance
      let test ← test grammar
      return some (test ++ (← loopBody grammar))
  | .word "import" false =>
      if next == .mark "(" || next == .mark "." then return none else unexpected
  | .word "export" false => unexpected
  | _ => return none

/-- Declarations that begin with a word; none if the current word begins none. -/
def declaration? (grammar : Grammar text) (declarations : Bool) :
    Reader text (Option (Found text)) := do
  if (← typed) && (← isWord "const") && (← peek) == .word "enum" false then
    advance
    advance
    return some (← Declaration.enumeration grammar)
  if let some kind ← variableKind? then
    if declarations || kind == .functionWide then
      advance
      return some (← variableStatement grammar kind)
  if ← opensAsyncFunction then
    advance
    return some (← functionDeclaration grammar true)
  if ← opensDeclared then
    advance
    let declared := withReader (fun context => { context with inDeclare := true })
      (foundIn grammar (.statement true))
    return some (← declared)
  Declaration.declaration? grammar []

def opensClass : Reader text Bool := do
  let next ← peekState
  return (← isWord "class") ||
    ((← typed) && (← isWord "abstract") && next.token == .word "class" false && !next.newline)

/-- The statement behind some decorators. Only a class keeps them. -/
def decorated (grammar : Grammar text) (marked : Found text) : Reader text (Found text) := do
  let isDeclared := (← typed) && (← isWord "declare") &&
    [Token.word "class" false, .word "abstract" false].contains (← peek)
  if isDeclared then
    advance
    withReader (fun context => { context with inDeclare := true }) (classDeclaration grammar marked)
  else if ← opensClass then classDeclaration grammar marked
  else foundIn grammar (.statement true)

def statement (grammar : Grammar text) (declarations : Bool) : Reader text (Found text) := do
  match ← current with
  | .mark "\x7b" => block grammar
  | .mark ";" => advance; return []
  | .mark "@" =>
      let marked ← Function.decorators grammar
      decorated grammar marked
  | .word word _ =>
      if let some found ← keywordStatement? grammar declarations then return found
      if let some found ← declaration? grammar declarations then return found
      if declarations then
        if ← eatResource then return ← variableStatement grammar .resource
      if (← peek) == .mark ":" && (isFreeWord word || word == "let") then labelled grammar
      else expressionStatement grammar
  | _ => expressionStatement grammar

end FieldUsage.Host.Statement
