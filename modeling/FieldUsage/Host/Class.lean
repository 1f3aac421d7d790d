import FieldUsage.Host.Function

/-!
Classes. The walk over a class visits its decorators and its body before what it extends, and the
decorators of a member after the key and value, or after the key and parameters.
-/

namespace FieldUsage.Host.Class

open Reader TypeGrammar

variable {text : List Char}

structure Modifiers where
  isDeclared : Bool := false
  /-- One of the words that tell who may use the member. -/
  hasAccess : Bool := false
  isStatic : Bool := false
  isAbstract : Bool := false
  isOverride : Bool := false
  isReadonly : Bool := false

/-- Whether a word in front of a token modifies it, rather than being a key itself. -/
def modifies (word : String) (next : State text) : Bool :=
  let follows := match next.token with
    | .word _ _ | .string _ | .number => true
    | .mark "[" | .mark "#" | .mark "*" => true
    | .mark "\x7b" => word == "static"
    | _ => false
  follows && (word != "accessor" || !next.newline)

/-- The modifier at the current token, if it is one of some words. -/
def modifier? (words : List String) : Reader text (Option String) := do
  match ← current with
  | .word word false =>
      return if words.contains word && modifies word (← peekState) then some word else none
  | _ => return none

def eatModifier (words : List String) : Reader text Bool := do
  match ← modifier? words with
  | some _ => advance; return true
  | none => return false

/-- Adds a modifier. Some may not be repeated, and some come in a fixed order. -/
def Modifiers.add (found : Modifiers) (word : String) : Reader text Modifiers := do
  let start ← place
  match word with
  | "abstract" =>
      let allowed := (← read).inAbstractClass
      if found.isAbstract || found.isOverride || !allowed then note start
      return { found with isAbstract := true }
  | "override" =>
      let allowed := (← read).inDerivedClass && !found.isDeclared
      if found.isOverride || found.isReadonly || !allowed then note start
      return { found with isOverride := true }
  | "readonly" =>
      if found.isReadonly then note start
      return { found with isReadonly := true }
  | "static" =>
      if found.isOverride then note start
      return { found with isStatic := true }
  | _ => return found

def modifiers : Reader text Modifiers := do
  if !(← typed) then return { isStatic := ← eatModifier ["static"] }
  let declaredFirst ← eatModifier ["declare"]
  let hasAccess ← eatModifier ["public", "private", "protected"]
  let isDeclared ← if declaredFirst then pure true else eatModifier ["declare"]
  let isStatic ← eatModifier ["static"]
  loop { isDeclared, hasAccess, isStatic : Modifiers } fun found => do
    let words := ["abstract", "override", "readonly", "static"]
    match ← modifier? (if found.isReadonly then words else "accessor" :: words) with
    | some word =>
        let found ← found.add word
        advance
        return some found
    | none => return none

def insideClass {α : Type} (reader : Reader text α) : Reader text α :=
  withReader (fun context => { context with inClass := true, hasSuper := true }) reader

/-- A block that runs when the class is made. -/
def staticBlock (grammar : Grammar text) : Reader text (Found text) := do
  expectMark "\x7b"
  let context := fun (context : Context) =>
    { context with
      inFunction := false, inAsync := false, inGenerator := false, inField := true, hasIn := true }
  withReader context (Function.withoutLabels (Function.statementsUntilBrace grammar))

/-- A member that was read, and whether it is a constructor with a body. -/
structure Member (text : List Char) where
  templates : Found text
  constructs : Bool := false

def checkModifiers (modifiers : Modifiers) (key : Key text) : Reader text Unit := do
  if key.isPrivate && (modifiers.hasAccess || modifiers.isAbstract || modifiers.isDeclared) then
    note key.start

def method (grammar : Grammar text) (marked : Found text) (modifiers : Modifiers) (key : Key text)
    (async generator : Bool) : Reader text (Member text) := do
  let isNamedSo := key.name == some "constructor"
  let constructs := isNamedSo && !modifiers.isStatic
  checkModifiers modifiers key
  if constructs && (async || generator) then note key.start
  if (← typed) && isNamedSo && modifiers.isStatic then note key.start
  if constructs && (modifiers.isAbstract || modifiers.isOverride) then note key.start
  if modifiers.isReadonly || modifiers.isDeclared then note key.start
  if constructs && (← isMark "<") then note (← place)
  let function ← Function.callable grammar async generator (if constructs then [] else marked)
    constructs
  if constructs then noteAny function.result
  if modifiers.isAbstract && function.hasBody then note key.start
  return { templates := key.templates ++ function.templates
           constructs := constructs && function.hasBody }

/-- A getter or setter from its key on: a getter takes nothing, and a setter one value. -/
def accessor (grammar : Grammar text) (marked : Found text) (modifiers : Modifiers)
    (isGetter : Bool) : Reader text (Member text) := do
  let key ← Key.classKey grammar
  checkModifiers modifiers key
  if modifiers.isReadonly then note key.start
  if key.name == some "constructor" && !modifiers.isStatic then note key.start
  let function ← Function.callable grammar false false marked
  let wanted := if isGetter then 0 else 1
  if function.parameters.count != wanted || function.parameters.rest.isSome then note key.start
  return { templates := key.templates ++ function.templates }

def field (grammar : Grammar text) (marked : Found text) (modifiers : Modifiers) (key : Key text)
    (isOptional : Bool) : Reader text (Member text) := do
  checkModifiers modifiers key
  if key.name == some "constructor" then note key.start
  unless (← isAnyMark ["!", ":", "=", "\x7d"]) || (← atStatementEnd) do unexpected
  if (← typed) && !isOptional then
    let _ ← eatMark "!"
  let type ← annotation? grammar
  let inner := fun (context : Context) =>
    { context with
      inField := true, inAsync := false, inGenerator := false, hasIn := true
      colonExpected := false }
  if modifiers.isAbstract && (← isMark "=") then note key.start
  let value ← if ← eatMark "=" then withReader inner (foundIn grammar .assignment) else pure []
  unless ← eatSemicolon do note (← place)
  return { templates := key.templates ++ value ++ type ++ marked }

def beginsMember : Token → Bool
  | .mark "*" => true
  | token => beginsKey token

def member (grammar : Grammar text) : Reader text (Member text) := do
  let marked ← Function.decorators grammar
  let modifiers ← modifiers
  if modifiers.isStatic && (← isMark "\x7b") then
    if modifiers.hasAccess || modifiers.isDeclared then note (← place)
    return { templates := ← staticBlock grammar }
  let plain := !(modifiers.hasAccess || modifiers.isAbstract || modifiers.isOverride)
  if (← typed) && plain && (← isMark "[") && (← opensIndex) then
    let found ← indexSignature grammar
    expectSemicolon
    return { templates := found }
  if ← eatMark "*" then
    let key ← Key.classKey grammar
    return ← method grammar marked modifiers key false true
  let next ← peekState
  if (← isWord "async") && !next.newline && beginsMember next.token then
    advance
    let generator ← eatMark "*"
    let key ← Key.classKey grammar
    return ← method grammar marked modifiers key true generator
  if (← isAnyWord ["get", "set"]) && !next.newline && beginsKey next.token then
    let isGetter ← isWord "get"
    advance
    return ← accessor grammar marked modifiers isGetter
  let key ← Key.classKey grammar
  let isOptional ← if ← typed then eatMark "?" else pure false
  if ← isAnyMark ["(", "<"] then method grammar marked modifiers key false false
  else field grammar marked modifiers key isOptional

/-- The body of a class. One constructor may have a body. -/
def body (grammar : Grammar text) : Reader text (Found text) := do
  expectMark "\x7b"
  let (found, _) ← loop (([] : Found text), false) fun (found, constructed) => do
    if ← isMark "\x7d" then return none
    if ← eatMark ";" then return some (found, constructed)
    let start ← place
    let member ← insideClass (member grammar)
    if member.constructs && constructed && !(← read).inDeclare then note start
    return some (found ++ member.templates, constructed || member.constructs)
  expectMark "\x7d"
  return found

/-- Names that a class implements or an interface extends, with their type arguments. There may be
none. -/
def heritage (grammar : Grammar text) : Reader text (Found text) := do
  unless ← isName do return []
  separated "," do
    entityName anyName
    if ← opensArguments then arguments grammar else return []

/-- Names of types that no class or interface may take over. -/
def cannotNameType (name : String) : Bool :=
  basicTypes.contains name && name != "undefined"

/-- A class after the word `class`. -/
def tail (grammar : Grammar text) (marked : Found text) (nameRequired : Bool)
    (isAbstract : Bool := false) : Reader text (Found text) := do
  let isClause ← if ← typed then isAnyWord ["extends", "implements"] else isWord "extends"
  if nameRequired || ((← isName) && !isClause) then
    if ← isWord "let" then unexpected
    let start ← place
    let word ← bindingName
    if (← typed) && cannotNameType word.name then note start
  let bounds ← parameters? grammar
  let isDerived ← isWord "extends"
  let (base, baseTypes) ← if ← eatWord "extends" then
      let base ← grammar .leftHandSide
      let types ← if (← typed) && (← opensArguments) then arguments grammar else pure []
      pure (base.templates, types)
    else pure ([], [])
  let interfaces ← if (← typed) && (← eatWord "implements") then heritage grammar else pure []
  let inner ← withReader
    (fun context => { context with inAbstractClass := isAbstract, inDerivedClass := isDerived })
    (body grammar)
  return marked ++ inner ++ base ++ bounds ++ baseTypes ++ interfaces

end FieldUsage.Host.Class
