import FieldUsage.Host.Class

/-!
Declarations that only exist where types are read: interfaces, type aliases, enumerations and
namespaces.
-/

namespace FieldUsage.Host.Declaration

open Reader TypeGrammar

variable {text : List Char}

def interface (grammar : Grammar text) : Reader text (Found text) := do
  let start ← place
  let word ← anyName
  if Class.cannotNameType word.name || word.name == "void" then note start
  let bounds ← parameters? grammar false
  let base ← if ← eatWord "extends" then Class.heritage grammar else pure []
  let inner ← members grammar
  return bounds ++ base ++ inner

def typeAlias (grammar : Grammar text) : Reader text (Found text) := do
  let _ ← anyName
  let bounds ← parameters? grammar false
  expectMark "="
  let type ← freeType grammar
  expectSemicolon
  return bounds ++ type

/-- The key of a member of an enumeration: a name or a text, also between brackets. -/
def enumKey (grammar : Grammar text) : Reader text Unit := do
  let start ← place
  match ← current with
  | .word _ _ | .string _ => advance
  | .number => note start; advance
  | .mark "[" =>
      advance
      let key ← withIn (grammar .expression)
      unless key.form == .literal || (key.form == .template && key.templates.isEmpty) do note start
      expectMark "]"
  | _ => unexpected

/-- One member of an enumeration, with the comma behind it. A token that stands where the comma
should be is noted and taken for one. -/
def enumMember (grammar : Grammar text) : Reader text (Found text) := do
  enumKey grammar
  let value ← if ← eatMark "=" then withIn (foundIn grammar .assignment) else pure []
  unless (← eatMark ",") || (← isMark "\x7d") do
    note (← place)
    advance
  return value

def enumeration (grammar : Grammar text) : Reader text (Found text) := do
  let _ ← anyName
  expectMark "\x7b"
  itemsUntil "\x7d" (enumMember grammar)

def itemBlock (grammar : Grammar text) : Reader text (Found text) := do
  expectMark "\x7b"
  Function.untilBrace grammar .item

/-- A namespace after its keyword, named by a path of identifiers. -/
def namespaceBody (grammar : Grammar text) : Reader text (Found text) := do
  entityName identifier
  itemBlock grammar

/-- An ambient module after its keyword: it is named by a string and may lack a body. -/
def ambientModule (grammar : Grammar text) : Reader text (Found text) := do
  match ← current with
  | .string _ =>
      advance
      if ← isMark "\x7b" then itemBlock grammar
      else
        expectSemicolon
        return []
  | _ => namespaceBody grammar

/-- Whether a word follows the current one on the same line. -/
def wordFollows : Reader text Bool := do
  let next ← peekState
  match next.token with
  | .word _ _ => return !next.newline
  | _ => return false

def nameFollows : Reader text Bool := do
  match ← peek with
  | .word name _ => return isFreeWord name
  | _ => return false

/-- A declaration that begins with a word that is no keyword elsewhere; none if the word is used
as a name. -/
def declaration? (grammar : Grammar text) (marked : Found text) :
    Reader text (Option (Found text)) := do
  if !(← typed) then return none
  let next ← peekState
  match ← current with
  | .word "interface" false =>
      let follows ← if (← read).inDeclare then nameFollows else pure false
      unless follows || (← wordFollows) do return none
      advance
      return some (← interface grammar)
  | .word "type" false =>
      if ← wordFollows then advance; return some (← typeAlias grammar) else return none
  | .word "enum" false =>
      let follows ← if (← read).inDeclare then nameFollows else pure false
      unless follows || (← wordFollows) do return none
      advance
      return some (← enumeration grammar)
  | .word "namespace" false =>
      if ← nameFollows then advance; return some (← namespaceBody grammar) else return none
  | .word "module" false =>
      let isString := next.token matches .string _
      if (isString && !next.newline) || ((← nameFollows) && !next.newline) then
        advance
        return some (← ambientModule grammar)
      else return none
  | .word "global" false =>
      if next.token == .mark "\x7b" && !next.newline then
        advance
        return some (← itemBlock grammar)
      else return none
  | .word "abstract" false =>
      if next.token == .word "class" false && !next.newline then
        advance
        advance
        return some (← Class.tail grammar marked true true)
      else return none
  | _ => return none

end FieldUsage.Host.Declaration
