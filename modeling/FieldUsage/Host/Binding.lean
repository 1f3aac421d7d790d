import FieldUsage.Host.TypeGrammar

/-!
Binding patterns, and the keys of properties that patterns, object literals and classes share.
-/

namespace FieldUsage.Host

open Reader TypeGrammar

variable {text : List Char}

structure Key (text : List Char) where
  start : Nat
  /-- The key itself, unless it is computed or a number. -/
  name : Option String := none
  /-- The key is a word, so it may stand for a variable of that name. -/
  isWord : Bool := false
  isPrivate : Bool := false
  templates : Found text := []

namespace Key

def key (grammar : Grammar text) : Reader text (Key text) := do
  let start ← place
  match ← current with
  | .word name _ => advance; return { start, name := some name, isWord := true }
  | .string name => advance; return { start, name := some name }
  | .number => advance; return { start }
  | .mark "[" =>
      advance
      let inner ← withIn (grammar .assignment)
      expectMark "]"
      return { start, templates := inner.templates }
  | _ => unexpected

/-- Reads the key of a class member, which may be private. -/
def classKey (grammar : Grammar text) : Reader text (Key text) := do
  let start ← place
  if ← isMark "#" then
    let word ← privateName
    if word.name == "constructor" then note start
    return { start, isPrivate := true }
  else key grammar

end Key

namespace Binding

def default? (grammar : Grammar text) : Reader text (Found text) := do
  if ← eatMark "=" then withIn (foundIn grammar .assignment) else return []

def element (grammar : Grammar text) : Reader text (Found text) := do
  let pattern ← grammar .binding
  return pattern.templates ++ (← default? grammar)

/-- The rest of an array or object, which nothing may follow. -/
def rest (grammar : Grammar text) : Reader text (Found text) := do
  expectMark "..."
  let pattern ← grammar .binding
  let offset ← place
  if ← isMark "," then note offset
  return pattern.templates

def array (grammar : Grammar text) : Reader text (Found text) := do
  expectMark "["
  itemsUntil "]" do
    if ← eatMark "," then return []
    let found ← if ← isMark "..." then rest grammar else element grammar
    unless ← isMark "]" do expectMark ","
    return found

def property (grammar : Grammar text) : Reader text (Found text) := do
  if ← isMark "..." then
    if (← peek) == .mark "[" || (← peek) == .mark "\x7b" then note (← place)
    rest grammar
  else
    let key ← Key.key grammar
    if ← eatMark ":" then return key.templates ++ (← element grammar)
    unless key.isWord do unexpected
    default? grammar

def pattern (grammar : Grammar text) : Reader text (Node text) := do
  let start ← place
  match ← current with
  | .mark "[" => return { start, form := .array, templates := ← array grammar }
  | .mark "\x7b" =>
      advance
      return { start, form := .object, templates := ← commaList "\x7d" (property grammar) }
  | .word _ _ => return { start, form := .name (← bindingName) }
  | _ => unexpected

end Binding

end FieldUsage.Host
