import FieldUsage.Host.Binding

/-!
Functions: parameters, bodies, and what the words `async` and `function*` change inside them. The
walk over a function visits its parameters first, then the decorators it carries as a method, its
body, and last its types.
-/

namespace FieldUsage.Host

open Reader TypeGrammar

variable {text : List Char}

structure Parameters (text : List Char) where
  templates : Found text := []
  count : Nat := 0
  /-- All parameters are plain names. -/
  simple : Bool := true
  /-- Where a rest parameter was seen. -/
  rest : Option Nat := none
  /-- Where a parameter was seen that only a function with a body has: one that becomes a
  property, or one with a default. -/
  implemented : Option Nat := none

namespace Function

/-- Passes over one of some words, if what follows it can be a parameter. -/
def eatModifier (words : List String) : Reader text Bool := do
  if ← isAnyWord words then
    match ← peek with
    | .word _ _ | .mark "\x7b" | .mark "[" => advance; return true
    | _ => return false
  else return false

/-- Passes over the words that turn a parameter into a property of the object under construction,
and tells whether there were any. -/
def modifiers : Reader text Bool := do
  if !(← typed) then return false
  let hasAccess ← eatModifier ["public", "protected", "private"]
  let isOverride ← eatModifier ["override"]
  let isReadonly ← eatModifier ["readonly"]
  return hasAccess || isOverride || isReadonly

def decorators (grammar : Grammar text) : Reader text (Found text) :=
  loop [] fun found => do
    if ← isMark "@" then return some (found ++ (← grammar .decorator).templates)
    else return none

/-- One parameter that is not the rest. Tells whether it is a plain name, and where it begins if
only a function with a body may have it. -/
def parameter (grammar : Grammar text) (constructs : Bool) :
    Reader text (Found text × Bool × Option Nat) := do
  let start ← place
  let modified ← modifiers
  if modified && !constructs then note start
  let pattern ← grammar .binding
  let named := match pattern.form with
    | .name _ => true
    | _ => false
  if modified && !named then note pattern.start
  let optional ← if ← typed then eatMark "?" else pure false
  let type ← annotation? grammar
  let isDefault ← isMark "="
  if optional && isDefault then note pattern.start
  let default ← Binding.default? grammar
  return (pattern.templates ++ type ++ default, named && !isDefault,
    if modified || isDefault then some start else none)

def restParameter (grammar : Grammar text) : Reader text (Found text) := do
  expectMark "..."
  let pattern ← grammar .binding
  let offset ← place
  if ← isMark "?" then
    if ← typed then note offset; advance
  let type ← annotation? grammar
  if ← isMark "=" then note pattern.start
  let default ← Binding.default? grammar
  return pattern.templates ++ type ++ default

def parameters (grammar : Grammar text) (constructs : Bool := false) :
    Reader text (Parameters text) := do
  expectMark "("
  let all ← withReader (fun context => { context with inParameters := true, hasIn := true }) do
    loop ({} : Parameters text) fun seen => do
      if ← isMark ")" then return none
      noteAny seen.rest
      let marked ← decorators grammar
      let start ← place
      let isRest ← isMark "..."
      let (found, simple, implemented) ←
        if isRest then pure (← restParameter grammar, false, none) else parameter grammar constructs
      unless ← isMark ")" do
        let comma ← place
        expectMark ","
        if isRest && (← isMark ")") then note comma
      return some
        { templates := seen.templates ++ marked ++ found
          count := seen.count + 1
          simple := seen.simple && simple
          rest := if isRest then some start else seen.rest
          implemented := seen.implemented.or implemented }
  expectMark ")"
  return all

/-- Statements or items up to a closing brace, after the opening one. It is noted if the text ends
before. -/
def untilBrace (grammar : Grammar text) (goal : Goal) : Reader text (Found text) := do
  let found ← loop [] fun found => do
    if (← isMark "\x7d") || (← current) == .finish then return none
    else return some (found ++ (← foundIn grammar goal))
  unless ← eatMark "\x7d" do note (← place)
  return found

def statementsUntilBrace (grammar : Grammar text) : Reader text (Found text) :=
  untilBrace grammar (.statement true)

/-- Whether a string that begins a statement is all of it, as the token behind it tells. On a new
line, most words and a few marks begin another statement. -/
def endsString (next : State text) : Bool :=
  match next.token with
  | .finish | .mark ";" | .mark "\x7d" => true
  | .mark mark => next.newline && ["\x7b", "@", "#", "!", "~", "++", "--"].contains mark
  | .word word escaped => next.newline && (escaped || !(["in", "instanceof"].contains word))
  | .backquote => false
  | .number | .string _ | .broken _ => next.newline

/-- Whether a directive comes next: a statement that is a string. -/
def isDirective : Reader text Bool := do
  match ← current with
  | .string _ => return endsString (← peekState)
  | _ => return false

/-- The directives that begin a body. Tells where the first one stands that switches to strict code,
which is spelled without escapes. -/
def directives : Reader text (Option Nat) :=
  loop none fun strict => do
    unless ← isDirective do return none
    let start ← place
    let state ← get
    let switches := state.token == .string "use strict" && state.length == 12
    advance
    let _ ← eatMark ";"
    return some (strict.or (if switches then some start else none))

def inside (async generator arrow : Bool) (context : Context) : Context :=
  { context with
    inFunction := true
    inAsync := async
    inGenerator := generator
    hasTarget := context.hasTarget || !arrow
    inParameters := false
    inField := if arrow then context.inField else false
    canBreak := false
    canContinue := false
    colonExpected := false }

/-- Reads with no label in sight. -/
def withoutLabels {α : Type} (reader : Reader text α) : Reader text α := do
  let labels := (← get).labels
  modify fun state => { state with labels := [] }
  let value ← reader
  modify fun state => { state with labels := labels }
  return value

/-- The body of a function between braces. A function whose parameters are not plain names cannot
switch to strict code itself. -/
def body (grammar : Grammar text) (simple : Bool) : Reader text (Found text) := do
  expectMark "\x7b"
  let strict ← directives
  let found ← withoutLabels (withIn (statementsUntilBrace grammar))
  unless simple do noteAny strict
  return found

structure Callable (text : List Char) where
  templates : Found text
  hasBody : Bool
  parameters : Parameters text
  /-- Where the type of what it gives back stands, if it is written. -/
  result : Option Nat

/-- A function from its type parameters on. Where types are read, a function may be declared
without a body. -/
def callable (grammar : Grammar text) (async generator : Bool) (marked : Found text := [])
    (constructs : Bool := false) : Reader text (Callable text) := do
  let bounds ← parameters? grammar
  let names ← withReader
    (fun context =>
      { context with inAsync := async, inGenerator := generator, inFunction := false })
    (parameters grammar constructs)
  let typePlace ← place
  let hasResult := (← typed) && (← isMark ":")
  let result ← returned? grammar
  let start ← place
  let hasBody ← if (← typed) && !(← isMark "\x7b") then
      if ← eatSemicolon then pure false else unexpected
    else pure true
  if hasBody && (← read).inDeclare then note start
  unless hasBody do noteAny names.implemented
  let inner ← if hasBody then
      withReader (inside async generator false) (body grammar names.simple)
    else pure []
  return { templates := names.templates ++ marked ++ inner ++ bounds ++ result
           hasBody
           parameters := names
           result := if hasResult then some typePlace else none }

def arrowBody (grammar : Grammar text) (async simple : Bool) : Reader text (Found text × Bool) := do
  let context := inside async false true
  if ← isMark "\x7b" then return (← withReader context (body grammar simple), true)
  else
    let value ← withReader context (withoutLabels (grammar .assignment))
    return (value.templates, false)

/-- A function after the word `function`, with its name where one is given or required. -/
def named (grammar : Grammar text) (async nameRequired : Bool) : Reader text (Found text) := do
  let generator ← eatMark "*"
  if nameRequired || (← isName) then
    let _ ← bindingName
  let function ← callable grammar async generator
  return function.templates

end Function

end FieldUsage.Host
