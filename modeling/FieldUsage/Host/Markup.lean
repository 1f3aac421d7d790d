import FieldUsage.Host.TypeGrammar

/-!
Markup elements. Their text and attribute strings are not host text; expressions between braces are.
An element is left with its last bracket as the current token, because what comes next is markup
text inside another element and host text elsewhere.
-/

namespace FieldUsage.Host.Markup

open Reader TypeGrammar

variable {text : List Char}

def simpleName : Reader text String := do
  let state ← get
  match state.token with
  | .word _ false =>
      let length := markupNameLength state.cursor.rest
      jump (state.cursor.advance length)
      return String.ofList (state.cursor.rest.take length)
  | _ => unexpected

/-- The name of an element: with a namespace, or with members of an object. -/
def elementName : Reader text String := do
  let first ← simpleName
  if ← eatMark ":" then return first ++ ":" ++ (← simpleName)
  else
    loop first fun name => do
      if ← eatMark "." then return some (name ++ "." ++ (← simpleName))
      else return none

def embedded (grammar : Grammar text) (emptyAllowed : Bool) : Reader text (Found text) := do
  let start ← place
  expectMark "\x7b"
  if ← isMark "\x7d" then
    unless emptyAllowed do note start
    return []
  let inner := fun (context : Context) => { context with hasIn := true, colonExpected := false }
  let found ← if (← isMark "...") && emptyAllowed then
      advance
      withReader inner (foundIn grammar .assignment)
    else withReader inner (foundIn grammar .expression)
  unless ← isMark "\x7d" do unexpected
  return found

def attributeValue (grammar : Grammar text) : Reader text (Found text) := do
  let after := (← get).tokenEnd
  let gap := skipGap .blank after.rest { offset := after.offset }
  let cursor := after.advance gap.length
  match cursor.rest with
  | c :: rest =>
      if c == '"' || c == '\'' then
        match markupStringLength c rest with
        | some length => jump (cursor.advance (length + 1)); return []
        | none => throw cursor.offset
      else
        advance
        if ← isMark "\x7b" then embedded grammar false <* advance
        else if ← isMark "<" then foundIn grammar .markup <* advance
        else unexpected
  | [] => advance; unexpected

def attributeItem (grammar : Grammar text) : Reader text (Found text) := do
  if ← eatMark "\x7b" then
    expectMark "..."
    let found ← withIn (foundIn grammar .assignment)
    expectMark "\x7d"
    return found
  else
    let _ ← simpleName
    if ← eatMark ":" then
      let _ ← simpleName
    if ← isMark "=" then attributeValue grammar else return []

/-- The children of an element, after the bracket that is the current token, up to its closing tag.
The closing tag must name the element, or nothing for a fragment. -/
def children (grammar : Grammar text) (name : Option String) : Reader text (Found text) := do
  let (found, _) ← loop (([] : Found text), true) fun (found, more) => do
    if !more then return none
    let after := (← get).tokenEnd
    let (length, stray) := markupText after.offset after.rest
    noteAny stray
    let cursor := after.advance length
    match cursor.rest with
    | '{' :: _ =>
        jump cursor
        return some (found ++ (← embedded grammar true), true)
    | '<' :: _ =>
        jump cursor
        cutBracket
        if (← peek) == .mark "/" then
          advance
          advance
          let closing ← if ← isMark ">" then pure none else pure (some (← elementName))
          unless ← isMark ">" do unexpected
          if closing != name then
            advance
            throw cursor.offset
          return some (found, false)
        else return some (found ++ (← foundIn grammar .markup), true)
    | _ =>
        jump cursor
        unexpected
  return found

/-- An element or fragment, from its first bracket up to its last. -/
def element (grammar : Grammar text) : Reader text (Found text) := do
  expectMark "<"
  if ← isMark ">" then children grammar none
  else
    let name ← elementName
    let types ← if (← typed) && (← opensArguments) then arguments grammar else pure []
    let attributes ← loop [] fun found => do
      if (← isMark ">") || (← isMark "/") then return none
      else return some (found ++ (← attributeItem grammar))
    if ← eatMark "/" then
      unless ← isMark ">" do unexpected
      return attributes ++ types
    else return attributes ++ types ++ (← children grammar name)

end FieldUsage.Host.Markup
