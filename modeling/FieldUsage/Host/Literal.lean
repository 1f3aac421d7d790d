import FieldUsage.Host.Class

/-!
Literals of host text: templates with their holes, regular expressions, arrays and objects. Array
and object literals are also how patterns begin, so they remember what would be wrong with them as
such.
-/

namespace FieldUsage.Host.Literal

open Reader TypeGrammar

variable {text : List Char}

/-- A segment of a template, from the backquote or brace that is the current token, and the hole
behind it. Takes the templates found so far and whether a segment follows, and gives the same. In a
template without a tag every escape must have a meaning. -/
def templateSegment (grammar : Grammar text) (tagged : Bool) :
    Found text × Bool → Reader text (Option (Found text × Bool))
  | (found, more) => do
      if !more then return none
      let start ← place
      let after := (← get).tokenEnd
      match segment? after.rest with
      | none => throw start
      | some (raw, hole) =>
          if !tagged then
            match badEscape? 0 after.offset raw with
            | some offset => throw offset
            | none => pure ()
          let stop := after.advance raw.length
          if hole then
            let inner := fun (context : Context) =>
              { context with hasIn := true, colonExpected := false }
            jump (stop.advance 2)
            let value ← withReader inner (foundIn grammar .expression)
            unless ← isMark "\x7d" do unexpected
            return some (found ++ value, true)
          else
            jump (stop.advance 1)
            return some (found, false)

/-- The holes of the template whose backquote is the current token. -/
def templateHoles (grammar : Grammar text) (tagged : Bool) : Reader text (Found text) := do
  let (found, _) ← loop ([], true) (templateSegment grammar tagged)
  return found

/-- Passes over a token that has no place in the grammar. A template counts as one up to its first
hole, and up to the end of the text if it is never closed. -/
def skipToken : Reader text Unit := do
  if (← current) == .backquote then
    let after := (← get).tokenEnd
    match segment? after.rest with
    | some (raw, hole) => jump (after.advance (raw.length + (segmentEnd hole).length))
    | none => jump (after.advance after.rest.length)
  else advance

/-- Ends the reading at a token that breaks off: a template that is never closed, or no token at
all. -/
def expectWhole : Reader text Unit := do
  match ← current with
  | .broken _ => unexpected
  | .backquote => if (segment? (← get).tokenEnd.rest).isNone then unexpected
  | _ => return

def template (grammar : Grammar text) : Reader text (Node text) := do
  let start ← place
  let found ← templateHoles grammar false
  return Node.plain start .template found

/-- A template behind its tag. A tag that is a bare name makes it one of the templates found. -/
def taggedTemplate (grammar : Grammar text) (tag : Node text) (types : Found text) :
    Reader text (Node text) := do
  let cursor := (← get).cursor
  let own := match tag.form with
    | .name word => (Template.at? word cursor).toList
    | _ => []
  let holes ← templateHoles grammar true
  if tag.form == .chain then note tag.start
  return Node.plain tag.start .other (own ++ tag.templates ++ types ++ holes)

/-- A regular expression, whose slash is the current token. -/
def regex : Reader text (Node text) := do
  let start ← place
  let after := (← get).cursor.next
  match regexLength false after.rest with
  | none =>
      modify fun state => { state with token := .broken start, spelled := nofun }
      throw start
  | some length =>
      let stop := after.advance length
      let flags := stop.rest.takeWhile continuesWord
      unless regexFlagsValid flags do note start
      jump (stop.advance flags.length)
      return Node.plain start .literal

structure Item (text : List Char) where
  node : Node text
  spread : Bool

/-- An expression, possibly spread. -/
def item (grammar : Grammar text) : Reader text (Item text) := do
  let inner := fun (context : Context) => { context with hasIn := true, colonExpected := false }
  let spread ← eatMark "..."
  return { node := ← withReader inner (grammar .assignment), spread }

/-- The items read so far between the brackets of an array literal. -/
structure Items (text : List Char) where
  start : Nat
  templates : Found text := []
  pending : Option Nat := none
  asElement : Option Nat := none
  asBinding : Option Nat := none
  /-- An item that is spread came last, and may turn out not to be the last one. -/
  spreadLast : Bool := false

/-- Notes that something follows what was read last: as a pattern, nothing follows the rest. -/
def Items.follow (items : Items text) : Items text :=
  if items.spreadLast then
    { items with
      spreadLast := false
      asElement := items.asElement.or (some items.start)
      asBinding := items.asBinding.or (some items.start) }
  else items

/-- Adds an item. The rest of a pattern has no default. -/
def Items.push (items : Items text) (item : Item text) : Items text :=
  let items := items.follow
  let default := if item.spread && item.node.form == .assignment then some item.node.start else none
  { items with
    templates := items.templates ++ item.node.templates
    pending := items.pending.or item.node.pending
    asElement := (items.asElement.or default).or item.node.asElement
    asBinding := (items.asBinding.or default).or item.node.asBinding
    spreadLast := item.spread }

def array (grammar : Grammar text) : Reader text (Node text) := do
  let start ← place
  expectMark "["
  let items ← loop ({ start } : Items text) fun items => do
    if ← isMark "]" then return none
    if ← eatMark "," then return some items.follow
    let items := items.push (← item grammar)
    unless ← isMark "]" do
      expectMark ","
      if ← isMark "]" then return some items.follow
    return some items
  expectMark "]"
  return { start, form := .array, templates := items.templates
           asElement := items.asElement, asBinding := items.asBinding }

def fixedProperty (start : Nat) (templates : Found text) : Node text :=
  { start, templates, asElement := some start, asBinding := some start }

def method (grammar : Grammar text) (start : Nat) (async generator : Bool) :
    Reader text (Node text) := do
  let key ← Key.key grammar
  let function ← Class.insideClass (Function.callable grammar async generator)
  return fixedProperty start (key.templates ++ function.templates)

def accessor (grammar : Grammar text) (start : Nat) (isGetter : Bool) :
    Reader text (Node text) := do
  let member ← Class.insideClass (Class.accessor grammar [] { isStatic := true } isGetter)
  return fixedProperty start member.templates

def propertyRest (grammar : Grammar text) (key : Key text) : Reader text (Node text) := do
  let inner := fun (context : Context) => { context with hasIn := true, colonExpected := false }
  if ← eatMark ":" then
    let value ← withReader inner (grammar .assignment)
    return { value with
      start := key.start, templates := key.templates ++ value.templates, pending := none }
  else if ← isAnyMark ["(", "<"] then
    let function ← Class.insideClass (Function.callable grammar false false)
    return fixedProperty key.start (key.templates ++ function.templates)
  else
    match key.name with
    | some name =>
        unless key.isWord do unexpected
        unless ← isAnyMark ["=", ",", "\x7d"] do unexpected
        if name == "arguments" && (← read).inField then note key.start
        let named := Node.nameFault key.start name
        if ← eatMark "=" then
          let value ← withReader inner (grammar .assignment)
          return { start := key.start, templates := value.templates, pending := some key.start
                   asBinding := named }
        else return { start := key.start, asBinding := named }
    | none => unexpected

def property (grammar : Grammar text) : Reader text (Node text) := do
  if ← typed then
    let _ ← Class.eatModifier ["public", "private", "protected"]
    let _ ← Class.eatModifier ["readonly"]
  let start ← place
  if ← eatMark "*" then method grammar start false true
  else
    let next ← peekState
    if (← isWord "async") && Class.beginsMember next.token then
      advance
      let generator ← eatMark "*"
      method grammar start true generator
    else if (← isAnyWord ["get", "set"]) && beginsKey next.token then
      let isGetter ← isWord "get"
      advance
      accessor grammar start isGetter
    else propertyRest grammar (← Key.key grammar)

/-- A spread in an object literal. In a binding pattern the rest is a name. -/
def spreadProperty (grammar : Grammar text) : Reader text (Item text) := do
  let item ← item grammar
  let named := match item.node.form with
    | .name _ => none
    | _ => some item.node.start
  return { item with node := { item.node with asBinding := named, pending := none } }

def object (grammar : Grammar text) : Reader text (Node text) := do
  let start ← place
  expectMark "\x7b"
  let items ← loop ({ start } : Items text) fun items => do
    if ← isMark "\x7d" then return none
    let item ← if ← isMark "..." then spreadProperty grammar
      else pure { node := ← property grammar, spread := false }
    let items := items.push item
    unless ← isMark "\x7d" do
      expectMark ","
      if ← isMark "\x7d" then return some items.follow
    return some items
  expectMark "\x7d"
  return { start, form := .object, templates := items.templates, pending := items.pending
           asElement := items.asElement, asBinding := items.asBinding }

end FieldUsage.Host.Literal
