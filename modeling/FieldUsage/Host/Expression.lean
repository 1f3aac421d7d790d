import FieldUsage.Host.Literal
import FieldUsage.Host.Markup
import FieldUsage.Host.Operator

/-!
Expressions of host text. Parentheses are read before it is known whether they hold an expression or
the parameters of an arrow function; the same holds for array and object literals and the patterns
they may turn out to be.
-/

namespace FieldUsage.Host.Expression

open Reader TypeGrammar

variable {text : List Char}

def arguments (grammar : Grammar text) : Reader text (Found text × Nat) := do
  expectMark "("
  let (found, count) ← loop (([] : Found text), 0) fun (found, count) => do
    if ← isMark ")" then return none
    let item ← Literal.item grammar
    unless ← isMark ")" do expectMark ","
    return some (found ++ item.node.templates, count + 1)
  expectMark ")"
  return (found, count)

structure Piece (text : List Char) where
  node : Node text
  spread : Bool := false
  /-- It can only be a parameter. -/
  onlyParameter : Bool := false

structure Pieces (text : List Char) where
  pieces : List (Piece text) := []
  trailingComma : Option Nat := none

/-- Expressions joined by binary operators, from the second one on, that bind tighter than a given
precedence. The first argument bounds the number of operators. -/
def binaryRest (grammar : Grammar text) : Nat → Node text → Nat → Reader text (Node text)
  | 0, left, _ => return left
  | bound + 1, left, least => do
      if (← typed) && !(← afterNewline) && (← isAnyWord ["as", "satisfies"]) &&
          least < Operator.castPrecedence then
        let isCast ← isWord "as"
        advance
        if isCast && (← isWord "const") then
          advance
          binaryRest grammar bound (Node.around left.start .other left) least
        else
          let type ← freeType grammar
          let form := if isCast then Form.cast left.form else .wrapped left.form
          binaryRest grammar bound (Node.around left.start form left type) least
      else
        match ← Operator.binary? with
        | none => return left
        | some (operator, precedence) =>
            if precedence ≤ least then return left
            let start ← place
            Operator.advanceWide
            if operator == "**" && (left.form == .unary || left.form == .awaited) then throw start
            let operand ← grammar .unary
            let right ← binaryRest grammar bound operand
              (if operator == "**" then precedence - 1 else precedence)
            for side in [left, right] do
              if Operator.mixes operator side.form then note side.start
            binaryRest grammar bound (Node.joined (.binary operator) left right) least

/-- The first of some expressions that may be joined by operators. One that is missing in front of
an operator is noted. -/
def binaryFirst (grammar : Grammar text) : Reader text (Node text) := do
  try grammar .unary
  catch fault =>
    match ← Operator.binary? with
    | some _ =>
        let start ← place
        note start
        pure (Node.plain start .other)
    | none => throw fault

def binary (grammar : Grammar text) : Reader text (Node text) := do
  let left ← binaryFirst grammar
  if left.form == .arrow then return left
  binaryRest grammar (← read).budget left 0

def branches (grammar : Grammar text) (test : Node text) : Reader text (Node text) := do
  let yes ← withReader
    (fun context => { context with colonExpected := true, hasIn := true }) (grammar .assignment)
  expectMark ":"
  let no ← withReader (fun context => { context with colonExpected := false }) (grammar .assignment)
  return Node.plain test.start .conditional (test.templates ++ yes.templates ++ no.templates)

def conditional (grammar : Grammar text) : Reader text (Node text) := do
  let test ← binary grammar
  if test.form == .arrow then return test
  if ← eatMark "?" then branches grammar test else return test

/-- Rereads an expression as the target of a plain assignment. -/
def assignmentTarget (left : Node text) : Reader text (Node text) := do
  match left.form with
  | .object | .array =>
      noteAny left.asElement
      return left
  | form =>
      Operator.checkTarget left
      unless form.isTarget do throw left.start
      return left

/-- An assignment, if an assigning mark follows what was read. -/
def assignmentRest (grammar : Grammar text) (left : Node text) : Reader text (Node text) := do
  match ← Operator.assignment? with
  | none => return left
  | some mark =>
      let target ← if mark == "=" then assignmentTarget left else
        do
          unless left.form.assignable do note left.start
          unless left.form.isTarget && left.form != .object && left.form != .array do
            throw left.start
          pure left
      Operator.advanceWide
      let value ← grammar .assignment
      let whole := Node.joined .assignment target value
      if mark == "=" then
        match target.form with
        | .object | .array => return { whole with asElement := none, asBinding := none }
        | _ => return { whole with asElement := target.asElement, asBinding := target.asBinding }
      else return whole

def yielded (grammar : Grammar text) : Reader text (Node text) := do
  let start ← place
  expectWord "yield"
  if (← read).inParameters then note start
  let ends ← match ← current with
    | .finish => pure true
    | .mark mark => pure ([")", "]", "\x7d", ":", ",", ";"].contains mark)
    | .word word false => pure (["in", "of"].contains word)
    | _ => pure false
  if ends || (← afterNewline) then return Node.plain start .other
  let _ ← eatMark "*"
  let value ← grammar .assignment
  return Node.around start .other value

/-- An expression without commas, once it is not an arrow function with type parameters. -/
def assignmentBase (grammar : Grammar text) : Reader text (Node text) := do
  if (← read).inGenerator && (← isWord "yield") then return ← yielded grammar
  let start ← place
  let mayBeArrow ← match ← current with
    | .word word _ => pure (!reservedWords.contains word)
    | .mark "(" => pure true
    | _ => pure false
  modify fun state => { state with arrowStart := if mayBeArrow then some start else none }
  let left ← conditional grammar
  match left.form with
  | .arrow | .conditional | .binary _ | .unary | .update => return left
  | _ => assignmentRest grammar left

/-- Whether type parameters, where markup is read too, cannot be an element: a comma, a default or a
bound follows the first name. -/
def surelyTypeParameters : Reader text Bool :=
  lookahead do
    expectMark "<"
    let _ ← eatWord "const"
    let _ ← anyName
    if ← eatWord "extends" then return !(← isAnyMark ["=", ">", "/"])
    else isAnyMark [",", "="]

def genericArrow (grammar : Grammar text) : Reader text (Node text) := do
  let start ← place
  let bounds ← parameters grammar
  let arrow ← assignmentBase grammar
  unless arrow.form == .arrow do unexpected
  return Node.generic start bounds arrow

def assignment (grammar : Grammar text) : Reader text (Node text) := do
  if (← typed) && (← isMark "<") then
    let markup ← hasMarkup
    if markup then
      if let some node ← attempt (assignmentBase grammar) then return node
    let named := match ← peek with
      | .word _ _ => true
      | _ => false
    if named && (!markup || (← surelyTypeParameters)) then
      let trial := withReader (fun context => { context with colonExpected := false })
        (genericArrow grammar)
      if let some node ← attempt trial then return node
  assignmentBase grammar

def expression (grammar : Grammar text) : Reader text (Node text) := do
  let first ← grammar .assignment
  if ← isMark "," then
    loop first fun left => do
      if ← eatMark "," then return some (Node.joined .other left (← grammar .assignment))
      else return none
  else return first

/-- The form of a member or call of an object: once optional, always optional. -/
def memberForm (object : Node text) (form : Form text) : Form text :=
  let rec optional : Form text → Bool
    | .chain => true
    | .wrapped inner => optional inner
    | _ => false
  if optional object.form then .chain else form

def memberName : Reader text Unit := do
  let _ ← if ← isMark "#" then privateName else anyName
  return

/-- What is read behind `?.`. -/
def optionalRest (grammar : Grammar text) (object : Node text) : Reader text (Node text) := do
  expectMark "?."
  if ← eatMark "[" then
    let index ← withIn (grammar .expression)
    expectMark "]"
    return Node.around object.start .chain object index.templates
  else if ← isMark "(" then
    let (found, _) ← arguments grammar
    return Node.around object.start .chain object found
  else if (← typed) && (← opensArguments) then
    let types ← TypeGrammar.arguments grammar
    let (found, _) ← arguments grammar
    return Node.around object.start .chain object (found ++ types)
  else
    memberName
    return Node.around object.start .chain object

def beginsExpression : Token → Bool
  | .word word _ =>
      !(["as", "satisfies", "in", "instanceof", "extends", "implements", "else", "case", "default",
        "catch", "finally"].contains word)
  | .mark mark => ["(", "[", "\x7b", "!", "~", "++", "--", "/", "/=", "@", "#"].contains mark
  | .string _ | .number | .backquote | .broken _ => true
  | .finish => false

/-- Whether the token behind type arguments shows that they were a comparison. -/
def comparesInstead (state : State text) : Bool :=
  match state.token with
  | .mark "(" | .mark "<" | .mark ">" | .mark "+" | .mark "-" => true
  | .mark "/" | .mark "/=" => false
  | token => !state.newline && beginsExpression token

/-- An arrow function with type parameters behind the word `async`. -/
def asyncGenericArrow (grammar : Grammar text) (start : Nat) : Reader text (Node text) := do
  let bounds ← parameters grammar
  let names ← withReader (fun context => { context with inAsync := true, inGenerator := false })
    (Function.parameters grammar)
  let result ← returned? grammar
  if ← afterNewline then unexpected
  expectMark "=>"
  let (body, _) ← Function.arrowBody grammar true names.simple
  return Node.arrow start (names.templates ++ body ++ bounds) result

/-- Type arguments behind an expression, unless they turn out to be a comparison. -/
def appliedTypes (grammar : Grammar text) (noCall : Bool) : Reader text (Found text) := do
  let types ← TypeGrammar.arguments grammar
  let applied := (!noCall && (← isMark "(")) || (← current) == .backquote
  if !applied && comparesInstead (← get) then unexpected
  return types

/-- What type arguments behind an expression belong to: a call, a template, or the expression
itself. -/
def typeApplication (grammar : Grammar text) (noCall : Bool) (object : Node text)
    (types : Found text) : Reader text (Node text) := do
  if !noCall && (← isMark "(") then
    let (found, _) ← arguments grammar
    return Node.around object.start (memberForm object .call) object (found ++ types)
  else if (← current) == .backquote then
    Literal.taggedTemplate grammar object types
  else return Node.around object.start (.wrapped object.form) object types

/-- One step behind an expression: a member, call, template or assertion. -/
def subscript (grammar : Grammar text) (noCall noComputed : Bool) (object : Node text) :
    Reader text (Option (Node text)) := do
  if object.form == .arrow then return none
  if ← typed then
    if (← isMark "!") && !(← afterNewline) then
      advance
      return some (Node.around object.start (.wrapped object.form) object)
    if ← opensArguments then
      if !noCall && object.form.isName "async" then
        if let some arrow ← attempt (asyncGenericArrow grammar object.start) then return some arrow
      if let some types ← attempt (appliedTypes grammar noCall) then
        return some (← typeApplication grammar noCall object types)
  match ← current with
  | .mark "?." =>
      if noCall && (← peek) == .mark "(" then return none
      return some (← optionalRest grammar object)
  | .mark "." =>
      advance
      memberName
      return some (Node.around object.start (memberForm object .member) object)
  | .mark "[" =>
      if noComputed then return none
      advance
      let index ← withReader
        (fun context => { context with hasIn := true, colonExpected := false })
        (grammar .expression)
      expectMark "]"
      return some (Node.around object.start (memberForm object .member) object index.templates)
  | .mark "(" =>
      if noCall then return none
      let (found, _) ← arguments grammar
      return some (Node.around object.start (memberForm object .call) object found)
  | .backquote => return some (← Literal.taggedTemplate grammar object [])
  | _ => return none

def subscripts (grammar : Grammar text) (noCall noComputed : Bool) (object : Node text) :
    Reader text (Node text) :=
  loop object (subscript grammar noCall noComputed)

/-- A decorator: a name with members and calls, or an expression between parentheses. -/
def decorator (grammar : Grammar text) : Reader text (Node text) := do
  expectMark "@"
  let start ← place
  let subject ← if ← eatMark "(" then
      let inner ← withIn (grammar .expression)
      expectMark ")"
      pure (Node.around start (.paren inner.form) inner)
    else
      let word ← if (← typed) && (← isWord "this") then anyName else reference
      subscripts grammar false true (Node.plain start (.name word))
  if ← isMark "(" then
    let (found, _) ← arguments grammar
    return Node.around start .call subject found
  else return subject

/-- One piece between parentheses. Where types are read, a name may go on as a parameter with a
question mark, a type and a default. -/
def piece (grammar : Grammar text) : Reader text (Piece text) := do
  let start ← place
  modify fun state => { state with arrowStart := some start }
  let modified ← Function.modifiers
  let spread ← isMark "..."
  let named ← if spread then pure (match ← peek with | .word _ _ => true | _ => false)
    else do
      match ← current with
      | .word word _ => pure (!reservedWords.contains word)
      | _ => pure false
  let inner ← if (← typed) && named then do
      if spread then advance
      let nameStart ← place
      modify fun state => { state with arrowStart := some nameStart }
      let yields := (← read).inGenerator && (← isWord "yield")
      let node ← if yields then yielded grammar else binary grammar
      if spread || node.form == .arrow then pure node else assignmentRest grammar node
    else do
      let _ ← eatMark "..."
      grammar .assignment
  let types ← typed
  let next ← peek
  let optional := types && (← isMark "?") &&
    [Token.mark ",", .mark "=", .mark ":", .mark ")", .finish].contains next
  let inner ← if optional then do
      match inner.form with
      | .name _ => pure ()
      | _ => throw inner.start
      advance
      pure inner
    else if types && !spread && (← isMark "?") && inner.form != .arrow then do
      advance
      branches grammar inner
    else pure inner
  if modified then note start
  if optional || (types && (← isMark ":")) then
    noteAny inner.asBinding
    let type ← annotation? grammar
    let default ← Binding.default? grammar
    return { node := { inner with templates := inner.templates ++ type ++ default }
             spread, onlyParameter := true }
  else return { node := inner, spread }

def pieces (grammar : Grammar text) : Reader text (Pieces text) := do
  expectMark "("
  let inner := fun (context : Context) => { context with hasIn := true, colonExpected := false }
  let all ← withReader inner do
    loop ({} : Pieces text) fun all => do
      if ← isMark ")" then return none
      let next ← piece grammar
      let mut comma := none
      unless ← isMark ")" do
        let offset ← place
        expectMark ","
        if ← isMark ")" then comma := some offset
      return some { pieces := all.pieces ++ [next], trailingComma := comma }
  expectMark ")"
  return all

/-- Rereads pieces between parentheses as the parameters of an arrow function. Tells whether they
are plain names. -/
def pieceParameters (all : Pieces text) : Reader text (Found text × Bool) := do
  let rec go : List (Piece text) → Reader text Unit
    | [] => return
    | piece :: rest => do
        if piece.spread then
          if !rest.isEmpty then note piece.node.start
          else
            noteAny all.trailingComma
            if piece.node.form == .assignment then note piece.node.start
        unless piece.onlyParameter do noteAny piece.node.asBinding
        go rest
  go all.pieces
  let simple := all.pieces.all fun piece =>
    !piece.spread && match piece.node.form with
      | .name _ => true
      | _ => false
  return (all.pieces.flatMap (·.node.templates), simple)

/-- Pieces between parentheses that are no parameters: a single expression, or the arguments of a
call to a function named `async`. -/
def pieceExpression (start : Nat) (async : Bool) (all : Pieces text) : Reader text (Node text) := do
  for piece in all.pieces do
    if piece.onlyParameter then throw piece.node.start
  let templates := all.pieces.flatMap (·.node.templates)
  for piece in all.pieces do
    noteAny piece.node.pending
  if async then return Node.plain start .call templates
  match all.pieces with
  | [] => throw start
  | first :: rest =>
      for piece in all.pieces do
        if piece.spread then throw piece.node.start
      let form := if rest.isEmpty then first.node.form else .other
      return Node.plain start (.paren form) templates

def parenthesized (grammar : Grammar text) (start : Nat) (mayBeArrow async : Bool) :
    Reader text (Node text) := do
  let all ← pieces grammar
  let onlyParameters := all.pieces.any (·.onlyParameter)
  let resultFollows := (← typed) && (← isMark ":")
  let arrow : Reader text (Node text) := do
    let result ← returned? grammar
    if (← afterNewline) || !mayBeArrow then throw start
    expectMark "=>"
    let (names, simple) ← pieceParameters all
    let (body, _) ← Function.arrowBody grammar async simple
    unless ← isMark ":" do unexpected
    return Node.arrow start (names ++ body) result
  if resultFollows && (← read).colonExpected then
    if let some node ← attempt arrow then return node
  let result ← if resultFollows && !(← read).colonExpected then
      attempt do
        let result ← returned? grammar
        unless ← isMark "=>" do unexpected
        return result
    else pure none
  if onlyParameters || result.isSome || (← isMark "=>") then
    if (← isMark "=>") && ((← afterNewline) || !mayBeArrow) then throw start
    expectMark "=>"
    let (names, simple) ← pieceParameters all
    let (body, isBlock) ← Function.arrowBody grammar async simple
    let arrow := Node.arrow start (names ++ body) (result.getD [])
    if isBlock && (← Operator.isBinaryMark) then
      note (← place)
      binaryRest grammar (← read).budget { arrow with form := .other } 0
    else return arrow
  else pieceExpression start async all

/-- An arrow function of one bare parameter, from its arrow on. -/
def bareArrow (grammar : Grammar text) (start : Nat) (word : Word text) (async : Bool) :
    Reader text (Node text) := do
  if unassignable.contains word.name then note start
  expectMark "=>"
  let (body, _) ← Function.arrowBody grammar async true
  return Node.plain start .arrow body

def named (grammar : Grammar text) (mayBeArrow : Bool) : Reader text (Node text) := do
  let start ← place
  let plainAsync ← isWord "async"
  let word ← reference
  let newline ← afterNewline
  if mayBeArrow && plainAsync && !newline then
    if ← isMark "(" then return ← parenthesized grammar start true true
    match ← current with
    | .word next _ =>
        let isPlain := !reservedWords.contains next && next != "of" && next != "as" &&
          next != "satisfies"
        if isPlain || (next != "this" && (← peek) == .mark "=>") then
          let parameter ← bindingName
          return ← bareArrow grammar start parameter true
    | _ => pure ()
  if mayBeArrow && !newline && (← isMark "=>") then bareArrow grammar start word false
  else return Node.plain start (.name word)

/-- An expression that is not composed by operators, members or calls. -/
def primary (grammar : Grammar text) : Reader text (Node text) := do
  let start ← place
  let mayBeArrow := (← get).arrowStart == some start
  match ← current with
  | .number | .string _ => advance; return Node.plain start .literal
  | .backquote => Literal.template grammar
  | .mark "[" => Literal.array grammar
  | .mark "\x7b" => Literal.object grammar
  | .mark "(" => parenthesized grammar start mayBeArrow false
  | .mark "/" | .mark "/=" => Literal.regex
  | .mark "@" =>
      let marked ← Function.decorators grammar
      expectWord "class"
      return Node.plain start .classLike (← Class.tail grammar marked false)
  | .mark "#" =>
      advance
      let _ ← anyName
      return Node.plain start .privateName
  | .word "this" false => advance; return Node.plain start .other
  | .word "null" false | .word "true" false | .word "false" false =>
      advance
      return Node.plain start .literal
  | .word "function" false =>
      advance
      return Node.plain start .function (← Function.named grammar false false)
  | .word "class" false =>
      advance
      return Node.plain start .classLike (← Class.tail grammar [] false)
  | .word word _ =>
      let next ← peekState
      if word == "async" && next.token == .word "function" false && !next.newline then
        advance
        advance
        return Node.plain start .function (← Function.named grammar true false)
      named grammar mayBeArrow
  | _ => unexpected

/-- `import` as an expression: a call, or a property of the module. -/
def importExpression (grammar : Grammar text) (noCall : Bool) : Reader text (Node text) := do
  let start ← place
  expectWord "import"
  if ← eatMark "." then
    if ← eatWord "meta" then return ← subscripts grammar noCall false (Node.plain start .other)
    unless ← isAnyWord ["source", "defer"] do unexpected
    advance
  if noCall then unexpected
  unless ← isMark "(" do unexpected
  let (found, _) ← arguments grammar
  subscripts grammar noCall false (Node.plain start .call found)

/-- `super` with the member or call it must be followed by. -/
def superExpression (grammar : Grammar text) (noCall : Bool) : Reader text (Node text) := do
  let start ← place
  expectWord "super"
  unless (← typed) || (← read).hasSuper do note start
  let follows ← isAnyMark (if noCall then [".", "["] else [".", "[", "("])
  unless follows do unexpected
  subscripts grammar noCall false (Node.plain start .other)

/-- Type arguments of a construction, if an argument list follows them. -/
def constructionTypes (grammar : Grammar text) : Reader text (Found text) := do
  if (← typed) && (← opensArguments) then
    let types ← attempt do
      let types ← TypeGrammar.arguments grammar
      unless ← isMark "(" do unexpected
      return types
    return types.getD []
  else return []

def member (grammar : Grammar text) (behindNew : Bool) : Reader text (Node text) := do
  let start ← place
  if ← eatWord "new" then
    if ← eatMark "." then
      expectWord "target"
      let context ← read
      unless context.hasTarget || context.inParameters || context.inClass do note start
      return ← subscripts grammar true false (Node.plain start .other)
    let callee ← grammar (.member true)
    if callee.form == .arrow then return callee
    if callee.form == .chain then throw start
    let types ← constructionTypes grammar
    if !behindNew || (← isMark "(") then
      if ← isMark "(" then
        let (found, _) ← arguments grammar
        subscripts grammar true false
          (Node.around start (.construction true) callee (found ++ types))
      else return Node.around start (.construction false) callee
    else return Node.around start (.construction false) callee
  else if ← isWord "super" then superExpression grammar true
  else if ← isWord "import" then importExpression grammar true
  else
    let object ← primary grammar
    if object.form == .arrow then return object
    subscripts grammar true false object

def leftHandSide (grammar : Grammar text) : Reader text (Node text) := do
  if ← isWord "super" then superExpression grammar false
  else if ← isWord "import" then importExpression grammar false
  else
    let callee ← grammar (.member false)
    match callee.form with
    | .arrow | .construction false => return callee
    | _ => subscripts grammar false false callee

/-- Markup where an expression is expected. Elements do not stand side by side. -/
def markup (grammar : Grammar text) : Reader text (Node text) := do
  let start ← place
  let found ← foundIn grammar .markup
  advance
  if ← isMark "<" then note (← place)
  return Node.plain start .other found

def awaited (grammar : Grammar text) : Reader text (Node text) := do
  let start ← place
  unless ← isWord "await" do unexpected
  let word ← anyName
  if ← isMark "*" then unexpected
  let context ← read
  let ends ← match ← current with
    | .mark mark => pure ([")", "]", ":", ",", "=", "=>", "."].contains mark)
    | _ => pure false
  if !context.inAsync && (ends || (← atStatementEnd)) then
    note start
    return Node.plain start (.name word)
  if context.inFunction && !context.inAsync then note start
  if context.inParameters && !context.inFunction then note start
  let value ← grammar .unary
  return Node.around start .awaited value

/-- What an operator stands in front of. It is noted if it cannot be read. -/
def operand (grammar : Grammar text) : Reader text (Node text) := do
  let start ← place
  try grammar .unary
  catch fault =>
    note fault
    pure (Node.plain start .other)

/-- An expression with the operators in front of it, or the increment behind it. -/
def unary (grammar : Grammar text) : Reader text (Node text) := do
  let start ← place
  let markupHere ← hasMarkup
  if (← isMark "<") && (← typed) && !markupHere then
    advance
    if ← eatWord "const" then
      expectMark ">"
      let value ← grammar .unary
      return Node.around start .other value
    let type ← freeType grammar
    expectMark ">"
    let value ← grammar .unary
    return Node.around start (.wrapped value.form) value type
  else if (← isMark "<") && markupHere then markup grammar
  else if ← isAnyMark ["++", "--"] then
    advance
    let value ← grammar .unary
    Operator.checkTarget value
    return Node.around start .update value
  else if (← isAnyWord Operator.unaryWords) || (← isAnyMark Operator.unaryMarks) then
    advance
    let value ← operand grammar
    return Node.around start .unary value
  else if ← isWord "await" then awaited grammar
  else
    let value ← leftHandSide grammar
    if value.form == .arrow || (← afterNewline) then return value
    if ← isAnyMark ["++", "--"] then
      Operator.checkTarget value
      advance
      return Node.around start .update value
    else return value

end FieldUsage.Host.Expression
