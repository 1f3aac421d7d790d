import FieldUsage.GraphQL.Document
import FieldUsage.GraphQL.Token

/-!
Reading documents. A text either is a document or is not; what is wrong with it is not told.
Selections, list types and the values inside lists and objects nest up to a common limit, and the
recursion of the reader is on what is left of it.
-/

namespace FieldUsage.GraphQL.Parser

abbrev Reader := StateT (List Lexeme) Option

variable {α : Type}

def nestingLimit : Nat := 500

def peek : Reader (Option Token) :=
  return (← get).head?.map (·.token)

/-- The token after the next one, unless a comma stands before it. -/
def peekSecond : Reader (Option Token) := do
  match ← get with
  | _ :: second :: _ => return if second.afterComma then none else some second.token
  | _ => return none

def skip : Reader Unit :=
  modify List.tail

def isMark (char : Char) : Reader Bool :=
  return (← peek) == some (.mark char)

def eat (char : Char) : Reader Bool := do
  if ← isMark char then skip; return true
  else return false

def expect (char : Char) : Reader Unit := do
  unless ← eat char do failure

def expectWord (word : String) : Reader Unit := do
  if (← peek) == some (.name word) then skip else failure

def name : Reader String := do
  match ← peek with
  | some (.name text) => skip; return text
  | _ => failure

def isName : Reader Bool := do
  match ← peek with
  | some (.name _) => return true
  | _ => return false

/-- Reads items while a condition holds. The first argument bounds their number. -/
def whileNext (condition : Reader Bool) (item : Reader α) : Nat → Reader (List α)
  | 0 => failure
  | bound + 1 => do
      if ← condition then
        let first ← item
        return first :: (← whileNext condition item bound)
      else return []

/-- Reads items while a condition holds. Every item takes a token, so their number is bounded. -/
def many (condition : Reader Bool) (item : Reader α) : Reader (List α) := do
  whileNext condition item ((← get).length + 1)

/-- Reads one or more items while a condition holds, up to a closing mark. -/
def someUntil (close : Char) (condition : Reader Bool) (item : Reader α) : Reader (List α) := do
  let items ← many condition item
  if items.isEmpty then failure
  expect close
  return items

/-- Names with a mark between them; the mark may also come first. -/
def separatedNames (separator : Char) : Reader (List String) := do
  let _ ← eat separator
  let first ← name
  let more ← many (isMark separator) (do skip; name)
  return first :: more

/-- A value, given how to read the values inside it. Variables are refused where it has to be
constant. -/
def valueWith (inner : Reader Unit) (constant : Bool) : Reader Unit := do
  match ← peek with
  | some .number | some .string | some (.name _) => skip
  | some (.mark '$') =>
      if constant then failure
      skip
      let _ ← name
  | some (.mark '[') =>
      skip
      let _ ← many (return !(← isMark ']')) inner
      expect ']'
  | some (.mark '{') =>
      skip
      let _ ← many isName (do let _ ← name; if ← eat ':' then inner)
      expect '}'
  | _ => failure

/-- A value that nests no deeper than a limit. -/
def value : Nat → Bool → Reader Unit
  | 0, constant => valueWith failure constant
  | depth + 1, constant => valueWith (value depth constant) constant

def argument (depth : Nat) (constant : Bool) : Reader Unit := do
  let _ ← name
  if ← eat ':' then value depth constant

/-- Arguments between parentheses, if there are any. -/
def arguments? (depth : Nat) (constant : Bool) : Reader Unit := do
  if ← eat '(' then
    let _ ← someUntil ')' isName (argument depth constant)

/-- Directives. Tells whether there are any. -/
def directives (depth : Nat) (constant : Bool) : Reader Bool := do
  let found ← many (isMark '@') do
    skip
    let _ ← name
    arguments? depth constant
  return !found.isEmpty

/-- A type, given how to read the type inside a list. -/
def typeWith (item : Reader TypeExpr) : Reader TypeExpr := do
  let inner ← match ← peek with
    | some (.name text) => do skip; pure (TypeExpr.named text)
    | some (.mark '[') => do
        skip
        let item ← item
        expect ']'
        pure (.list item)
    | _ => failure
  if ← eat '!' then return .nonNull inner else return inner

/-- A type that nests no deeper than a limit. -/
def typeExpr : Nat → Reader TypeExpr
  | 0 => typeWith failure
  | depth + 1 => typeWith (typeExpr depth)

def typeCondition : Reader String := do
  expectWord "on"
  name

def fragmentName : Reader String := do
  let name ← name
  if name = "on" then failure
  return name

def isSelection : Reader Bool := do
  match ← peek with
  | some (.name _) | some .spread => return true
  | _ => return false

/-- A selection, given how to read the selections inside it and the depth left for values. -/
def selection (depth : Nat) (selections : Reader (List Selection)) : Reader Selection := do
  match ← peek with
  | some .spread =>
      match ← peekSecond with
      | some (.name "on") =>
          skip
          let condition ← typeCondition
          let _ ← directives depth false
          return .inline (some condition) (← selections)
      | some (.name _) =>
          skip
          let name ← fragmentName
          let _ ← directives depth false
          return .spread name
      | some (.mark _) =>
          skip
          let _ ← directives depth false
          return .inline none (← selections)
      | _ => failure
  | _ =>
      let isAlias := (← peekSecond) == some (.mark ':')
      if isAlias then
        skip
        skip
      let name ← name
      arguments? depth false
      let _ ← directives depth false
      return .field name (← if ← isMark '{' then selections else pure [])

def selectionSet : Nat → Reader (List Selection)
  | 0 => failure
  | depth + 1 => do
      expect '{'
      someUntil '}' isSelection (selection depth (selectionSet depth))

def variableDef : Reader Unit := do
  expect '$'
  let _ ← name
  expect ':'
  let _ ← typeExpr nestingLimit
  if ← eat '=' then value nestingLimit true
  let _ ← directives nestingLimit true

def operation : Reader Definition := do
  if ← isMark '{' then return .operation .query none (← selectionSet nestingLimit)
  match OperationKind.ofKeyword? (← name) with
  | none => failure
  | some kind =>
      let title ← if ← isName then some <$> name else pure none
      if ← eat '(' then
        let _ ← someUntil ')' (isMark '$') variableDef
      let _ ← directives nestingLimit false
      return .operation kind title (← selectionSet nestingLimit)

/-- A fragment, whatever token stands in the place of its keyword. -/
def fragment : Reader Definition := do
  skip
  let name ← fragmentName
  let condition ← typeCondition
  let _ ← directives nestingLimit false
  return .fragment name condition (← selectionSet nestingLimit)

def description? : Reader Unit := do
  if (← peek) == some .string then skip

def isDescribed : Reader Bool := do
  match ← peek with
  | some (.name _) | some .string => return true
  | _ => return false

def inputValue : Reader FieldDef := do
  description?
  let name ← name
  expect ':'
  let type ← typeExpr nestingLimit
  if ← eat '=' then value nestingLimit true
  let _ ← directives nestingLimit true
  return { name, type }

def fieldDef : Reader FieldDef := do
  description?
  let name ← name
  if ← eat '(' then
    let _ ← someUntil ')' isDescribed inputValue
  expect ':'
  let type ← typeExpr nestingLimit
  let _ ← directives nestingLimit true
  return { name, type }

def enumValue : Reader Unit := do
  description?
  let name ← name
  if ["true", "false", "null"].contains name then failure
  let _ ← directives nestingLimit true

/-- The interfaces of a type, if any are listed. Tells whether they are. -/
def implements? : Reader Bool := do
  if (← peek) == some (.name "implements") then
    skip
    let _ ← separatedNames '&'
    return true
  else return false

def block? (condition : Reader Bool) (item : Reader α) : Reader (Option (List α)) := do
  if ← eat '{' then some <$> someUntil '}' condition item else return none

/-- A type definition or extension after its keywords. An extension has to add something. -/
def typeDef (isExtension : Bool) (kind : TypeKind) : Reader Definition := do
  let name ← name
  let interfaces ← match kind with
    | .object | .interface => implements?
    | _ => pure false
  let marked ← directives nestingLimit true
  let (fields, body) ← match kind with
    | .object | .interface => do
        let fields ← block? isDescribed fieldDef
        pure (fields.getD [], fields.isSome)
    | .inputObject => do
        let fields ← block? isDescribed inputValue
        pure (fields.getD [], fields.isSome)
    | .enum => do
        let values ← block? isDescribed enumValue
        pure ([], values.isSome)
    | .union => do
        if ← eat '=' then
          let _ ← separatedNames '|'
          pure ([], true)
        else pure ([], false)
    | .scalar => pure ([], false)
  if isExtension && !(interfaces || marked || body) then failure
  return .type isExtension kind name fields

/-- A root type. Its name may be missing, and then it declares nothing. -/
def rootType : Reader (Option (OperationKind × String)) := do
  match OperationKind.ofKeyword? (← name) with
  | none => failure
  | some kind =>
      expect ':'
      if ← isName then return some (kind, ← name) else return none

/-- A schema definition or extension after its keywords. -/
def schemaDef (isExtension : Bool) : Reader Definition := do
  let marked ← directives nestingLimit true
  let roots ← block? isName rootType
  if isExtension && !(marked || roots.isSome) then failure
  return .schema isExtension ((roots.getD []).filterMap id)

def directiveLocations : List String :=
  ["QUERY", "MUTATION", "SUBSCRIPTION", "FIELD", "FRAGMENT_DEFINITION", "FRAGMENT_SPREAD",
   "INLINE_FRAGMENT", "VARIABLE_DEFINITION", "SCHEMA", "SCALAR", "OBJECT", "FIELD_DEFINITION",
   "ARGUMENT_DEFINITION", "INTERFACE", "UNION", "ENUM", "ENUM_VALUE", "INPUT_OBJECT",
   "INPUT_FIELD_DEFINITION"]

def directiveDef : Reader Definition := do
  expect '@'
  let title ← name
  if ← eat '(' then
    let _ ← someUntil ')' isDescribed inputValue
  if (← peek) == some (.name "repeatable") then skip
  expectWord "on"
  let locations ← separatedNames '|'
  unless locations.all directiveLocations.contains do failure
  return .directive title

def typeKeyword? : String → Option TypeKind
  | "scalar" => some .scalar
  | "type" => some .object
  | "interface" => some .interface
  | "union" => some .union
  | "enum" => some .enum
  | "input" => some .inputObject
  | _ => none

/-- A definition of a type, the schema or a directive, by its keyword. -/
def systemDef (isExtension : Bool) (word : String) : Reader Definition := do
  skip
  if word = "schema" then schemaDef isExtension
  else if word = "directive" && !isExtension then directiveDef
  else
    match typeKeyword? word with
    | some kind => typeDef isExtension kind
    | none => failure

/-- A definition. After a description the keyword is the very next token; a description of a
fragment takes the place of its keyword. -/
def definition : Reader Definition := do
  match ← peek with
  | some (.mark '{') => operation
  | some .string =>
      match ← peekSecond with
      | some (.name "fragment") => fragment
      | some (.name word) => skip; systemDef false word
      | _ => failure
  | some (.name "fragment") => fragment
  | some (.name "extend") =>
      match ← peekSecond with
      | some (.name word) => skip; systemDef true word
      | _ => failure
  | some (.name word) =>
      if (OperationKind.ofKeyword? word).isSome then operation else systemDef false word
  | _ => failure

/-- A document: one or more definitions up to the end. -/
def document : Reader Document := do
  let found ← many (return !(← get).isEmpty) definition
  if found.isEmpty then failure
  return found

end FieldUsage.GraphQL.Parser

namespace FieldUsage.GraphQL

/-- The document a text is; none if it is none. -/
def Document.parse? (text : List Char) : Option Document := do
  let tokens ← Token.tokens text
  let (document, _) ← Parser.document.run tokens
  return document

end FieldUsage.GraphQL
