import FieldUsage.Host.Reader

/-!
The grammar of host text is a set of goals that refer to each other. Each goal is read by a function
that is handed a grammar for the goals inside it; the knot is tied in one place, by recursion on a
depth no text can reach.

A construct that has been read is summed up by a node. It keeps the templates in the order of the
walk, and of its form just what later decisions need: whether it can be assigned to, and what is
wrong with it if an expression turns out to be a pattern.
-/

namespace FieldUsage.Host

/-- The forms of expressions that the grammar tells apart once they are read. -/
inductive Form (text : List Char) where
  | name (word : Word text)
  | literal
  | template
  | object
  | array
  | function
  | classLike
  | arrow
  | member
  | call
  /-- A member or call below `?.`. -/
  | chain
  /-- A construction, with or without arguments. -/
  | construction (applied : Bool)
  | paren (inner : Form text)
  /-- A cast written after the expression. -/
  | cast (inner : Form text)
  /-- Another wrapper of types around an expression. -/
  | wrapped (inner : Form text)
  | unary
  /-- An increment or decrement. -/
  | update
  | awaited
  | binary (operator : String)
  | conditional
  | assignment
  | privateName
  | other
deriving DecidableEq, Repr

/-- Names that cannot be bound or assigned to. -/
def unassignable : List String := ["eval", "arguments"]

namespace Form

variable {text : List Char}

def isName (name : String) : Form text → Bool
  | .name word => word.name == name
  | _ => false

/-- Whether an expression of this form can be assigned to as it is. -/
def assignable : Form text → Bool
  | .name word => !unassignable.contains word.name
  | .member => true
  | .paren inner | .cast inner | .wrapped inner => inner.assignable
  | _ => false

/-- Whether an expression of this form can stand to the left of an assignment at all. -/
def isTarget : Form text → Bool
  | .name _ | .member | .chain | .paren _ | .cast _ | .wrapped _ | .object | .array => true
  | _ => false

end Form

/-- What reading a construct gave. -/
structure Node (text : List Char) where
  /-- The byte offset of its beginning. -/
  start : Nat
  form : Form text := .other
  templates : Found text := []
  /-- A shorthand with a default in an object literal, which only a pattern may have. -/
  pending : Option Nat := none
  /-- What is wrong with it as a part of an assignment pattern. -/
  asElement : Option Nat := none
  /-- What is wrong with it as a part of a binding pattern. -/
  asBinding : Option Nat := none
  /-- How many of its templates, the last ones, stand in the type that an arrow function gives
  back. -/
  inResult : Nat := 0

namespace Node

variable {text : List Char}

/-- What is wrong with a plain expression as a part of an assignment pattern. -/
def elementFault (start : Nat) (form : Form text) : Option Nat :=
  match form with
  | .name _ | .member | .call | .construction _ | .literal | .function | .classLike | .paren _
  | .template | .cast _ => if form.assignable then none else some start
  | _ => some start

def nameFault (start : Nat) (name : String) : Option Nat :=
  if unassignable.contains name then some start else none

def bindingFault (start : Nat) : Form text → Option Nat
  | .name word => nameFault start word.name
  | _ => some start

/-- An expression that is no pattern unless its form says so. -/
def plain (start : Nat) (form : Form text) (templates : Found text := []) : Node text :=
  { start, form, templates
    asElement := elementFault start form
    asBinding := bindingFault start form }

def around (start : Nat) (form : Form text) (inner : Node text) (more : Found text := []) :
    Node text :=
  plain start form (inner.templates ++ more)

/-- An arrow function, with the templates before the type that it gives back and those in it. -/
def arrow (start : Nat) (found result : Found text) : Node text :=
  { plain start .arrow (found ++ result) with inResult := result.length }

/-- An arrow function behind type parameters, which the walk visits before the type that the function
gives back. -/
def generic (start : Nat) (bounds : Found text) (arrow : Node text) : Node text :=
  let count := arrow.templates.length - arrow.inResult
  .arrow start (arrow.templates.take count ++ bounds) (arrow.templates.drop count)

def joined (form : Form text) (left right : Node text) : Node text :=
  plain left.start form (left.templates ++ right.templates)

end Node

/-- The goals of the grammar that are reached from inside other goals. -/
inductive Goal where
  /-- An item of a module or namespace. -/
  | item
  /-- A statement; declarations may be refused. -/
  | statement (declarations : Bool)
  /-- An expression with commas. -/
  | expression
  /-- An expression without commas. -/
  | assignment
  | unary
  /-- A construction or member expression, possibly behind another `new`. -/
  | member (behindNew : Bool)
  /-- What a class may extend. -/
  | leftHandSide
  | decorator
  | markup
  /-- A binding pattern or a bound name. -/
  | binding
  | type
  /-- A type that is not conditional. -/
  | plainType
  /-- A type with the operators that precede it. -/
  | prefixedType
deriving DecidableEq, Repr

/-- A way to read every goal. -/
abbrev Grammar (text : List Char) := Goal → Reader text (Node text)

namespace Reader

variable {text : List Char} {α : Type}

def withIn (reader : Reader text α) : Reader text α :=
  withReader (fun context => { context with hasIn := true }) reader

def withoutIn (reader : Reader text α) : Reader text α :=
  withReader (fun context => { context with hasIn := false }) reader

/-- Words that module code keeps from being identifiers, though they can be read as such. -/
def strictWords : List String :=
  ["implements", "interface", "let", "package", "private", "protected", "public", "static", "yield",
   "await"]

/-- Whether a word can be an identifier wherever one is read. -/
def isFreeWord (word : String) : Bool :=
  !reservedWords.contains word && !strictWords.contains word

/-- Passes over an identifier. Reserved words end the reading, and so does `await`; other words
that only strict code reserves are noted. `this` is a name where types are read. Any word is an
identifier if it is written with an escape. -/
def identifier : Reader text (Word text) := do
  let state ← get
  match h : state.token with
  | .word name escaped =>
      let offset ← place
      if !isFreeWord name && !escaped then
        let isThis := name == "this" && (← typed)
        let isAwait := name == "await"
        if reservedWords.contains name && name != "enum" && !isThis then unexpected
        if isAwait && !(← read).inDeclare then unexpected
        unless isThis || isAwait do note offset
      if name == "arguments" && (← read).inField then note offset
      advance
      return { name, spelled := state.spelled h }
  | _ => unexpected

/-- Passes over a name that refers to something. Words that only strict code reserves end the
reading, except `let`. -/
def reference : Reader text (Word text) := do
  match (← get).token with
  | .word name escaped =>
      if isFreeWord name || escaped || name == "let" then identifier else unexpected
  | _ => unexpected

/-- Passes over the name that a binding introduces. -/
def bindingName : Reader text (Word text) := do
  let offset ← place
  let word ← identifier
  if unassignable.contains word.name then note offset
  return word

def anyName : Reader text (Word text) := do
  let state ← get
  match h : state.token with
  | .word name _ => advance; return { name, spelled := state.spelled h }
  | _ => unexpected

/-- Passes over a private name: the word stands right behind its mark. -/
def privateName : Reader text (Word text) := do
  let start ← place
  let after := (← get).tokenEnd
  expectMark "#"
  if (← get).cursor.offset != after.offset then throw start
  anyName

end Reader

end FieldUsage.Host
