import FieldUsage.Json.Parser
import FieldUsage.Schema.Builder

/-!
Schemas as the result of an introspection query. The result is the whole response or only the data
in it. Types refer to other types by chains of wrappers that end in a name; a field whose chain
ends in nothing is dropped.
-/

namespace FieldUsage.Schema.Introspection

open GraphQL (OperationKind TypeKind)

/-- What an entry or a reference describes: a type, or a wrapper around one. -/
inductive Kind where
  | type (kind : TypeKind)
  | list
  | nonNull
deriving DecidableEq, Repr

def Kind.names : List (String × Kind) :=
  [("SCALAR", .type .scalar), ("OBJECT", .type .object), ("INTERFACE", .type .interface),
   ("UNION", .type .union), ("ENUM", .type .enum), ("INPUT_OBJECT", .type .inputObject),
   ("LIST", .list), ("NON_NULL", .nonNull)]

/-- Reads a kind: its name, or an object with its name as the only key and nothing as the value. -/
def Kind.decode? : Json → Option Kind
  | .string name => names.lookup name
  | .object [(name, .null)] => names.lookup name
  | _ => none

inductive Reference where
  | plain (kind : Kind) (name : Option String)
  | around (kind : Kind) (name : Option String) (inner : Reference)
deriving Repr

/-- The type that a reference leads to, unless a wrapper has nothing inside or the end has no name.
The wrappers are read from the inside: what is inside a list does not count. -/
def Reference.type? : Reference → Option TypeRef
  | .around .nonNull _ inner => inner.type?.map ({ · with isNonNull := true })
  | .around .list _ inner => inner.type?.map ({ · with isList := true, isNonNull := false })
  | .around (.type _) name _ | .plain (.type _) name => name.map ({ name := · })
  | .plain _ _ => none

/-- Reads a reference. The first argument bounds the length of the chain. -/
def Reference.decodeWithin? : (depth : Nat) → Json → Option Reference
  | 0, _ => none
  | depth + 1, value =>
      match value.record? ["kind", "name", "ofType"] 3 with
      | some [some kind, name, inner] => do
          let kind ← Kind.decode? kind
          let name ← Json.optional? Json.text? name
          match ← Json.optional? (decodeWithin? depth) inner with
          | some inner => return .around kind name inner
          | none => return .plain kind name
      | _ => none

/-- Reads a reference. Each one in the chain is a value inside the one before. -/
def Reference.decode? (value : Json) : Option Reference :=
  decodeWithin? value.depth value

structure FieldEntry where
  name : String
  type : Reference
deriving Repr

def FieldEntry.decode? (value : Json) : Option FieldEntry :=
  match value.record? ["name", "type"] 2 with
  | some [some name, some type] => return { name := ← name.text?, type := ← Reference.decode? type }
  | _ => none

structure TypeEntry where
  kind : Kind
  name : String
  fields : List FieldEntry := []
  inputFields : List FieldEntry := []
deriving Repr

def TypeEntry.decode? (value : Json) : Option TypeEntry :=
  match value.record? ["kind", "name", "fields", "inputFields"] 2 with
  | some [some kind, some name, fields, inputFields] => do
      let kind ← Kind.decode? kind
      let name ← name.text?
      let fields ← Json.optional? (Json.list? FieldEntry.decode?) fields
      let inputFields ← Json.optional? (Json.list? FieldEntry.decode?) inputFields
      return { kind, name, fields := fields.getD [], inputFields := inputFields.getD [] }
  | _ => none

/-- The steps that declare the type of an entry and its fields. Wrappers are no types. -/
def TypeEntry.steps (entry : TypeEntry) : List Step :=
  match entry.kind with
  | .type kind =>
      .define entry.name kind ::
        (entry.fields ++ entry.inputFields).filterMap fun field =>
          field.type.type?.map fun type => .field entry.name { name := field.name, type }
  | _ => []

structure Result where
  roots : List (OperationKind × String)
  types : List TypeEntry
deriving Repr

def rootName? (value : Json) : Option String :=
  match value.record? ["name"] 1 with
  | some [some name] => name.text?
  | _ => none

def Result.ofSchema? (value : Json) : Option Result :=
  match value.record? ["queryType", "mutationType", "subscriptionType", "types"] 4 with
  | some [query, mutation, subscription, some types] => do
      let query ← Json.optional? rootName? query
      let mutation ← Json.optional? rootName? mutation
      let subscription ← Json.optional? rootName? subscription
      let types ← Json.list? TypeEntry.decode? types
      let named (kind : OperationKind) (name : Option String) := (name.map (kind, ·)).toList
      return {
        roots := named .query query ++ named .mutation mutation ++ named .subscription subscription
        types }
  | _ => none

def Result.ofData? (value : Json) : Option Result :=
  match value.record? ["__schema"] 1 with
  | some [some schema] => ofSchema? schema
  | _ => none

def Result.ofResponse? : Json → Option Result
  | .object members =>
      match Json.valuesOf ["data"] members with
      | [data] => ofData? data
      | _ => none
  | _ => none

/-- Reads a result: a whole response if it can be one, else the data alone. -/
def Result.decode? (value : Json) : Option Result :=
  (ofResponse? value).or (ofData? value)

/-- The steps that declare everything in a result. -/
def Result.steps (result : Result) : List Step :=
  result.types.flatMap TypeEntry.steps ++
    .roots :: result.roots.map fun (operation, name) => .root operation name

end FieldUsage.Schema.Introspection
