/-!
GraphQL documents: operations and fragments, and the definitions of types. Of everything a document
can say, this keeps what the search for field usages needs. Aliases, arguments, directives and
descriptions are read and dropped.
-/

namespace FieldUsage.GraphQL

inductive OperationKind where
  | query
  | mutation
  | subscription
deriving DecidableEq, Repr

namespace OperationKind

/-- All kinds, in the order in which schemas list them. -/
def all : List OperationKind := [.query, .mutation, .subscription]

def keyword : OperationKind → String
  | .query => "query"
  | .mutation => "mutation"
  | .subscription => "subscription"

def ofKeyword? (word : String) : Option OperationKind :=
  all.find? fun kind => kind.keyword = word

/-- The name of the type at which operations of a kind start, where a schema does not say. -/
def defaultRoot : OperationKind → String
  | .query => "Query"
  | .mutation => "Mutation"
  | .subscription => "Subscription"

end OperationKind

/-- A selection of an operation or fragment. A field without selections of its own has an empty
list, since a written list is never empty. -/
inductive Selection where
  | field (name : String) (selections : List Selection)
  | inline (condition : Option String) (selections : List Selection)
  | spread (name : String)
deriving Repr

inductive TypeExpr where
  | named (name : String)
  | list (item : TypeExpr)
  | nonNull (inner : TypeExpr)
deriving DecidableEq, Repr

namespace TypeExpr

def baseName : TypeExpr → String
  | .named name => name
  | .list item => item.baseName
  | .nonNull inner => inner.baseName

def isNonNull : TypeExpr → Bool
  | .nonNull _ => true
  | _ => false

/-- Whether the type, or what its outermost wrapper holds, is a list. -/
def isList : TypeExpr → Bool
  | .list _ => true
  | .nonNull (.list _) => true
  | _ => false

end TypeExpr

structure FieldDef where
  name : String
  type : TypeExpr
deriving DecidableEq, Repr

inductive TypeKind where
  | scalar
  | object
  | interface
  | union
  | enum
  | inputObject
deriving DecidableEq, Repr

/-- Object, interface and union types have selections. -/
def TypeKind.isComposite : TypeKind → Bool
  | .object | .interface | .union => true
  | _ => false

inductive Definition where
  | operation (kind : OperationKind) (name : Option String) (selections : List Selection)
  | fragment (name : String) (condition : String) (selections : List Selection)
  /-- A type definition or extension. Only objects, interfaces and inputs have fields. -/
  | type (extends_ : Bool) (kind : TypeKind) (name : String) (fields : List FieldDef)
  /-- A schema definition or extension, with the root types it names. -/
  | schema (extends_ : Bool) (roots : List (OperationKind × String))
  | directive (name : String)
deriving Repr

abbrev Document := List Definition

namespace Document

/-- The name of the first definition, if it is a named operation or a fragment. -/
def firstName (document : Document) : Option String :=
  match document.head? with
  | some (.operation _ name _) => name
  | some (.fragment name _ _) => some name
  | _ => none

end Document

end FieldUsage.GraphQL
