import FieldUsage.Dict
import FieldUsage.GraphQL.Document

/-!
Schemas: named types with their fields, and the types at which operations start. A schema is a value
that is built once and then only read.
-/

namespace FieldUsage

open GraphQL (OperationKind TypeKind TypeExpr)

/-- The type of a field: a named type, with what its outermost wrappers say. -/
structure TypeRef where
  name : String
  isList : Bool := false
  isNonNull : Bool := false
deriving DecidableEq, Repr

namespace TypeRef

/-- A written type without all but its outermost wrappers. -/
def ofExpr (type : TypeExpr) : TypeRef :=
  { name := type.baseName, isList := type.isList, isNonNull := type.isNonNull }

def display (type : TypeRef) : String :=
  let mark := if type.isNonNull then "!" else ""
  if type.isList then "[" ++ type.name ++ "]" ++ mark else type.name ++ mark

end TypeRef

structure Field where
  name : String
  type : TypeRef
deriving DecidableEq, Repr

/-- A named type and the fields it declares. Fields of input objects count as fields too. -/
structure TypeDef where
  name : String
  kind : TypeKind
  fields : Dict Field := ∅
  keyed : fields.Keyed Field.name := by exact Dict.Keyed.empty
deriving Repr

namespace TypeDef

def field? (type : TypeDef) (name : String) : Option Field := type.fields.get? name

def isComposite (type : TypeDef) : Bool := type.kind.isComposite

end TypeDef

/-- Types by their names, and the name of the root type of each kind of operation. -/
structure Schema where
  types : Dict TypeDef
  roots : OperationKind → Option String
  keyed : types.Keyed TypeDef.name

namespace Schema

def type? (schema : Schema) (name : String) : Option TypeDef := schema.types.get? name

def typeNames (schema : Schema) : List String := schema.types.keys

def typeCount (schema : Schema) : Nat := schema.types.size

/-- The root type of a kind of operation, where its name is a type. -/
def root? (schema : Schema) (kind : OperationKind) : Option TypeDef :=
  (schema.roots kind).bind schema.type?

end Schema

end FieldUsage
