import FieldUsage.Schema.Basic

/-!
Scopes: the type whose fields are selected at a point of a document. A scope follows the selections
from the root of an operation or the type of a fragment downwards. Where it cannot follow, because a
field or type is not known or has no selections, it is lost, and nothing below finds it again.
-/

namespace FieldUsage

open GraphQL (OperationKind)

/-- The type at a point of a document, unless it is lost. -/
abbrev Scope := Option TypeDef

namespace Scope

/-- The field that every type with selections has, besides the declared ones. -/
def typenameField : String := "__typename"

def onType (schema : Schema) (name : String) : Scope :=
  (schema.type? name).filter (·.isComposite)

def ofOperation (schema : Schema) (kind : OperationKind) : Scope :=
  (schema.root? kind).filter (·.isComposite)

def enterField (schema : Schema) (scope : Scope) (name : String) : Scope :=
  scope.bind fun parent =>
    if name = typenameField then onType schema "String"
    else (parent.field? name).bind fun field => onType schema field.type.name

def enterInline (schema : Schema) (scope : Scope) (condition : Option String) : Scope :=
  scope.bind fun parent =>
    match condition with
    | some name => onType schema name
    | none => some parent

end Scope

end FieldUsage
