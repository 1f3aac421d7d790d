import FieldUsage.GraphQL.Parser
import FieldUsage.Schema.Introspection

/-!
The sources of a schema: documents with type definitions, and results of introspection queries. A
source stands for the steps that it declares, or for nothing at all if it cannot be read.
-/

namespace FieldUsage.GraphQL

/-- The steps of a definition. Operations, fragments and directives declare nothing, and neither
does the extension of a scalar. -/
def Definition.steps : Definition → List Schema.Step
  | .type true .scalar _ _ => []
  | .type extends_ kind name fields =>
      (if extends_ then .extend name kind else .define name kind) ::
        fields.map fun field => .field name { name := field.name, type := .ofExpr field.type }
  | .schema _ roots => .roots :: roots.map fun (kind, name) => .root kind name
  | .operation .. | .fragment .. | .directive .. => []

def Document.steps (document : Document) : List Schema.Step :=
  document.flatMap Definition.steps

end FieldUsage.GraphQL

namespace FieldUsage.Schema

inductive SourceFormat where
  | document
  | introspection
deriving DecidableEq, Repr

/-- The steps of a source, if it is written in its format. -/
def Step.ofText? (format : SourceFormat) (text : List Char) : Option (List Step) :=
  match format with
  | .document => (GraphQL.Document.parse? text).map GraphQL.Document.steps
  | .introspection => do
      let value ← Json.parse? text
      let result ← Introspection.Result.decode? value
      return result.steps

end FieldUsage.Schema
