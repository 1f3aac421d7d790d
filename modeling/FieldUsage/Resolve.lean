import FieldUsage.GraphQL.Parser
import FieldUsage.Path
import FieldUsage.Scope
import FieldUsage.Target
import FieldUsage.Usage

/-!
Finding a field in documents. Every field of a document is an occurrence, with the type on which
it is selected; the usages of a target are the occurrences that are it. Fragments are documents of
their own: a spread does not lead into one.
-/

namespace FieldUsage

open GraphQL (Document)

/-- A field in a document, with the name of the type on which it is selected, if that is known. -/
structure Occurrence where
  parent : Option String
  field : String
deriving DecidableEq, Repr

def Occurrence.isTarget (occurrence : Occurrence) (target : Target) : Bool :=
  occurrence.parent.any fun parent => target.selects parent occurrence.field

namespace GraphQL

mutual

/-- The occurrences in a selection, each before the ones inside it. -/
def Selection.occurrences (schema : Schema) (scope : Scope) : Selection → List Occurrence
  | .field name inner =>
      { parent := scope.map (·.name), field := name } ::
        Selection.occurrencesIn schema (scope.enterField schema name) inner
  | .inline condition inner =>
      Selection.occurrencesIn schema (scope.enterInline schema condition) inner
  | .spread _ => []

def Selection.occurrencesIn (schema : Schema) (scope : Scope) : List Selection → List Occurrence
  | [] => []
  | first :: rest => first.occurrences schema scope ++ Selection.occurrencesIn schema scope rest

end

def Definition.occurrences (schema : Schema) : Definition → List Occurrence
  | .operation kind _ selections =>
      Selection.occurrencesIn schema (.ofOperation schema kind) selections
  | .fragment _ condition selections =>
      Selection.occurrencesIn schema (.onType schema condition) selections
  | _ => []

def Document.occurrences (document : Document) (schema : Schema) : List Occurrence :=
  document.flatMap (Definition.occurrences schema)

end GraphQL

structure Literal where
  path : Path
  /-- The line on which the document begins. -/
  line : Nat
  raw : List Char
deriving DecidableEq, Repr

namespace Literal

/-- What every usage in a literal says: where it is, and the name of its first definition. -/
def usage (literal : Literal) (document : Document) : Usage :=
  { path := literal.path, line := literal.line, operation := document.firstName }

/-- The usages of a target in a literal, unless it is no document. -/
def usages? (literal : Literal) (schema : Schema) (target : Target) : Option (List Usage) :=
  (Document.parse? literal.raw).map fun document =>
    ((document.occurrences schema).filter (·.isTarget target)).map fun _ =>
      literal.usage document

end Literal

end FieldUsage
