/-!
Usages of a field and how they are printed: one line for each, either with the path, the line and
the name of the operation, or as a link to the line.
-/

namespace FieldUsage

structure Usage where
  path : String
  line : Nat
  /-- The name of the first definition of the document, if it has one. -/
  operation : Option String
deriving DecidableEq, Repr

inductive OutputFormat where
  | line
  | anchor
deriving DecidableEq, Repr

def OutputFormat.standard : OutputFormat := .line

namespace Usage

/-- What stands for the name of an operation without one. -/
def anonymous : String := "<anonymous>"

/-- A usage in a format, without a line end. -/
def display (usage : Usage) : OutputFormat → String
  | .line => usage.path ++ ":" ++ toString usage.line ++ " " ++ usage.operation.getD anonymous
  | .anchor => usage.path ++ "#L" ++ toString usage.line

/-- Usages in a format, each on a line of its own. -/
def render (usages : List Usage) (format : OutputFormat) : String :=
  String.join (usages.map fun usage => usage.display format ++ "\n")

end Usage

end FieldUsage
