import FieldUsage.File.Tree
import FieldUsage.Glob.Pattern
import FieldUsage.Path
import FieldUsage.Schema.Source

/-!
Why the schema of a project cannot be loaded.
-/

namespace FieldUsage

inductive SchemaError where
  | unreadable (path : Path) (fault : FileFault)
  | badPattern (pattern : String) (error : Glob.PatternError)
  | noFiles (patterns : List String)
  /-- A source that is not written in its format. -/
  | badSource (format : Schema.SourceFormat) (path : Path)
  /-- Schemas are not fetched over the network. -/
  | remote (source : String)
deriving DecidableEq, Repr

def SchemaError.message : SchemaError → String
  | .unreadable path fault => "Failed to read schema file " ++ path ++ ": " ++ fault.message
  | .badPattern pattern error =>
      "Invalid schema pattern '" ++ pattern ++ "': " ++ error.message
  | .noFiles patterns => "No schema files matched " ++ ", ".intercalate patterns
  | .badSource .document path => "Failed to parse schema " ++ path ++ ": " ++ unexplained
  | .badSource .introspection path =>
      "Failed to parse introspection result " ++ path ++ ": " ++ unexplained
  | .remote source =>
      "Remote schema '" ++ source ++
        "' is not supported; save the schema to a local SDL or introspection JSON file"

namespace Schema

def Step.ofSource (format : SourceFormat) (path : Path) (text : List Char) :
    Except SchemaError (List Step) :=
  match Step.ofText? format text with
  | some steps => .ok steps
  | none => .error (.badSource format path)

end Schema

end FieldUsage
