import FieldUsage.Config
import FieldUsage.Glob.Expand
import FieldUsage.Schema.Error

/-!
Loading the schema of a project from its files. Patterns are relative to the directory of the
configuration; each has to stand for at least one file. The files are read in the order of their
paths.
-/

namespace FieldUsage.Schema

def matchedFiles (tree : FileTree) (base : Path) (pattern : String) :
    Except SchemaError (List Path) :=
  match Glob.expand tree (base.join pattern) with
  | .error error => .error (.badPattern pattern error)
  | .ok paths =>
      match paths.filter tree.isFile with
      | [] => .error (.noFiles [pattern])
      | files => .ok files

/-- Drops each path that is the same as the one before it. -/
def dropRepeated : List Path → List Path
  | [] => []
  | [path] => [path]
  | first :: second :: rest =>
      if Path.same first second then dropRepeated (first :: rest)
      else first :: dropRepeated (second :: rest)

/-- The files of a schema, in order and without repetitions. -/
def files (tree : FileTree) (schema : SchemaConfig) (base : Path) :
    Except SchemaError (List Path) :=
  match schema.source? with
  | some source => .error (.remote source)
  | none => do
      let found ← schema.patterns.mapM (matchedFiles tree base)
      return dropRepeated (found.flatten.mergeSort Path.le)

def formatOf (path : Path) : SourceFormat :=
  if (Path.extension? path).any fun extension =>
      extension.toList.map Char.toLower == "json".toList then
    .introspection
  else .document

def stepsOfFile (tree : FileTree) (path : Path) : Except SchemaError (List Step) :=
  match tree.readText path with
  | .error fault => .error (.unreadable path fault)
  | .ok text => Step.ofSource (formatOf path) path text

def load (tree : FileTree) (schema : SchemaConfig) (base : Path) : Except SchemaError Schema := do
  let files ← files tree schema base
  let steps ← files.mapM (stepsOfFile tree)
  return ofSteps steps.flatten

end FieldUsage.Schema
