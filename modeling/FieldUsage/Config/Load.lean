import FieldUsage.Config
import FieldUsage.File.Tree
import FieldUsage.Json.Parser
import FieldUsage.Yaml.Value

/-!
Finding and reading configurations. The nearest directory with one counts, and in it the name that
comes first in the order of preference. The name of a file decides its notation; files without an
extension may be in either.
-/

namespace FieldUsage

def Notation.parse? (source : Notation) (text : List Char) : Option Json :=
  match source with
  | .yaml => Yaml.parse? text
  | .json => Json.parse? text

namespace Config

/-- The notations that a file may be in, in the order to try them. -/
def notations (path : Path) : List Notation :=
  match (Path.extension? path).getD "" with
  | "yml" | "yaml" => [.yaml]
  | "json" => [.json]
  | "" =>
      match Path.fileName? path with
      | some ".graphqlrc" | some ".graphqlconfig" => [.yaml, .json]
      | _ => []
  | _ => []

/-- Reads a configuration in the first notation that fits. If none does, the fault is that of the
last. -/
def ofText (path : Path) (text : List Char) : Except ConfigError Config :=
  let sources := notations path
  match sources.getLast? with
  | none => .error (.unsupportedFormat path)
  | some last =>
      match sources.findSome? fun source => (source.parse? text).bind decode? with
      | none => .error (.invalid path (.unparsable last))
      | some config =>
          match faultIn? config.projects.entries with
          | some fault => .error (.invalid path fault)
          | none => .ok config

/-- The names of configuration files, in the order of preference. -/
def fileNames : List String :=
  [".graphqlrc.yml", ".graphqlrc.yaml", ".graphqlrc.json", ".graphqlrc",
   "graphql.config.yml", "graphql.config.yaml", "graphql.config.json", ".graphqlconfig"]

def inDirectory? (tree : FileTree) (directory : Path) : Option Path :=
  (fileNames.map directory.join).find? tree.isFile

def find? (tree : FileTree) (start : Path) : Option Path :=
  start.ancestors.findSome? (inDirectory? tree)

def load (tree : FileTree) (path : Path) : Except ConfigError Config :=
  match tree.readText path with
  | .error fault => .error (.unreadable fault)
  | .ok text => ofText path text

end Config

end FieldUsage
