import FieldUsage.Cli.Command

/-!
Which files a run of the command can look at. The command works on a tree of files that is taken
from the disk beforehand; here are the parts of the disk that have to be in it.
-/

namespace FieldUsage.Cli

def request? (current : Path) (environment : Environment) (texts : List String) :
    Option (Arguments × Request) := do
  let arguments ← (Arguments.parse texts).toOption
  let request ← (Request.ofArguments current environment.home arguments.positional).toOption
  return (arguments, request)

/-- The names from the root to a path, where `..` takes back the name before it. -/
def namesFrom (current : List String) (path : Path) : List String :=
  (Path.components path).foldl
    (fun names component =>
      match component with
      | .root => []
      | .here => names
      | .up => names.dropLast
      | .name name => names ++ [name])
    current

/-- The part of a pattern before its first component with wildcards. -/
def fixedPart (pattern : String) : Path :=
  let plain (piece : String) : Bool := !piece.toList.any fun c => c == '*' || c == '?' || c == '['
  let lead := if Path.isAbsolute pattern then "/" else ""
  lead ++ "/".intercalate ((Glob.pieces pattern.toList).filter (· != "") |>.takeWhile plain)

def schemaPlaces (tree : FileTree) (arguments : Arguments) (request : Request) : List Path :=
  let options : SearchOptions := { config := arguments.config, project := request.project }
  let found : Option (List Path) := do
    let path ← (Search.configPath tree request.repository options).toOption
    let config ← (Config.load tree path).toOption
    let (_, project) ← (config.select request.project).toOption
    let base := Search.baseDirectory request.repository path
    return project.schema.patterns.map fun pattern => base.join (fixedPart pattern)
  found.getD []

/-- The names of files that count in the directories above a repository. -/
def outerFiles : List String :=
  Config.fileNames ++ [".ignore", ".gitignore", ".git/info/exclude"]

end FieldUsage.Cli
