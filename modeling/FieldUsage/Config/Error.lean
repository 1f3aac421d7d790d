import FieldUsage.File.Tree
import FieldUsage.Path

/-!
Why the configuration of a repository cannot be used.
-/

namespace FieldUsage

inductive Notation where
  | yaml
  | json
deriving DecidableEq, Repr

def Notation.name : Notation → String
  | .yaml => "YAML"
  | .json => "JSON"

inductive ConfigFault where
  /-- The text is not a configuration in its notation. -/
  | unparsable (source : Notation)
  /-- A project has no schema paths. -/
  | noSchema (project : String)
  /-- A project has a blank schema path. -/
  | blankSchema (project : String)
deriving DecidableEq, Repr

def ConfigFault.message : ConfigFault → String
  | .unparsable source => source.name ++ " parse error: " ++ unexplained
  | .noSchema project => "Project '" ++ project ++ "' has empty schema configuration"
  | .blankSchema project => "Project '" ++ project ++ "' has empty schema path"

inductive ConfigError where
  | unreadable (fault : FileFault)
  | invalid (path : Path) (fault : ConfigFault)
  | unsupportedFormat (path : Path)
  | projectNotFound (name : String) (available : List String)
  | projectRequired (available : List String)
deriving DecidableEq, Repr

def ConfigError.message : ConfigError → String
  | .unreadable fault => "Failed to read config file: " ++ fault.message
  | .invalid path fault => "Invalid config in " ++ path ++ ": " ++ fault.message
  | .unsupportedFormat path => "Unsupported config format: " ++ path
  | .projectNotFound name available =>
      "Project '" ++ name ++ "' not found in config (available: " ++
        ", ".intercalate available ++ ")"
  | .projectRequired available =>
      "Multi-project config requires a project name (available: " ++
        ", ".intercalate available ++ ")"

end FieldUsage
