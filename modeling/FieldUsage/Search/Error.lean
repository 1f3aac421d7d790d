import FieldUsage.Config.Error
import FieldUsage.Extract.Config
import FieldUsage.Schema.Error
import FieldUsage.Target

/-!
Why a search fails, and with which code the program then ends.
-/

namespace FieldUsage

inductive SetupError where
  | noRepository (path : Path)
  | noConfig (start : Path)
  | badPattern (pattern : String) (error : Glob.PatternError)
  | badExtractConfig (path : Path) (error : ExtractConfig.DecodeError)
  | config (error : ConfigError)
  | schema (error : SchemaError)

def SetupError.message : SetupError → String
  | .noRepository path =>
      "Repository path " ++ path ++ " does not exist or is not a directory"
  | .noConfig start =>
      "No GraphQL config file found in " ++ start ++ " or any parent directory"
  | .badPattern pattern error => "Invalid file pattern '" ++ pattern ++ "': " ++ error.message
  | .badExtractConfig path error =>
      "Invalid extractConfig in " ++ path ++ ": " ++ error.message
  | .config error => error.message
  | .schema error => error.message

inductive SearchError where
  | setup (error : SetupError)
  | target (error : TargetError)
  /-- A file that is not written in its host language. -/
  | hostParse (path : Path) (line : Nat)
  /-- A file of no known language. -/
  | unsupported (path : Path)
  /-- A literal that is no document. -/
  | queryParse (path : Path) (line : Nat) (raw : List Char)
  | unreadable (path : Path) (fault : FileFault)
  /-- A directory to walk that is not there. -/
  | noRoot (path : Path) (fault : FileFault)

namespace SearchError

def message : SearchError → String
  | .setup error => error.message
  | .target error => error.message
  | .hostParse path line =>
      "Failed to parse " ++ path ++ " at line " ++ toString line ++ ": " ++ unexplained
  | .unsupported path => "Failed to parse " ++ path ++ " at line 0: unsupported file extension"
  | .queryParse path line raw =>
      "Invalid GraphQL in " ++ path ++ " (literal starting at line " ++ toString line ++ "): " ++
        unexplained ++ "\n" ++ String.ofList raw
  | .unreadable path fault => "Failed to read " ++ path ++ ": " ++ fault.message
  | .noRoot path fault =>
      "Failed to read " ++ path ++ ": IO error for operation on " ++ path ++ ": " ++ fault.message

end SearchError

inductive ExitCode where
  | success
  | invalidTarget
  | badConfig
  | badSchema
  | unreadable
  | unparsable
deriving DecidableEq, Repr

namespace ExitCode

def toNat : ExitCode → Nat
  | .success => 0
  | .invalidTarget => 1
  | .badConfig => 2
  | .badSchema => 3
  | .unreadable => 4
  | .unparsable => 5

def name : ExitCode → String
  | .success => "success"
  | .invalidTarget => "validation error"
  | .badConfig => "configuration error"
  | .badSchema => "schema load error"
  | .unreadable => "I/O error"
  | .unparsable => "parse error"

def ofError : SearchError → ExitCode
  | .target _ => .invalidTarget
  | .setup (.schema _) => .badSchema
  | .setup _ => .badConfig
  | .hostParse .. | .unsupported .. | .queryParse .. => .unparsable
  | .unreadable .. | .noRoot .. => .unreadable

end ExitCode

end FieldUsage
