import FieldUsage.Config.Error
import FieldUsage.Json
import FieldUsage.Text.Bytes

/-!
Configurations: where the schema of a project is, and which of its files count. A configuration is
one project or several with names. It is read from a value by trying the second form first, so a
list of projects that cannot be read does not keep a project beside it from being read.
-/

namespace FieldUsage

/-- Where the schema of a project is. -/
inductive SchemaConfig where
  /-- A file or a pattern for files. -/
  | path (pattern : String)
  | paths (patterns : List String)
  /-- A server to ask for the schema. -/
  | remote (url : String) (headers : Option (Dict String))

namespace SchemaConfig

def patterns : SchemaConfig → List String
  | .path pattern => [pattern]
  | .paths patterns => patterns
  | .remote .. => []

def isAddress (pattern : String) : Bool :=
  Text.startsWith "http://".toList pattern.toList ||
    Text.startsWith "https://".toList pattern.toList

/-- Whether the schema is described by a server to ask. -/
def isRemote : SchemaConfig → Bool
  | .remote .. => true
  | _ => false

def source? : SchemaConfig → Option String
  | .remote url _ => some url
  | schema => schema.patterns.find? isAddress

def decode? (value : Json) : Option SchemaConfig :=
  let ofRecord : Option SchemaConfig := do
    match ← value.record? ["url", "headers"] 2 with
    | [some url, headers] =>
        return .remote (← url.text?) (← Json.optional? (Json.dict? Json.text?) headers)
    | _ => none
  (value.text?.map path).or (((Json.list? Json.text? value).map paths).or ofRecord)

def encode : SchemaConfig → Json
  | .path pattern => .string pattern
  | .paths patterns => .array (patterns.map .string)
  | .remote url headers =>
      .object (("url", .string url) ::
        (headers.map fun headers =>
          ("headers",
            .object (headers.entries.map fun (name, text) => (name, .string text)))).toList)

end SchemaConfig

structure Project where
  schema : SchemaConfig
  /-- Patterns for the files that count; none for all files. -/
  included : Option (List String) := none
  /-- Patterns for the files that do not count. -/
  excluded : Option (List String) := none
  /-- Settings for tools. -/
  extensions : Option (Dict Json) := none

namespace Project

def extractConfig? (project : Project) : Option Json :=
  project.extensions.bind (·.get? "extractConfig")

/-- Old spellings of keys. -/
def spellings : List (String × String) :=
  [("schemaPath", "schema"), ("includes", "include"), ("excludes", "exclude")]

def decode? (value : Json) : Option Project := do
  match ← (value.respelled spellings).record? ["schema", "include", "exclude", "extensions"] 4 with
  | [some schema, included, excluded, extensions] =>
      return {
        schema := ← SchemaConfig.decode? schema
        included := ← Json.optional? (Json.list? Json.text?) included
        excluded := ← Json.optional? (Json.list? Json.text?) excluded
        extensions := ← Json.optional? (Json.dict? some) extensions }
  | _ => none

/-- Writes a project. What it does not have is left out. -/
def encode (project : Project) : Json :=
  let texts (items : List String) : Json := .array (items.map .string)
  .object (("schema", project.schema.encode) ::
    ((project.included.map fun items => ("include", texts items)).toList ++
      (project.excluded.map fun items => ("exclude", texts items)).toList ++
      (project.extensions.map fun settings => ("extensions", .object settings.entries)).toList))

/-- What is wrong with a project of a name. -/
def fault? (name : String) (project : Project) : Option ConfigFault :=
  if project.schema.isRemote then none
  else if project.schema.patterns.isEmpty then some (.noSchema name)
  else if project.schema.patterns.any fun pattern => (Text.trim pattern.toList).isEmpty then
    some (.blankSchema name)
  else none

end Project

inductive Config where
  | single (project : Project)
  | multi (projects : Dict Project)

namespace Config

/-- The name of the only project of a configuration, and of the one to take if none is named. -/
def defaultProject : String := "default"

def projects : Config → Dict Project
  | .single project => Dict.empty.insert defaultProject project
  | .multi projects => projects

def names (config : Config) : List String := config.projects.keys

def count (config : Config) : Nat := config.projects.size

def isMulti : Config → Bool
  | .single _ => false
  | .multi _ => true

def project? (config : Config) (name : String) : Option Project := config.projects.get? name

/-- The project to work with: the one that is named, or else the default one. -/
def select (config : Config) (name : Option String) : Except ConfigError (String × Project) :=
  match config.project? (name.getD defaultProject) with
  | some project => .ok (name.getD defaultProject, project)
  | none =>
      match name with
      | some name => .error (.projectNotFound name config.names)
      | none => .error (.projectRequired config.names)

def decodeMulti? : Json → Option Config
  | .object members =>
      match Json.valuesOf ["projects"] members with
      | [projects] => (Json.dict? Project.decode? projects).map .multi
      | _ => none
  | _ => none

def decode? (value : Json) : Option Config :=
  (decodeMulti? value).or ((Project.decode? value).map .single)

/-- The first fault in a list of projects. -/
def faultIn? (projects : List (String × Project)) : Option ConfigFault :=
  projects.findSome? fun (name, project) => project.fault? name

end Config

end FieldUsage
