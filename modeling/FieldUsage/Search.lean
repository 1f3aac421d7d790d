import FieldUsage.Config.Load
import FieldUsage.Extract.File
import FieldUsage.Resolve
import FieldUsage.Schema.Load
import FieldUsage.Search.Candidate

/-!
Searching a repository for the usages of a field. The search is set up from the configuration of the
repository and then run for a target. It either reads all files or fails: there are no partial
results. A literal that is no document is an error, which shows the literal.
-/

namespace FieldUsage

namespace Literal

def ofExtracted (path : Path) (source : List UInt8) (item : Extracted) : Literal :=
  { path, line := item.line source, raw := item.source }

def inFile (tree : FileTree) (root path : Path) (config : ExtractConfig) :
    Except SearchError (List Literal) :=
  match Extract.documentsInFile tree config (root.join path) with
  | .ok (source, found) => .ok (found.map (ofExtracted path (Text.bytes source)))
  | .error (.unparsable fault) => .error (.hostParse path fault.line)
  | .error (.unreadable path fault) => .error (.unreadable path fault)
  | .error (.unsupported _) => .error (.unsupported path)

def search (literal : Literal) (schema : Schema) (target : Target) :
    Except SearchError (List Usage) :=
  match literal.usages? schema target with
  | some usages => .ok usages
  | none => .error (.queryParse literal.path literal.line literal.raw)

end Literal

structure SearchOptions where
  /-- The configuration file, instead of the nearest one. -/
  config : Option Path := none
  /-- The project of the configuration. -/
  project : Option String := none
  /-- The extensions of candidates; none for the standard ones. -/
  extensions : List String := []

structure Search where
  repository : Path
  schema : Schema
  extractConfig : ExtractConfig
  filter : CandidateFilter

namespace Search

def ofSchema (repository : Path) (schema : Schema) (extractConfig : ExtractConfig) : Search :=
  { repository, schema, extractConfig
    filter :=
      { extensions := CandidateFilter.defaultExtensions, tags := extractConfig.tagIdentifiers } }

def configPath (tree : FileTree) (repository : Path) (options : SearchOptions) :
    Except SetupError Path :=
  match options.config with
  | some path => .ok path
  | none =>
      match Config.find? tree repository with
      | some path => .ok path
      | none => .error (.noConfig repository)

/-- The directory that the schema patterns of a configuration are relative to. -/
def baseDirectory (repository configPath : Path) : Path :=
  match configPath.parent? with
  | some above => if above.isEmpty then repository else above
  | none => repository

def extractConfigOf (configPath : Path) (project : Project) : Except SetupError ExtractConfig :=
  match project.extractConfig? with
  | none => .ok {}
  | some value => (ExtractConfig.decode value).mapError (.badExtractConfig configPath)

def setup (tree : FileTree) (repository : Path) (options : SearchOptions) :
    Except SetupError Search := do
  unless tree.isDirectory repository do throw (.noRepository repository)
  let configPath ← configPath tree repository options
  let config ← (Config.load tree configPath).mapError .config
  let (_, project) ← (config.select options.project).mapError .config
  let base := baseDirectory repository configPath
  let schema ← (Schema.load tree project.schema base).mapError .schema
  let extractConfig ← extractConfigOf configPath project
  let extensions :=
    if options.extensions.isEmpty then CandidateFilter.defaultExtensions else options.extensions
  let filter : CandidateFilter := { extensions, tags := extractConfig.tagIdentifiers }
  let filter ← filter.withPatterns (project.included.getD []) (project.excluded.getD [])
  return { repository, schema, extractConfig, filter }

def inFile (search : Search) (tree : FileTree) (target : Target) (path : Path) :
    Except SearchError (List Usage) := do
  let literals ← Literal.inFile tree search.repository path search.extractConfig
  let usages ← literals.mapM fun literal => literal.search search.schema target
  return usages.flatten

def find (search : Search) (tree : FileTree) (target : Target) :
    Except SearchError (List Usage) := do
  let files ← search.filter.candidates tree search.repository
  let usages ← files.mapM (search.inFile tree target)
  return usages.flatten

/-- The usages of what a text names. The text is checked before any file is read. -/
def run (search : Search) (tree : FileTree) (raw : Option String) :
    Except SearchError (List Usage) := do
  let target ← (Target.validate search.schema raw).mapError .target
  search.find tree target

end Search

end FieldUsage
