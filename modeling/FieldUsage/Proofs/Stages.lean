import FieldUsage.Proofs.Search

/-!
The stages of a search. Each stage needs what the stages before it give, so the first one that fails
decides the error; a search that passes them all has its usages.
-/

namespace FieldUsage

theorem Config.exists_directory_of_find? {tree : FileTree} {start path : Path}
    (found : find? tree start = some path) :
    ∃ directory ∈ start.ancestors, ∃ name ∈ fileNames, path = directory.join name := by
  obtain ⟨directory, member, found⟩ := List.exists_of_findSome?_eq_some found
  obtain ⟨name, known, rfl⟩ := List.mem_map.1 (List.mem_of_find?_eq_some found)
  exact ⟨directory, member, name, known, rfl⟩

/-- A schema in one file is what the file declares. -/
theorem Schema.load_of_matched {tree : FileTree} {schema : SchemaConfig} {base : Path}
    {pattern : String} {file : Path} {steps : List Step} (here : schema.source? = none)
    (single : schema.patterns = [pattern]) (matched : matchedFiles tree base pattern = .ok [file])
    (read : stepsOfFile tree file = .ok steps) : load tree schema base = .ok (ofSteps steps) := by
  have found : files tree schema base = .ok [file] := by
    unfold files
    rw [here, single]
    simp [matched, dropRepeated, bind, Except.bind, pure, Except.pure]
  unfold load
  simp [found, read, bind, Except.bind, pure, Except.pure]

/-- A project with one pattern for the files of its schema, and nothing else. -/
def Project.isPlain (pattern : String) (project : Project) : Bool :=
  project.schema.source?.isNone && project.schema.patterns == [pattern] &&
    project.included.isNone && project.excluded.isNone && project.extractConfig?.isNone

theorem Project.isPlain_iff {pattern : String} {project : Project} :
    project.isPlain pattern = true ↔ project.schema.source? = none ∧
      project.schema.patterns = [pattern] ∧ project.included = none ∧ project.excluded = none ∧
        project.extractConfig? = none := by
  simp [isPlain, and_assoc]

/-- The stages of a search, in their order. -/
inductive Stage where
  | repository
  | config
  | project
  | schema
  | extractConfig
  | patterns
  | target
  | walk
  | files
deriving DecidableEq, Repr

namespace Search

section Setup

variable (tree : FileTree) (repository : Path) (options : SearchOptions)

/-- The repository is there, and its configuration is found and read. -/
structure Configured (path : Path) (config : Config) : Prop where
  directory : tree.isDirectory repository = true
  found : configPath tree repository options = .ok path
  loaded : Config.load tree path = .ok config

/-- Moreover, the project is there. -/
def Selected (path : Path) (project : Project) : Prop :=
  ∃ config name, Configured tree repository options path config ∧
    config.select options.project = .ok (name, project)

structure Loaded (path : Path) (project : Project) (schema : Schema) : Prop where
  selected : Selected tree repository options path project
  loaded : Schema.load tree project.schema (baseDirectory repository path) = .ok schema

structure Tuned (path : Path) (project : Project) (schema : Schema)
    (extractConfig : ExtractConfig) : Prop where
  loaded : Loaded tree repository options path project schema
  tuned : extractConfigOf path project = .ok extractConfig

/-- The filter of a search before the patterns of the project. -/
def plainFilter (extractConfig : ExtractConfig) : CandidateFilter :=
  { extensions :=
      if options.extensions.isEmpty then CandidateFilter.defaultExtensions else options.extensions
    tags := extractConfig.tagIdentifiers }

/-- Everything is read that a search needs before it has a target. -/
def Ready (search : Search) : Prop :=
  search.repository = repository ∧
    ∃ path project, Tuned tree repository options path project search.schema search.extractConfig ∧
      (plainFilter options search.extractConfig).withPatterns (project.included.getD [])
        (project.excluded.getD []) = .ok search.filter

/-- A stage of the setup fails, and all stages before it have passed. -/
inductive SetupFailsAt : Stage → SetupError → Prop
  | repository (missing : tree.isDirectory repository = false) :
      SetupFailsAt .repository (.noRepository repository)
  | discovery {error : SetupError} (directory : tree.isDirectory repository = true)
      (failed : configPath tree repository options = .error error) : SetupFailsAt .config error
  | loading {path : Path} {error : ConfigError} (directory : tree.isDirectory repository = true)
      (found : configPath tree repository options = .ok path)
      (failed : Config.load tree path = .error error) : SetupFailsAt .config (.config error)
  | project {path : Path} {config : Config} {error : ConfigError}
      (configured : Configured tree repository options path config)
      (failed : config.select options.project = .error error) :
      SetupFailsAt .project (.config error)
  | schema {path : Path} {project : Project} {error : SchemaError}
      (selected : Selected tree repository options path project)
      (failed : Schema.load tree project.schema (baseDirectory repository path) = .error error) :
      SetupFailsAt .schema (.schema error)
  | extractConfig {path : Path} {project : Project} {schema : Schema} {error : SetupError}
      (loaded : Loaded tree repository options path project schema)
      (failed : extractConfigOf path project = .error error) : SetupFailsAt .extractConfig error
  | patterns {path : Path} {project : Project} {schema : Schema} {extractConfig : ExtractConfig}
      {error : SetupError} (tuned : Tuned tree repository options path project schema extractConfig)
      (failed : (plainFilter options extractConfig).withPatterns (project.included.getD [])
        (project.excluded.getD []) = .error error) : SetupFailsAt .patterns error

variable {tree repository options}

/-- Repository and options determine the configuration and the project. -/
theorem Selected.unique {path path' : Path} {project project' : Project}
    (first : Selected tree repository options path project)
    (second : Selected tree repository options path' project') :
    path = path' ∧ project = project' := by
  obtain ⟨config, name, configured, selected⟩ := first
  obtain ⟨config', name', configured', selected'⟩ := second
  obtain rfl := Except.ok.inj (configured.found.symm.trans configured'.found)
  obtain rfl := Except.ok.inj (configured.loaded.symm.trans configured'.loaded)
  have same := Except.ok.inj (selected.symm.trans selected')
  exact ⟨rfl, (Prod.ext_iff.1 same).2⟩

theorem setup_of_missing (missing : tree.isDirectory repository = false) :
    setup tree repository options = .error (.noRepository repository) := by
  unfold setup
  rw [missing]
  rfl

/-- Once the repository is there, a setup is a run through the other stages. -/
theorem setup_of_directory (directory : tree.isDirectory repository = true) :
    setup tree repository options = do
      let path ← configPath tree repository options
      let config ← (Config.load tree path).mapError .config
      let selected ← (config.select options.project).mapError .config
      let schema ←
        (Schema.load tree selected.2.schema (baseDirectory repository path)).mapError .schema
      let extractConfig ← extractConfigOf path selected.2
      let filter ← (plainFilter options extractConfig).withPatterns
        (selected.2.included.getD []) (selected.2.excluded.getD [])
      return { repository, schema, extractConfig, filter } := by
  unfold setup
  rw [directory]
  rfl

/-- A search is set up if all stages of the setup pass. -/
theorem setup_eq_ok_iff {search : Search} :
    setup tree repository options = .ok search ↔ Ready tree repository options search := by
  cases directory : tree.isDirectory repository with
  | false =>
      rw [setup_of_missing directory]
      constructor
      · nofun
      · rintro ⟨-, path, project, tuned, -⟩
        obtain ⟨config, name, configured, -⟩ := tuned.loaded.selected
        simp [configured.directory] at directory
  | true =>
      rw [setup_of_directory directory]
      simp only [bind_eq_ok_iff, mapError_eq_ok_iff, Prod.exists]
      constructor
      · rintro ⟨path, found, config, read, name, project, selected, schema, loaded, extractConfig,
          tuned, filter, compiled, made⟩
        cases made
        exact ⟨rfl, path, project,
          ⟨⟨⟨config, name, ⟨directory, found, read⟩, selected⟩, loaded⟩, tuned⟩, compiled⟩
      · rintro ⟨rfl, path, project, ⟨⟨⟨config, name, configured, selected⟩, loaded⟩, tuned⟩,
          compiled⟩
        exact ⟨path, configured.found, config, configured.loaded, name, project, selected, _, loaded,
          _, tuned, _, compiled, rfl⟩

theorem exists_selected_of_isPlain {path : Path} {pattern : String}
    (directory : tree.isDirectory repository = true)
    (found : configPath tree repository options = .ok path)
    (plain : (Config.load tree path).toOption.any (fun config =>
      (config.select options.project).toOption.any (·.2.isPlain pattern)) = true) :
    ∃ project, Selected tree repository options path project ∧ project.isPlain pattern = true := by
  obtain ⟨config, loaded, plain⟩ := exists_ok_of_any plain
  obtain ⟨⟨name, project⟩, chosen, plain⟩ := exists_ok_of_any plain
  exact ⟨project, ⟨config, name, ⟨directory, found, loaded⟩, chosen⟩, plain⟩

/-- The setup of a plain project. -/
theorem ready_of_isPlain {path file : Path} {project : Project} {pattern : String}
    {steps : List Schema.Step} (selected : Selected tree repository options path project)
    (plain : project.isPlain pattern = true)
    (matched : Schema.matchedFiles tree (baseDirectory repository path) pattern = .ok [file])
    (read : Schema.stepsOfFile tree file = .ok steps) :
    Ready tree repository options
      { repository, schema := .ofSteps steps, extractConfig := {}, filter := plainFilter options {} } := by
  obtain ⟨here, single, included, excluded, standard⟩ := Project.isPlain_iff.1 plain
  refine ⟨rfl, path, project, ⟨⟨selected, ?_⟩, ?_⟩, ?_⟩
  · exact Schema.load_of_matched here single matched read
  · unfold extractConfigOf
    rw [standard]
  · rw [included, excluded]
    rfl

theorem SetupFailsAt.setup_eq {stage : Stage} {error : SetupError}
    (fails : SetupFailsAt tree repository options stage error) :
    setup tree repository options = .error error := by
  cases fails with
  | repository missing => exact setup_of_missing missing
  | discovery directory failed =>
      rw [setup_of_directory directory, failed]
      rfl
  | loading directory found failed =>
      simp only [setup_of_directory directory, bind_eq_error_iff, mapError_eq_error_iff]
      exact .inr ⟨_, found, .inl ⟨_, failed, rfl⟩⟩
  | project configured failed =>
      obtain ⟨directory, found, read⟩ := configured
      simp only [setup_of_directory directory, bind_eq_error_iff, mapError_eq_ok_iff,
        mapError_eq_error_iff]
      exact .inr ⟨_, found, .inr ⟨_, read, .inl ⟨_, failed, rfl⟩⟩⟩
  | schema selected failed =>
      obtain ⟨config, name, ⟨directory, found, read⟩, selected⟩ := selected
      simp only [setup_of_directory directory, bind_eq_error_iff, mapError_eq_ok_iff,
        mapError_eq_error_iff]
      exact .inr ⟨_, found, .inr ⟨_, read, .inr ⟨_, selected, .inl ⟨_, failed, rfl⟩⟩⟩⟩
  | extractConfig loaded failed =>
      obtain ⟨⟨config, name, ⟨directory, found, read⟩, selected⟩, loaded⟩ := loaded
      simp only [setup_of_directory directory, bind_eq_error_iff, mapError_eq_ok_iff]
      exact .inr ⟨_, found, .inr ⟨_, read, .inr ⟨_, selected, .inr ⟨_, loaded, .inl failed⟩⟩⟩⟩
  | patterns tuned failed =>
      obtain ⟨⟨⟨config, name, ⟨directory, found, read⟩, selected⟩, loaded⟩, tuned⟩ := tuned
      simp only [setup_of_directory directory, bind_eq_error_iff, mapError_eq_ok_iff]
      exact .inr ⟨_, found, .inr ⟨_, read, .inr ⟨_, selected, .inr ⟨_, loaded, .inr ⟨_, tuned,
        .inl failed⟩⟩⟩⟩⟩

/-- A setup fails at the first stage that fails. -/
theorem setup_eq_error_iff {error : SetupError} :
    setup tree repository options = .error error ↔
      ∃ stage, SetupFailsAt tree repository options stage error := by
  constructor
  · intro failed
    cases directory : tree.isDirectory repository with
    | false =>
        rw [setup_of_missing directory] at failed
        obtain rfl := Except.error.inj failed
        exact ⟨_, .repository directory⟩
    | true =>
        simp only [setup_of_directory directory, bind_eq_error_iff, mapError_eq_ok_iff,
          mapError_eq_error_iff, Prod.exists] at failed
        obtain failed | ⟨path, found, ⟨_, failed, rfl⟩ | ⟨config, read, ⟨_, failed, rfl⟩ |
          ⟨name, project, selected, ⟨_, failed, rfl⟩ | ⟨schema, loaded, failed |
          ⟨extractConfig, tuned, failed | ⟨filter, -, made⟩⟩⟩⟩⟩⟩ := failed
        · exact ⟨_, .discovery directory failed⟩
        · exact ⟨_, .loading directory found failed⟩
        · exact ⟨_, .project ⟨directory, found, read⟩ failed⟩
        · exact ⟨_, .schema ⟨config, name, ⟨directory, found, read⟩, selected⟩ failed⟩
        · exact ⟨_, .extractConfig ⟨⟨config, name, ⟨directory, found, read⟩, selected⟩, loaded⟩
            failed⟩
        · exact ⟨_, .patterns ⟨⟨⟨config, name, ⟨directory, found, read⟩, selected⟩, loaded⟩, tuned⟩
            failed⟩
        · cases made
  · rintro ⟨stage, fails⟩
    exact fails.setup_eq

end Setup

section Run

variable (tree : FileTree) (repository : Path) (options : SearchOptions) (raw : Option String)

/-- A search from its setup to its end. -/
def outcome : Except SearchError (List Usage) := do
  let search ← (setup tree repository options).mapError .setup
  search.run tree raw

/-- A search is set up and has a target. -/
structure Aimed (search : Search) (target : Target) : Prop where
  ready : Ready tree repository options search
  valid : Target.validate search.schema raw = .ok target

structure Located (search : Search) (target : Target) (files : List Path) : Prop where
  aimed : Aimed tree repository options raw search target
  located : search.filter.candidates tree search.repository = .ok files

/-- A stage fails, and all stages before it have passed. -/
inductive FailsAt : Stage → SearchError → Prop
  | setup {stage : Stage} {error : SetupError}
      (failed : SetupFailsAt tree repository options stage error) : FailsAt stage (.setup error)
  | target {search : Search} {error : TargetError} (ready : Ready tree repository options search)
      (failed : Target.validate search.schema raw = .error error) : FailsAt .target (.target error)
  | walk {search : Search} {target : Target} {error : SearchError}
      (aimed : Aimed tree repository options raw search target)
      (failed : search.filter.candidates tree search.repository = .error error) :
      FailsAt .walk error
  | files {search : Search} {target : Target} {before after : List Path} {path : Path}
      {error : SearchError}
      (located : Located tree repository options raw search target (before ++ path :: after))
      (passed : ∀ earlier ∈ before, search.Searchable tree target earlier)
      (failed : search.FailsIn tree target path error) : FailsAt .files error

/-- All stages pass, with these usages. -/
def Completes (usages : List Usage) : Prop :=
  ∃ search target files, Located tree repository options raw search target files ∧
    (∀ path ∈ files, search.Searchable tree target path) ∧
      usages = files.flatMap (search.usagesIn tree target)

variable {tree repository options raw}

/-- A search has usages if all its stages pass. -/
theorem outcome_eq_ok_iff {usages : List Usage} :
    outcome tree repository options raw = .ok usages ↔
      Completes tree repository options raw usages := by
  unfold outcome run
  simp only [bind_eq_ok_iff, mapError_eq_ok_iff, setup_eq_ok_iff]
  constructor
  · rintro ⟨search, ready, target, valid, found⟩
    obtain ⟨files, located, -⟩ := bind_eq_ok_iff.1 found
    obtain ⟨searchable, same⟩ := (find_eq_ok_iff located).1 found
    exact ⟨search, target, files, ⟨⟨ready, valid⟩, located⟩, searchable, same⟩
  · rintro ⟨search, target, files, ⟨⟨ready, valid⟩, located⟩, searchable, same⟩
    exact ⟨search, ready, target, valid, (find_eq_ok_iff located).2 ⟨searchable, same⟩⟩

/-- A search fails at the first of its stages that fails. -/
theorem outcome_eq_error_iff {error : SearchError} :
    outcome tree repository options raw = .error error ↔
      ∃ stage, FailsAt tree repository options raw stage error := by
  unfold outcome run
  simp only [bind_eq_error_iff, mapError_eq_ok_iff, mapError_eq_error_iff, setup_eq_ok_iff,
    setup_eq_error_iff]
  constructor
  · rintro (⟨_, ⟨stage, failed⟩, rfl⟩ | ⟨search, ready, ⟨_, failed, rfl⟩ | ⟨target, valid, failed⟩⟩)
    · exact ⟨stage, .setup failed⟩
    · exact ⟨.target, .target ready failed⟩
    · cases located : search.filter.candidates tree search.repository with
      | error cause =>
          rcases bind_eq_error_iff.1 failed with same | ⟨files, found, -⟩
          · exact ⟨.walk, .walk ⟨ready, valid⟩ same⟩
          · rw [located] at found
            cases found
      | ok files =>
          obtain ⟨before, path, after, rfl, passed, failed⟩ := (find_eq_error_iff located).1 failed
          exact ⟨.files, .files ⟨⟨ready, valid⟩, located⟩ passed failed⟩
  · rintro ⟨stage, fails⟩
    cases fails with
    | setup failed => exact .inl ⟨_, ⟨stage, failed⟩, rfl⟩
    | target ready failed => exact .inr ⟨_, ready, .inl ⟨_, failed, rfl⟩⟩
    | walk aimed failed =>
        exact .inr ⟨_, aimed.ready, .inr ⟨_, aimed.valid, bind_eq_error_iff.2 (.inl failed)⟩⟩
    | files located passed failed =>
        exact .inr ⟨_, located.aimed.ready, .inr ⟨_, located.aimed.valid,
          (find_eq_error_iff located.located).2 ⟨_, _, _, rfl, passed, failed⟩⟩⟩

theorem outcome_of_invalid {search : Search} {error : TargetError}
    (ready : Ready tree repository options search)
    (invalid : Target.validate search.schema raw = .error error) :
    outcome tree repository options raw = .error (.target error) :=
  outcome_eq_error_iff.2 ⟨.target, .target ready invalid⟩

end Run

theorem configPath_error {tree : FileTree} {repository : Path} {options : SearchOptions}
    {error : SetupError}
    (failed : configPath tree repository options = .error error) :
    error = .noConfig repository := by
  unfold configPath at failed
  split at failed
  · cases failed
  · split at failed
    · cases failed
    · exact (Except.error.inj failed).symm

theorem compile_error {patterns : List String} {error : SetupError}
    (failed : patterns.mapM CandidateFilter.compile = .error error) :
    ∃ pattern cause, error = .badPattern pattern cause := by
  induction patterns with
  | nil => cases failed
  | cons pattern rest ih =>
      rw [List.mapM_cons, bind_eq_error_iff] at failed
      rcases failed with failed | ⟨_, -, failed⟩
      · obtain ⟨cause, -, rfl⟩ := mapError_eq_error_iff.1 failed
        exact ⟨pattern, cause, rfl⟩
      · rcases bind_eq_error_iff.1 failed with failed | ⟨_, -, made⟩
        · exact ih failed
        · cases made

/-- A filter is refused for a pattern that cannot be read. -/
theorem withPatterns_error {filter : CandidateFilter} {included excluded : List String}
    {error : SetupError} (failed : filter.withPatterns included excluded = .error error) :
    ∃ pattern cause, error = .badPattern pattern cause := by
  rcases bind_eq_error_iff.1 failed with failed | ⟨_, -, failed⟩
  · exact compile_error failed
  · rcases bind_eq_error_iff.1 failed with failed | ⟨_, -, made⟩
    · exact compile_error failed
    · cases made

end Search

namespace ExitCode

open Search

/-- The codes with which the program ends if a stage fails. -/
def ofStage : Stage → List ExitCode
  | .schema => [.badSchema]
  | .target => [.invalidTarget]
  | .walk => [.unreadable]
  | .files => [.unreadable, .unparsable]
  | .repository | .config | .project | .extractConfig | .patterns => [.badConfig]

/-- The code with which the program ends after a search. -/
def ofOutcome : Except SearchError (List Usage) → ExitCode
  | .ok _ => .success
  | .error error => .ofError error

variable {tree : FileTree} {repository : Path} {options : SearchOptions} {raw : Option String}

/-- The codes of the setup are those of its stages. -/
theorem ofError_setup {stage : Stage} {error : SetupError}
    (fails : SetupFailsAt tree repository options stage error) :
    ofError (.setup error) ∈ ofStage stage := by
  cases fails with
  | repository | loading | project | schema => exact List.mem_singleton_self _
  | discovery _ failed =>
      obtain rfl := configPath_error failed
      exact List.mem_singleton_self _
  | extractConfig _ failed =>
      unfold extractConfigOf at failed
      split at failed
      · cases failed
      · obtain ⟨cause, -, rfl⟩ := mapError_eq_error_iff.1 failed
        exact List.mem_singleton_self _
  | patterns _ failed =>
      obtain ⟨pattern, cause, rfl⟩ := withPatterns_error failed
      exact List.mem_singleton_self _

theorem ofError_candidates {filter : CandidateFilter} {root : Path} {error : SearchError}
    (failed : filter.candidates tree root = .error error) : ofError error = .unreadable := by
  rcases CandidateFilter.candidates_error_cases failed with ⟨_, rfl⟩ | ⟨_, _, rfl⟩ <;> rfl

/-- What fails in a file is that it cannot be read or not be parsed. -/
theorem ofError_failsIn {search : Search} {target : Target} {path : Path} {error : SearchError}
    (fails : search.FailsIn tree target path error) : ofError error ∈ ofStage .files := by
  cases fails with
  | extraction failed =>
      unfold literalsIn Literal.inFile at failed
      split at failed <;> cases failed <;> simp [ofError, ofStage]
  | literal _ failed =>
      obtain ⟨before, literal, after, -, -, failed⟩ := failed
      obtain rfl := Literal.eq_queryParse_of_search failed
      simp [ofError, ofStage]

/-- The stage that fails decides the code. -/
theorem ofError_mem {stage : Stage} {error : SearchError}
    (fails : FailsAt tree repository options raw stage error) : ofError error ∈ ofStage stage := by
  cases fails with
  | setup failed => exact ofError_setup failed
  | target => exact List.mem_singleton_self _
  | walk _ failed => exact List.mem_singleton.2 (ofError_candidates failed)
  | files _ _ failed => exact ofError_failsIn failed

end ExitCode

end FieldUsage
