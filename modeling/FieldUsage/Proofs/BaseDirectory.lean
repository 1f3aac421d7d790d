import FieldUsage.Proofs.File.Location
import FieldUsage.Proofs.Stages

/-!
The directory that the patterns of a schema are relative to. It is the directory of the configuration
if the path of the configuration has one in it. A path that is a file name alone has none: the
repository is taken then, be it where the configuration is or not. Writing `./` before the name is
enough to get the directory of the configuration.
-/

namespace FieldUsage

open FieldUsage.Path (IsFileName)

/-- The same error of a configuration at another path. -/
def ConfigError.relocated (path : Path) : ConfigError → ConfigError
  | .invalid _ fault => .invalid path fault
  | .unsupportedFormat _ => .unsupportedFormat path
  | error => error

def SetupError.relocated (path : Path) : SetupError → SetupError
  | .badExtractConfig _ error => .badExtractConfig path error
  | .config error => .config (error.relocated path)
  | error => error

/-- The options with a configuration file in place of theirs. -/
def SearchOptions.withConfig (options : SearchOptions) (path : Path) : SearchOptions :=
  { options with config := some path }

namespace Config

variable {tree : FileTree}

/-- A directory in front of the name of a file does not change its notation. -/
theorem notations_here {name : String} (named : IsFileName name) :
    notations ("./" ++ name) = notations name := by
  have last : Path.fileName? ("./" ++ name) = Path.fileName? name := by
    unfold Path.fileName?
    rw [named.components_eq, named.components_here]
    rfl
  unfold notations Path.extension?
  rw [last]

/-- A configuration has the same contents under both spellings of its path. -/
theorem load_here (tree : FileTree) {name : String} (named : IsFileName name) :
    load tree ("./" ++ name) = (load tree name).mapError (.relocated ("./" ++ name)) := by
  unfold load
  rw [tree.readText_here named]
  cases tree.readText name with
  | error fault => rfl
  | ok text =>
      unfold ofText
      rw [notations_here named]
      generalize notations name = sources
      dsimp only
      cases sources.getLast? with
      | none => rfl
      | some last =>
          dsimp only
          split
          · rfl
          · split <;> rfl

theorem relocated_of_select {config : Config} {name : Option String} {error : ConfigError}
    (failed : config.select name = .error error) (path : Path) : error.relocated path = error := by
  unfold select at failed
  split at failed
  · cases failed
  · split at failed <;> cases failed <;> rfl

theorem exists_readText_of_load {path : Path} {config : Config} (loaded : load tree path = .ok config) :
    ∃ text, tree.readText path = .ok text := by
  unfold load at loaded
  split at loaded
  · cases loaded
  case h_2 text read => exact ⟨text, read⟩

/-- Only a path with a file name has a notation. -/
theorem exists_fileName?_of_load {path : Path} {config : Config}
    (loaded : load tree path = .ok config) : ∃ name, Path.fileName? path = some name := by
  cases named : Path.fileName? path with
  | some name => exact ⟨name, rfl⟩
  | none =>
      have bare : Path.extension? path = none := by
        unfold Path.extension?
        rw [named]
        rfl
      have unknown : notations path = [] := by
        unfold notations
        rw [bare, named]
        rfl
      unfold load at loaded
      split at loaded
      · cases loaded
      · unfold ofText at loaded
        rw [unknown] at loaded
        cases loaded

theorem isFileName_of_mem {name : String} (known : name ∈ fileNames) : IsFileName name := by
  have all : ∀ name ∈ fileNames, IsFileName name := by decide
  exact all name known

end Config

namespace Search

variable {tree : FileTree} {repository : Path} {options : SearchOptions}

theorem baseDirectory_here {name : String} (named : IsFileName name) :
    baseDirectory repository ("./" ++ name) = "." := by
  unfold baseDirectory
  rw [named.parent?_here]
  rfl

/-- Without a directory in its path, a configuration has the repository as its base. -/
theorem baseDirectory_alone {path : Path} {name : String} (named : Path.fileName? path = some name)
    (alone : (Path.components path).length = 1) : baseDirectory repository path = repository := by
  obtain ⟨above, parent, empty⟩ := Path.exists_parent?_of_fileName? named
  obtain rfl := empty.2 alone
  unfold baseDirectory
  rw [parent]
  rfl

theorem baseDirectory_name {name : String} (named : IsFileName name) :
    baseDirectory repository name = repository := by
  have last : Path.fileName? name = some name := by
    unfold Path.fileName?
    rw [named.components_eq]
    rfl
  exact baseDirectory_alone last (by rw [named.components_eq]; rfl)

/-- A configuration with a directory in its path is in the base directory. -/
theorem locate_baseDirectory {path : Path} {config : Config}
    (loaded : Config.load tree path = .ok config) (below : 1 < (Path.components path).length) :
    tree.locate (baseDirectory repository path) = tree.directoryOf path := by
  obtain ⟨name, named⟩ := Config.exists_fileName?_of_load loaded
  obtain ⟨text, read⟩ := Config.exists_readText_of_load loaded
  obtain ⟨above, parent, empty⟩ := Path.exists_parent?_of_fileName? named
  have solid : above ≠ "" := by
    intro none
    have := empty.1 none
    omega
  have base : baseDirectory repository path = above := by
    unfold baseDirectory
    rw [parent]
    simp [solid]
  have shorter := Path.components_parent? parent
  obtain ⟨found, followed⟩ := FileTree.follow_of_readText read
  have split : (Path.components path).dropLast ++ [(Path.components path).getLast
      (List.length_pos_iff.1 (by omega))] = Path.components path := List.dropLast_append_getLast _
  rw [← split] at followed
  obtain ⟨entries, names, directory⟩ := FileTree.exists_directory_of_follow followed
  rw [base, FileTree.directoryOf, directory]
  rw [← shorter] at directory
  exact FileTree.locate_eq_of_follow solid directory

/-- The base directory is that of the configuration, unless the path of the configuration is a file
name alone and the repository is another directory than the current one. -/
theorem locate_baseDirectory_iff {path : Path} {config : Config}
    (loaded : Config.load tree path = .ok config) :
    tree.locate (baseDirectory repository path) = tree.directoryOf path ↔
      1 < (Path.components path).length ∨ tree.locate repository = tree.locate "." := by
  by_cases below : 1 < (Path.components path).length
  · simp only [below, true_or, iff_true]
    exact locate_baseDirectory loaded below
  · obtain ⟨name, named⟩ := Config.exists_fileName?_of_load loaded
    have alone : (Path.components path).length = 1 := by
      have := Path.length_components_pos named
      omega
    have current : tree.directoryOf path = tree.locate "." := by
      obtain ⟨component, single⟩ := List.length_eq_one_iff.1 alone
      rw [FileTree.directoryOf, single, FileTree.locate_current]
      rfl
    rw [baseDirectory_alone named alone, current]
    simp [alone]

/-- A configuration that was looked for is in the base directory, unless the search for it came to
the empty path. -/
theorem exists_directory_of_configPath {path : Path}
    (found : configPath tree repository options = .ok path) (discovered : options.config = none) :
    ∃ directory ∈ repository.ancestors, path ∈ Config.fileNames.map directory.join ∧
      (1 < (Path.components path).length ↔ directory ≠ "") := by
  unfold configPath at found
  rw [discovered] at found
  simp only at found
  split at found
  case h_2 => cases found
  case h_1 file located =>
    obtain rfl := Except.ok.inj found
    obtain ⟨directory, member, name, known, rfl⟩ := Config.exists_directory_of_find? located
    refine ⟨directory, member, List.mem_map_of_mem known, ?_⟩
    rw [(Config.isFileName_of_mem known).components_join, List.length_append, List.length_singleton]
    constructor
    · rintro longer rfl
      simp [Path.components_empty] at longer
    · intro solid
      have := List.length_pos_iff.2 (Path.components_ne_nil solid)
      omega

section Spelling

theorem Selected.path_eq {path given : Path} {project : Project}
    (selected : Selected tree repository (options.withConfig given) path project) : given = path := by
  obtain ⟨config, name, configured, -⟩ := selected
  exact Except.ok.inj configured.found

/-- Of the path of a configuration, settings that cannot be read show nothing but the path. -/
theorem extractConfigOf_relocated (path other : Path) (project : Project) :
    extractConfigOf other project =
      (extractConfigOf path project).mapError (.relocated other) := by
  unfold extractConfigOf
  split
  · rfl
  · cases ExtractConfig.decode _ <;> rfl

variable {name : String} (named : IsFileName name)
include named

/-- A configuration is read alike under its name and under the name with the current directory in
front. -/
theorem Configured.here {config : Config}
    (configured : Configured tree repository (options.withConfig name) name config) :
    Configured tree repository (options.withConfig ("./" ++ name)) ("./" ++ name) config := by
  refine ⟨configured.directory, rfl, ?_⟩
  rw [Config.load_here tree named, configured.loaded]
  rfl

theorem Selected.here {project : Project}
    (selected : Selected tree repository (options.withConfig name) name project) :
    Selected tree repository (options.withConfig ("./" ++ name)) ("./" ++ name) project := by
  obtain ⟨config, chosen, configured, same⟩ := selected
  exact ⟨config, chosen, configured.here named, same⟩

/-- With a `./` before the file name, the patterns are relative to the current directory instead of
the repository; nothing else changes. -/
theorem setup_here
    (same : ∀ project, Selected tree repository (options.withConfig name) name project →
      Schema.load tree project.schema repository = Schema.load tree project.schema ".") :
    setup tree repository (options.withConfig ("./" ++ name)) =
      (setup tree repository (options.withConfig name)).mapError (.relocated ("./" ++ name)) := by
  have load_eq {project : Project}
      (selected : Selected tree repository (options.withConfig name) name project) :
      Schema.load tree project.schema (baseDirectory repository ("./" ++ name)) =
        Schema.load tree project.schema (baseDirectory repository name) := by
    rw [baseDirectory_here named, baseDirectory_name named, same project selected]
  have loaded_here {project : Project} {schema : Schema}
      (loaded : Loaded tree repository (options.withConfig name) name project schema) :
      Loaded tree repository (options.withConfig ("./" ++ name)) ("./" ++ name) project schema :=
    ⟨loaded.selected.here named, (load_eq loaded.selected).trans loaded.loaded⟩
  have tuned_here {project : Project} {schema : Schema} {extractConfig : ExtractConfig}
      (tuned : Tuned tree repository (options.withConfig name) name project schema extractConfig) :
      Tuned tree repository (options.withConfig ("./" ++ name)) ("./" ++ name) project schema
        extractConfig := by
    refine ⟨loaded_here tuned.loaded, ?_⟩
    rw [extractConfigOf_relocated name, tuned.tuned]
    rfl
  cases ended : setup tree repository (options.withConfig name) with
  | ok search =>
      obtain ⟨rfl, path, project, tuned, compiled⟩ := setup_eq_ok_iff.1 ended
      obtain rfl := tuned.loaded.selected.path_eq
      exact setup_eq_ok_iff.2 ⟨rfl, _, project, tuned_here tuned, compiled⟩
  | error error =>
      obtain ⟨stage, fails⟩ := setup_eq_error_iff.1 ended
      suffices fails' : SetupFailsAt tree repository (options.withConfig ("./" ++ name)) stage
          (error.relocated ("./" ++ name)) from fails'.setup_eq
      cases fails with
      | repository missing => exact .repository missing
      | discovery directory failed => cases failed
      | loading directory found failed =>
          obtain rfl := Except.ok.inj found
          refine .loading directory rfl ?_
          rw [Config.load_here tree named, failed]
          rfl
      | project configured failed =>
          obtain rfl := Except.ok.inj configured.found
          refine .project (configured.here named) ?_
          rw [Config.relocated_of_select failed]
          exact failed
      | schema selected failed =>
          obtain rfl := selected.path_eq
          exact .schema (selected.here named) ((load_eq selected).trans failed)
      | extractConfig loaded failed =>
          obtain rfl := loaded.selected.path_eq
          refine .extractConfig (loaded_here loaded) ?_
          rw [extractConfigOf_relocated name, failed]
          rfl
      | patterns tuned failed =>
          obtain rfl := tuned.loaded.selected.path_eq
          obtain ⟨pattern, cause, rfl⟩ := withPatterns_error failed
          exact .patterns (tuned_here tuned) failed

end Spelling

/-- The patterns of a schema stand for files in the base directory. It is the directory of the
configuration, however the path of the configuration is written, with one exception: where the path
is a file name alone (as the one that is looked for in the empty path is), it is the repository. So
a file name and the same name after `./` do the same where the repository and the current directory
hold the same schema. -/
theorem setup_relative_to_base (tree : FileTree) (repository : Path) (options : SearchOptions) :
    (∀ path project, Selected tree repository options path project →
      (∀ search, setup tree repository options = .ok search →
        Schema.load tree project.schema (baseDirectory repository path) = .ok search.schema) ∧
      (∀ error, Schema.load tree project.schema (baseDirectory repository path) = .error error →
        setup tree repository options = .error (.schema error)) ∧
      (tree.locate (baseDirectory repository path) = tree.directoryOf path ↔
        1 < (Path.components path).length ∨ tree.locate repository = tree.locate ".") ∧
      (options.config = none → ∃ directory ∈ repository.ancestors,
        path ∈ Config.fileNames.map directory.join ∧
          (1 < (Path.components path).length ↔ directory ≠ ""))) ∧
    (∀ name, IsFileName name →
      (∀ project, Selected tree repository (options.withConfig name) name project →
        Schema.load tree project.schema repository = Schema.load tree project.schema ".") →
      setup tree repository (options.withConfig ("./" ++ name)) =
        (setup tree repository (options.withConfig name)).mapError (.relocated ("./" ++ name))) := by
  refine ⟨fun path project selected => ⟨?_, ?_, ?_, ?_⟩, fun name named => setup_here named⟩
  · intro search ended
    obtain ⟨-, path', project', tuned, -⟩ := setup_eq_ok_iff.1 ended
    obtain ⟨rfl, rfl⟩ := selected.unique tuned.loaded.selected
    exact tuned.loaded.loaded
  · intro error failed
    exact (SetupFailsAt.schema selected failed).setup_eq
  · obtain ⟨config, name, configured, -⟩ := selected
    exact locate_baseDirectory_iff configured.loaded
  · obtain ⟨config, name, configured, -⟩ := selected
    exact exists_directory_of_configPath configured.found

/-- A configuration with a schema beside it, and a schema of the same name in a repository below. -/
def siblingTree : FileTree :=
  { root :=
      [("x.json", .file "\x7b\"schema\":\"s.graphql\"\x7d".toUTF8),
       ("s.graphql", .file "type Query\x7ba:Int\x7d".toUTF8),
       ("repo", .directory [("s.graphql", .file "type Query\x7bb:Int\x7d".toUTF8)])] }

/-- The setup of a search in a repository of the tree. -/
theorem setup_siblingTree {repository path : Path} (file : Path) {field : String}
    (directory : siblingTree.isDirectory repository = true)
    (plain : (Config.load siblingTree path).toOption.any (fun config =>
      (config.select none).toOption.any (·.2.isPlain "s.graphql")) = true)
    (matched : (Schema.matchedFiles siblingTree (baseDirectory repository path)
      "s.graphql").toOption = some [file])
    (read : (Schema.stepsOfFile siblingTree file).toOption.any (fun steps =>
      ((Schema.ofSteps steps).type? "Query").map (·.fields.keys) == some [field]) = true) :
    ∃ search, setup siblingTree repository { config := some path } = .ok search ∧
      (search.schema.type? "Query").map (·.fields.keys) = some [field] := by
  obtain ⟨steps, read, declared⟩ := exists_ok_of_any read
  obtain ⟨project, selected, plain⟩ : ∃ project,
      Selected siblingTree repository { config := some path } path project ∧
        project.isPlain "s.graphql" = true := exists_selected_of_isPlain directory rfl plain
  have ready := ready_of_isPlain selected plain (eq_ok_of_toOption matched) read
  exact ⟨_, setup_eq_ok_iff.2 ready, eq_of_beq declared⟩

theorem setup_siblingTree_name :
    ∃ search, setup siblingTree "repo" { config := some "x.json" } = .ok search ∧
      (search.schema.type? "Query").map (·.fields.keys) = some ["b"] := by
  apply setup_siblingTree "repo/s.graphql" <;> decide +kernel

theorem setup_siblingTree_here :
    ∃ search, setup siblingTree "repo" { config := some "./x.json" } = .ok search ∧
      (search.schema.type? "Query").map (·.fields.keys) = some ["a"] := by
  apply setup_siblingTree "s.graphql" <;> decide +kernel

theorem base_of_file_name_is_repository :
    siblingTree.locate (baseDirectory "repo" "x.json") ≠ siblingTree.directoryOf "x.json" ∧
    (∃ search, setup siblingTree "repo" { config := some "x.json" } = .ok search ∧
      (search.schema.type? "Query").map (·.fields.keys) = some ["b"]) ∧
    ∃ search, setup siblingTree "repo" { config := some "./x.json" } = .ok search ∧
      (search.schema.type? "Query").map (·.fields.keys) = some ["a"] := by
  refine ⟨?_, setup_siblingTree_name, setup_siblingTree_here⟩
  intro same
  have names := congrArg (fun found => found.toOption.map Prod.snd) same
  revert names
  decide +kernel

theorem setup_relative_to_base_here :
    siblingTree.locate (baseDirectory "repo" "./x.json") = siblingTree.directoryOf "./x.json" ∧
    setup siblingTree "." { config := some "./x.json" } =
      (setup siblingTree "." { config := some "x.json" }).mapError (.relocated "./x.json") := by
  constructor
  · obtain ⟨search, ended, -⟩ := setup_siblingTree_here
    obtain ⟨-, path, project, tuned, -⟩ := setup_eq_ok_iff.1 ended
    have selected : Selected siblingTree "repo" (({} : SearchOptions).withConfig "./x.json") path
        project := tuned.loaded.selected
    obtain rfl := selected.path_eq
    exact ((setup_relative_to_base siblingTree "repo" _).1 _ project selected).2.2.1.2
      (.inl (by decide))
  · exact (setup_relative_to_base siblingTree "." {}).2 "x.json" (by decide) fun _ _ => rfl

end Search

end FieldUsage
