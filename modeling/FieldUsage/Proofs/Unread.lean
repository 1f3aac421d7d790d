import FieldUsage.Proofs.Glob.Expand
import FieldUsage.Proofs.Schema.Files
import FieldUsage.Proofs.Stages

/-!
Files that the setup of a search does not read. It reads the configuration and the files of the
schema; it can be done in a tree of files exactly if it can be done in the tree without other files,
and then it is the same. So two trees that differ in such files alone have the same setup, whatever
the files are and whether they are there.
-/

namespace FieldUsage

namespace Search

variable {tree other : FileTree} {repository : Path} {options : SearchOptions}

/-- Two trees agree in the repository and in its configuration. -/
structure AgreeOnConfig (tree other : FileTree) (repository : Path) (options : SearchOptions) :
    Prop where
  directory : other.isDirectory repository = tree.isDirectory repository
  found : configPath other repository options = configPath tree repository options
  config : ∀ path, configPath tree repository options = .ok path →
    ∀ text, other.readText path = .ok text ↔ tree.readText path = .ok text

theorem AgreeOnConfig.symm (agree : AgreeOnConfig tree other repository options) :
    AgreeOnConfig other tree repository options where
  directory := agree.directory.symm
  found := agree.found.symm
  config path found text := (agree.config path (agree.found.symm.trans found) text).symm

/-- Trees that agree in the configuration lead to the same project. -/
theorem AgreeOnConfig.selected (agree : AgreeOnConfig tree other repository options) {path : Path}
    {project : Project} (selected : Selected tree repository options path project) :
    Selected other repository options path project := by
  obtain ⟨config, name, ⟨directory, found, loaded⟩, chosen⟩ := selected
  refine ⟨config, name, ⟨agree.directory.trans directory, agree.found.trans found, ?_⟩, chosen⟩
  unfold Config.load at loaded ⊢
  cases read : tree.readText path with
  | error fault =>
      rw [read] at loaded
      cases loaded
  | ok text =>
      rw [read] at loaded
      rw [(agree.config path found text).2 read]
      exact loaded

/-- Moreover, they agree in the files of the schema. -/
structure AgreeOnSetup (tree other : FileTree) (repository : Path) (options : SearchOptions) :
    Prop extends AgreeOnConfig tree other repository options where
  matched : ∀ path project, Selected tree repository options path project →
    ∀ pattern ∈ project.schema.patterns,
      Schema.matchedFiles other (baseDirectory repository path) pattern =
        Schema.matchedFiles tree (baseDirectory repository path) pattern
  texts : ∀ path project, Selected tree repository options path project →
    ∀ pattern ∈ project.schema.patterns, ∀ files,
      Schema.matchedFiles tree (baseDirectory repository path) pattern = .ok files →
      ∀ file ∈ files, ∀ text, other.readText file = .ok text ↔ tree.readText file = .ok text

namespace AgreeOnSetup

variable (agree : AgreeOnSetup tree other repository options)
include agree

theorem symm : AgreeOnSetup other tree repository options where
  toAgreeOnConfig := agree.toAgreeOnConfig.symm
  matched path project selected pattern known :=
    (agree.matched path project (agree.toAgreeOnConfig.symm.selected selected) pattern known).symm
  texts path project selected pattern known files matched file member text := by
    have back := agree.toAgreeOnConfig.symm.selected selected
    rw [agree.matched path project back pattern known] at matched
    exact (agree.texts path project back pattern known files matched file member text).symm

/-- Trees that agree in the files of a schema give the same schema. -/
theorem load_eq {path : Path} {project : Project} {schema : Schema}
    (selected : Selected tree repository options path project)
    (loaded : Schema.load tree project.schema (baseDirectory repository path) = .ok schema) :
    Schema.load other project.schema (baseDirectory repository path) = .ok schema := by
  have files : Schema.files other project.schema (baseDirectory repository path) =
      Schema.files tree project.schema (baseDirectory repository path) := by
    unfold Schema.files
    rw [mapM_congr (agree.matched path project selected)]
  unfold Schema.load at loaded ⊢
  obtain ⟨listed, found, read⟩ := bind_eq_ok_iff.1 loaded
  obtain ⟨steps, read, made⟩ := bind_eq_ok_iff.1 read
  have same : ∀ file ∈ listed, ∀ steps, Schema.stepsOfFile tree file = .ok steps →
      Schema.stepsOfFile other file = .ok steps := by
    intro file member steps read
    obtain ⟨pattern, known, matched, here, inside⟩ := Schema.exists_of_mem_files found member
    have texts := agree.texts path project selected pattern known matched here file inside
    unfold Schema.stepsOfFile at read ⊢
    cases text : tree.readText file with
    | error fault =>
        rw [text] at read
        cases read
    | ok text' =>
        rw [text] at read
        rw [(texts text').2 text]
        exact read
  rw [files, found]
  exact bind_eq_ok_iff.2 ⟨listed, rfl, bind_eq_ok_iff.2 ⟨steps, mapM_eq_ok_of_imp same read, made⟩⟩

/-- A search that can be set up in one tree is the same one in the other. -/
theorem ready {search : Search} (ready : Ready tree repository options search) :
    Ready other repository options search := by
  obtain ⟨here, path, project, ⟨⟨selected, loaded⟩, tuned⟩, compiled⟩ := ready
  exact ⟨here, path, project, ⟨⟨agree.toAgreeOnConfig.selected selected,
    agree.load_eq selected loaded⟩, tuned⟩, compiled⟩

end AgreeOnSetup

/-- The paths at which a configuration is looked for. -/
def configCandidates (repository : Path) (options : SearchOptions) : List Path :=
  match options.config with
  | some path => [path]
  | none => repository.ancestors.flatMap fun directory => Config.fileNames.map directory.join

theorem mem_configCandidates {path : Path} (found : configPath tree repository options = .ok path) :
    path ∈ configCandidates repository options := by
  unfold configPath at found
  unfold configCandidates
  cases given : options.config with
  | some other =>
      rw [given] at found
      obtain rfl := Except.ok.inj found
      exact List.mem_singleton_self _
  | none =>
      rw [given] at found
      dsimp only at found ⊢
      cases located : Config.find? tree repository with
      | none =>
          rw [located] at found
          cases found
      | some file =>
          rw [located] at found
          obtain rfl := Except.ok.inj found
          obtain ⟨directory, above, name, known, rfl⟩ := Config.exists_directory_of_find? located
          exact List.mem_flatMap.2 ⟨directory, above, List.mem_map_of_mem known⟩

/-- Hidden files are neither configurations nor files of the schema. -/
structure Unread (tree : FileTree) (hidden : List String → Bool) (repository : Path)
    (options : SearchOptions) : Prop where
  hides : tree.hidesFiles hidden = true
  config : ∀ path ∈ configCandidates repository options, tree.leadsTo hidden path = false
  schema : ∀ path project, Selected tree repository options path project →
    ∀ pattern ∈ project.schema.patterns, ∀ files,
      Glob.expand tree ((baseDirectory repository path).join pattern) = .ok files →
      ∀ file ∈ files, tree.leadsTo hidden file = false

namespace Unread

variable {hidden : List String → Bool} (unread : Unread tree hidden repository options)
include unread

/-- Hidden files are no configurations, so the same one is found without them. -/
theorem configPath_eq :
    configPath (tree.without hidden) repository options = configPath tree repository options := by
  have seen := unread.config
  unfold configPath configCandidates at *
  cases given : options.config with
  | some path => rfl
  | none =>
      rw [given] at seen
      have here : ∀ directory ∈ repository.ancestors,
          Config.inDirectory? (tree.without hidden) directory =
            Config.inDirectory? tree directory := by
        intro directory above
        unfold Config.inDirectory?
        rw [← List.head?_filter, ← List.head?_filter]
        congr 1
        apply List.filter_congr
        intro path candidate
        rw [FileTree.isFile_without unread.hides,
          seen path (List.mem_flatMap.2 ⟨directory, above, candidate⟩), Bool.not_false, Bool.and_true]
      have found : Config.find? (tree.without hidden) repository = Config.find? tree repository := by
        unfold Config.find?
        rw [← List.head?_filterMap, ← List.head?_filterMap, List.filterMap_congr here]
      dsimp only
      rw [found]

/-- Hidden files are no schema files, so a pattern stands for the same files without them. -/
theorem matchedFiles_eq {path : Path} {project : Project}
    (selected : Selected tree repository options path project) {pattern : String}
    (known : pattern ∈ project.schema.patterns) :
    Schema.matchedFiles (tree.without hidden) (baseDirectory repository path) pattern =
      Schema.matchedFiles tree (baseDirectory repository path) pattern := by
  have expanded := Glob.expand_without unread.hides ((baseDirectory repository path).join pattern)
  unfold Schema.matchedFiles
  generalize Glob.expand (tree.without hidden) _ = there at expanded ⊢
  cases found : Glob.expand tree ((baseDirectory repository path).join pattern) with
  | error error =>
      rw [found] at expanded
      cases there with
      | error => cases expanded; rfl
      | ok => cases expanded
  | ok files =>
      have seen := unread.schema path project selected pattern known files found
      have kept : files.filter (tree.without hidden).isFile = files.filter tree.isFile := by
        apply List.filter_congr
        intro file member
        rw [FileTree.isFile_without unread.hides, seen file member, Bool.not_false, Bool.and_true]
      rw [found] at expanded
      cases there with
      | error => cases expanded
      | ok others =>
          have same : others.filter (tree.without hidden).isFile = files.filter tree.isFile :=
            (Except.ok.inj expanded).trans kept
          dsimp only
          rw [same]

theorem agree : AgreeOnSetup tree (tree.without hidden) repository options where
  directory := FileTree.isDirectory_without unread.hides repository
  found := unread.configPath_eq
  config path found :=
    FileTree.readText_without unread.hides (unread.config path (mem_configCandidates found))
  matched path project selected pattern known := unread.matchedFiles_eq selected known
  texts path project selected pattern known files matched file member := by
    apply FileTree.readText_without unread.hides
    unfold Schema.matchedFiles at matched
    split at matched
    case h_1 => cases matched
    case h_2 paths expanded =>
      refine unread.schema path project selected pattern known paths expanded file ?_
      split at matched
      · cases matched
      · cases matched
        exact List.mem_of_mem_filter member

/-- The setup is the same in trees that are the same without files which it does not read. -/
theorem ready (others : Unread other hidden repository options)
    (same : other.without hidden = tree.without hidden) {search : Search}
    (ready : Ready tree repository options search) : Ready other repository options search := by
  have without := unread.agree.ready ready
  rw [← same] at without
  exact others.agree.symm.ready without

end Unread

end Search

end FieldUsage
