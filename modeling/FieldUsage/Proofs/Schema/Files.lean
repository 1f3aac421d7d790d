import FieldUsage.Config.Load
import FieldUsage.Proofs.Dict
import FieldUsage.Proofs.File.Location
import FieldUsage.Proofs.Path.Order
import FieldUsage.Proofs.Traversal
import FieldUsage.Schema.Load
import Mathlib.Data.List.Forall2
import Mathlib.Data.List.Nodup

/-!
The files of a schema. Each pattern stands for some files, and the files of the schema are those of
all patterns in the order of their paths, each path once. So only the set of the patterns counts: in
another order, or with repetitions, they lead to the same paths and to the same schema, although
what is read later overrides what was read before.
-/

namespace FieldUsage

namespace SchemaConfig

theorem ne_empty_of_isAddress {pattern : String} (address : isAddress pattern = true) :
    pattern ≠ "" := by
  rintro rfl
  revert address
  decide

theorem source?_eq_none_iff {schema : SchemaConfig} :
    schema.source? = none ↔
      schema.isRemote = false ∧ ∀ pattern ∈ schema.patterns, isAddress pattern = false := by
  cases schema with
  | remote url headers => simp [source?, isRemote]
  | path pattern => simp [source?, isRemote, patterns]
  | paths items => simp [source?, isRemote, patterns]

/-- A schema comes from the server to ask, or from the first address among its patterns. -/
theorem source?_eq_some {schema : SchemaConfig} {source : String}
    (served : schema.source? = some source) :
    (∃ headers, schema = .remote source headers) ∨
      isAddress source = true ∧ ∃ before after, schema.patterns = before ++ source :: after ∧
        ∀ earlier ∈ before, isAddress earlier = false := by
  have first {patterns : List String} (found : patterns.find? isAddress = some source) :
      isAddress source = true ∧ ∃ before after, patterns = before ++ source :: after ∧
        ∀ earlier ∈ before, isAddress earlier = false := by
    rw [List.find?_eq_some_iff_append] at found
    obtain ⟨address, before, after, split, others⟩ := found
    exact ⟨address, before, after, split, fun earlier member => by simpa using others earlier member⟩
  cases schema with
  | remote url headers =>
      obtain rfl := Option.some.inj served
      exact .inl ⟨headers, rfl⟩
  | path pattern => exact .inr (first served)
  | paths patterns => exact .inr (first served)

end SchemaConfig

/-- The projects of a configuration that was accepted have patterns, unless there is a server to
ask. -/
theorem Config.patterns_ne_nil_of_ofText {path : Path} {text : List Char} {config : Config}
    (read : ofText path text = .ok config) {name : String} {project : Project}
    (chosen : config.project? name = some project) (here : project.schema.isRemote = false) :
    project.schema.patterns ≠ [] := by
  have sound : faultIn? config.projects.entries = none := by
    unfold ofText at read
    dsimp only at read
    split at read
    · cases read
    · split at read
      · cases read
      · split at read
        · cases read
        · cases read
          assumption
  have member : (name, project) ∈ config.projects.entries :=
    (config.projects.mem_entries_iff name project).2 chosen
  have faultless := List.findSome?_eq_none_iff.1 sound _ member
  intro empty
  simp [Project.fault?, here, empty] at faultless

namespace Schema

/-! Sorting and dropping. -/

theorem mem_of_mem_dropRepeated {paths : List Path} {path : Path}
    (member : path ∈ dropRepeated paths) : path ∈ paths := by
  fun_induction dropRepeated paths with
  | case1 => exact member
  | case2 => exact member
  | case3 first second rest same ih =>
      rcases List.mem_cons.1 (ih member) with rfl | later
      · exact List.mem_cons_self
      · exact List.mem_cons_of_mem first (List.mem_cons_of_mem second later)
  | case4 first second rest other ih =>
      rcases List.mem_cons.1 member with rfl | later
      · exact List.mem_cons_self
      · exact List.mem_cons_of_mem first (ih later)

/-- For every path that is dropped, the same path stays. -/
theorem exists_mem_dropRepeated {paths : List Path} {path : Path} (member : path ∈ paths) :
    ∃ other ∈ dropRepeated paths, Path.key other = Path.key path := by
  fun_induction dropRepeated paths generalizing path with
  | case1 => cases member
  | case2 single => exact ⟨path, member, rfl⟩
  | case3 first second rest same ih =>
      rcases List.mem_cons.1 member with rfl | later
      · exact ih List.mem_cons_self
      · rcases List.mem_cons.1 later with rfl | later
        · obtain ⟨other, stays, equal⟩ := ih List.mem_cons_self
          exact ⟨other, stays, equal.trans (Path.same_iff.1 same)⟩
        · exact ih (List.mem_cons_of_mem first later)
  | case4 first second rest different ih =>
      rcases List.mem_cons.1 member with rfl | later
      · exact ⟨path, List.mem_cons_self, rfl⟩
      · obtain ⟨other, stays, equal⟩ := ih later
        exact ⟨other, List.mem_cons_of_mem first stays, equal⟩

theorem pairwise_dropRepeated {paths : List Path}
    (sorted : paths.Pairwise fun first second => Path.key first ≤ Path.key second) :
    (dropRepeated paths).Pairwise fun first second => Path.key first < Path.key second := by
  fun_induction dropRepeated paths with
  | case1 => exact .nil
  | case2 path => exact List.pairwise_singleton _ path
  | case3 first second rest same ih =>
      apply ih
      exact sorted.sublist (.cons_cons first (List.sublist_cons_self second rest))
  | case4 first second rest different ih =>
      obtain ⟨above, tail⟩ := List.pairwise_cons.1 sorted
      have step : Path.key first < Path.key second := by
        have apart : Path.key first ≠ Path.key second := fun equal =>
          different (Path.same_iff.2 equal)
        exact lt_of_le_of_ne (above second List.mem_cons_self) apart
      refine List.pairwise_cons.2 ⟨?_, ih tail⟩
      intro later member
      rcases List.mem_cons.1 (mem_of_mem_dropRepeated member) with rfl | member
      · exact step
      · exact step.trans_le ((List.pairwise_cons.1 tail).1 later member)

/-- Lists in strictly increasing order that lead to the same paths agree path by path. -/
theorem forall₂_key_of_pairwise {first second : List Path}
    (increasing : first.Pairwise fun a b => Path.key a < Path.key b)
    (increasing' : second.Pairwise fun a b => Path.key a < Path.key b)
    (members : ∀ key, key ∈ first.map Path.key ↔ key ∈ second.map Path.key) :
    List.Forall₂ (fun a b => Path.key a = Path.key b) first second := by
  have sorted : (first.map Path.key).Pairwise (· < ·) := List.pairwise_map.2 increasing
  have sorted' : (second.map Path.key).Pairwise (· < ·) := List.pairwise_map.2 increasing'
  have perm : (first.map Path.key).Perm (second.map Path.key) :=
    (List.perm_ext_iff_of_nodup sorted.nodup sorted'.nodup).2 members
  have equal : first.map Path.key = second.map Path.key :=
    perm.eq_of_pairwise (fun a b _ _ below above => absurd above below.asymm) sorted sorted'
  rwa [← List.forall₂_eq_eq_eq, List.forall₂_map_left_iff, List.forall₂_map_right_iff] at equal

/-! What the patterns stand for. -/

/-- A file that a pattern stands for. -/
def Matches (tree : FileTree) (base : Path) (pattern : String) (path : Path) : Prop :=
  ∃ paths, Glob.expand tree (base.join pattern) = .ok paths ∧ path ∈ paths ∧
    tree.isFile path = true

variable {tree : FileTree} {base : Path}

theorem exists_of_mem_files {schema : SchemaConfig} {listed : List Path}
    (found : files tree schema base = .ok listed) {file : Path} (member : file ∈ listed) :
    ∃ pattern ∈ schema.patterns, ∃ matched, matchedFiles tree base pattern = .ok matched ∧
      file ∈ matched := by
  unfold files at found
  split at found
  · cases found
  · obtain ⟨lists, read, made⟩ := bind_eq_ok_iff.1 found
    cases made
    have member := List.mem_mergeSort.1 (mem_of_mem_dropRepeated member)
    obtain ⟨matched, here, inside⟩ := List.mem_flatten.1 member
    obtain ⟨pattern, known, same⟩ := exists_of_mem_mapM read here
    exact ⟨pattern, known, matched, same, inside⟩

theorem mem_matchedFiles_iff {pattern : String} {path : Path} :
    path ∈ valuesOf (matchedFiles tree base pattern) ↔ Matches tree base pattern path := by
  unfold matchedFiles Matches
  cases Glob.expand tree (base.join pattern) with
  | error error => simp [valuesOf]
  | ok paths =>
      dsimp only
      split
      case h_1 none =>
        have kept : path ∈ paths.filter tree.isFile ↔ _ := List.mem_filter
        rw [none] at kept
        simp [valuesOf, ← kept]
      case h_2 => simp [valuesOf]

theorem matches_of_any {pattern : String} {path : Path}
    (found : (Glob.expand tree (base.join pattern)).toOption.any (·.contains path) = true)
    (file : tree.isFile path = true) : Matches tree base pattern path := by
  obtain ⟨paths, expanded, member⟩ := exists_ok_of_any found
  exact ⟨paths, expanded, by simpa using member, file⟩

/-- A pattern is accepted if it stands for some file. -/
theorem matchedFiles_isOk_iff {pattern : String} :
    (∃ found, matchedFiles tree base pattern = .ok found) ↔
      ∃ path, Matches tree base pattern path := by
  constructor
  · rintro ⟨found, accepted⟩
    have solid : found ≠ [] := by
      unfold matchedFiles at accepted
      split at accepted
      · cases accepted
      · split at accepted
        · cases accepted
        · cases accepted
          assumption
    obtain ⟨path, rest, rfl⟩ := List.exists_cons_of_ne_nil solid
    refine ⟨path, mem_matchedFiles_iff.1 ?_⟩
    rw [accepted]
    exact List.mem_cons_self
  · rintro ⟨path, found⟩
    have member := mem_matchedFiles_iff.2 found
    obtain ⟨values, accepted, -⟩ := mem_valuesOf_iff.1 member
    exact ⟨values, accepted⟩

/-- The files that patterns stand for, in order and without repetitions. -/
def union (tree : FileTree) (base : Path) (patterns : List String) : List Path :=
  dropRepeated ((patterns.flatMap fun pattern =>
    valuesOf (matchedFiles tree base pattern)).mergeSort Path.le)

theorem files_eq_gather {schema : SchemaConfig} (here : schema.source? = none) :
    files tree schema base = (gather (matchedFiles tree base) schema.patterns).map
      fun found => dropRepeated (found.mergeSort Path.le) := by
  unfold files gather
  rw [here]
  cases schema.patterns.mapM (matchedFiles tree base) <;> rfl

/-- The files of a schema are those of its patterns, each of which has to stand for some. -/
theorem files_eq_ok_iff {schema : SchemaConfig} {found : List Path} :
    files tree schema base = .ok found ↔
      schema.source? = none ∧ (∀ pattern ∈ schema.patterns, ∃ path, Matches tree base pattern path) ∧
        found = union tree base schema.patterns := by
  cases served : schema.source? with
  | some source =>
      unfold files
      simp [served]
  | none =>
      rw [files_eq_gather served]
      simp only [true_and, ← matchedFiles_isOk_iff]
      cases gathered : gather (matchedFiles tree base) schema.patterns with
      | error error =>
          have refused : ¬∀ pattern ∈ schema.patterns,
              ∃ given, matchedFiles tree base pattern = .ok given := by
            intro accepted
            have := gather_eq_ok_iff.2 ⟨accepted, rfl⟩
            rw [gathered] at this
            cases this
          simp [Except.map, refused]
      | ok values =>
          obtain ⟨accepted, rfl⟩ := gather_eq_ok_iff.1 gathered
          simp only [Except.map, Except.ok.injEq, and_iff_right accepted]
          exact eq_comm

/-- A server is reported exactly if the schema has one. -/
theorem files_eq_remote_iff {schema : SchemaConfig} {source : String} :
    files tree schema base = .error (.remote source) ↔ schema.source? = some source := by
  cases served : schema.source? with
  | some server =>
      unfold files
      simp [served]
  | none =>
      have never (pattern : String) :
          matchedFiles tree base pattern ≠ .error (.remote source) := by
        unfold matchedFiles
        split
        · simp
        · split <;> simp
      simp only [reduceCtorEq, iff_false]
      intro failed
      rw [files_eq_gather served] at failed
      cases gathered : gather (matchedFiles tree base) schema.patterns with
      | ok found =>
          rw [gathered] at failed
          cases failed
      | error error =>
          rw [gathered] at failed
          obtain rfl := Except.error.inj failed
          obtain ⟨before, pattern, after, -, -, refused⟩ := gather_eq_error_iff.1 gathered
          exact never pattern refused

theorem mem_union {patterns : List String} {path : Path}
    (member : path ∈ union tree base patterns) :
    ∃ pattern ∈ patterns, Matches tree base pattern path := by
  have sorted := List.mem_mergeSort.1 (mem_of_mem_dropRepeated member)
  obtain ⟨pattern, known, inside⟩ := List.mem_flatMap.1 sorted
  exact ⟨pattern, known, mem_matchedFiles_iff.1 inside⟩

/-- What a pattern stands for is in the union, under some spelling. -/
theorem exists_mem_union {patterns : List String} {pattern : String} (known : pattern ∈ patterns)
    {path : Path} (found : Matches tree base pattern path) :
    ∃ other ∈ union tree base patterns, Path.key other = Path.key path := by
  apply exists_mem_dropRepeated
  rw [List.mem_mergeSort]
  exact List.mem_flatMap.2 ⟨pattern, known, mem_matchedFiles_iff.2 found⟩

/-- No path comes twice, under whatever spellings. -/
theorem pairwise_union (patterns : List String) :
    (union tree base patterns).Pairwise fun a b => Path.key a < Path.key b :=
  pairwise_dropRepeated (Path.pairwise_mergeSort_le _)

/-- The same patterns, in any order and number, stand for the same paths. -/
theorem forall₂_union {first second : List String}
    (members : ∀ pattern, pattern ∈ second ↔ pattern ∈ first) :
    List.Forall₂ (fun a b => Path.key a = Path.key b) (union tree base first)
      (union tree base second) := by
  have within {first second : List String} (subset : ∀ pattern ∈ first, pattern ∈ second)
      {key : List (ℕ ×ₗ String)} (member : key ∈ (union tree base first).map Path.key) :
      key ∈ (union tree base second).map Path.key := by
    obtain ⟨path, listed, rfl⟩ := List.mem_map.1 member
    obtain ⟨pattern, known, found⟩ := mem_union listed
    obtain ⟨other, listed, equal⟩ := exists_mem_union (subset pattern known) found
    exact List.mem_map.2 ⟨other, listed, equal⟩
  apply forall₂_key_of_pairwise (pairwise_union first) (pairwise_union second)
  intro key
  exact ⟨within fun pattern => (members pattern).2, within fun pattern => (members pattern).1⟩

/-! Reading the files. -/

/-- What a file declares does not depend on how its path is written. -/
theorem stepsOfFile_congr {first second : Path} (same : Path.key first = Path.key second)
    (file : tree.isFile first = true) (file' : tree.isFile second = true) {steps : List Step}
    (read : stepsOfFile tree first = .ok steps) : stepsOfFile tree second = .ok steps := by
  have components := Path.key_eq_iff.1 same
  have format : formatOf first = formatOf second := by
    unfold formatOf Path.extension? Path.fileName?
    rw [components]
  unfold stepsOfFile at read ⊢
  rw [← FileTree.readText_congr components file file', ← format]
  cases contents : tree.readText first with
  | error fault =>
      rw [contents] at read
      cases read
  | ok text =>
      simp only [contents, Step.ofSource] at read ⊢
      cases declared : Step.ofText? (formatOf first) text with
      | none =>
          rw [declared] at read
          cases read
      | some found =>
          rw [declared] at read
          exact read

theorem mapM_stepsOfFile_congr {first second : List Path} {steps : List (List Step)}
    (same : List.Forall₂ (fun a b => Path.key a = Path.key b) first second)
    (regular : ∀ path ∈ first, tree.isFile path = true)
    (regular' : ∀ path ∈ second, tree.isFile path = true)
    (read : first.mapM (stepsOfFile tree) = .ok steps) :
    second.mapM (stepsOfFile tree) = .ok steps := by
  induction same generalizing steps with
  | nil => exact read
  | cons equal _ ih =>
      obtain ⟨file, others⟩ := List.forall_mem_cons.1 regular
      obtain ⟨file', others'⟩ := List.forall_mem_cons.1 regular'
      rw [List.mapM_cons, bind_eq_ok_iff] at read
      obtain ⟨here, declared, read⟩ := read
      obtain ⟨later, rest, made⟩ := bind_eq_ok_iff.1 read
      rw [List.mapM_cons, stepsOfFile_congr equal file file' declared, ih others others' rest]
      exact made

theorem isFile_of_mem_union {patterns : List String} {path : Path}
    (member : path ∈ union tree base patterns) : tree.isFile path = true := by
  obtain ⟨pattern, -, paths, -, -, file⟩ := mem_union member
  exact file

section SamePatterns

variable {schema other : SchemaConfig} (here : other.isRemote = false)
  (members : ∀ pattern, pattern ∈ other.patterns ↔ pattern ∈ schema.patterns)
include here members

theorem files_of_members {found : List Path} (listed : files tree schema base = .ok found) :
    files tree other base = .ok (union tree base other.patterns) := by
  obtain ⟨unserved, matched, -⟩ := files_eq_ok_iff.1 listed
  refine files_eq_ok_iff.2 ⟨?_, fun pattern known => matched pattern ((members pattern).1 known), rfl⟩
  rw [SchemaConfig.source?_eq_none_iff] at unserved ⊢
  exact ⟨here, fun pattern known => unserved.2 pattern ((members pattern).1 known)⟩

/-- The same patterns give the same schema. -/
theorem load_of_members {built : Schema} (loaded : load tree schema base = .ok built) :
    load tree other base = .ok built := by
  unfold load at loaded ⊢
  obtain ⟨found, listed, loaded⟩ := bind_eq_ok_iff.1 loaded
  obtain ⟨steps, read, made⟩ := bind_eq_ok_iff.1 loaded
  obtain ⟨-, -, rfl⟩ := files_eq_ok_iff.1 listed
  have again := mapM_stepsOfFile_congr (forall₂_union members)
    (fun path member => isFile_of_mem_union member) (fun path member => isFile_of_mem_union member)
    read
  rw [files_of_members here members listed]
  exact bind_eq_ok_iff.2 ⟨_, rfl, bind_eq_ok_iff.2 ⟨steps, again, made⟩⟩

end SamePatterns

/-- The files that some patterns stand for: each of them is a file of some pattern, each file of a
pattern is among them under some spelling of its path, and their paths strictly increase. -/
structure IsUnion (tree : FileTree) (base : Path) (patterns : List String) (found : List Path) :
    Prop where
  nonempty : found ≠ []
  increasing : found.Pairwise fun first second => Path.lt first second = true
  matched : ∀ path ∈ found, ∃ pattern ∈ patterns, Matches tree base pattern path
  complete : ∀ pattern ∈ patterns, ∀ path, Matches tree base pattern path →
    ∃ other ∈ found, Path.same other path = true

theorem isUnion_union {patterns : List String} (solid : patterns ≠ [])
    (accepted : ∀ pattern ∈ patterns, ∃ path, Matches tree base pattern path) :
    IsUnion tree base patterns (union tree base patterns) where
  nonempty := by
    obtain ⟨pattern, rest, rfl⟩ := List.exists_cons_of_ne_nil solid
    obtain ⟨path, found⟩ := accepted pattern List.mem_cons_self
    obtain ⟨other, member, -⟩ := exists_mem_union List.mem_cons_self found
    exact List.ne_nil_of_mem member
  increasing := (pairwise_union patterns).imp fun below => Path.lt_iff.2 below
  matched path member := mem_union member
  complete pattern known path found := by
    obtain ⟨other, member, equal⟩ := exists_mem_union known found
    exact ⟨other, member, Path.same_iff.2 equal⟩

/-- The files of a project. They are refused as remote if there is a server to ask or an address
among the patterns, with the server or the first address; otherwise they are found if every pattern
stands for some file, and they are the union of what the patterns stand for. Other patterns that are
the same as a set lead to the same paths and to the same schema. -/
theorem files_sorted_union {path : Path} {text : List Char} {config : Config}
    (read : Config.ofText path text = .ok config) {name : String} {project : Project}
    (chosen : config.project? name = some project) (tree : FileTree) (base : Path) :
    ((∃ source, files tree project.schema base = .error (.remote source)) ↔
      project.schema.isRemote = true ∨
        ∃ pattern ∈ project.schema.patterns, SchemaConfig.isAddress pattern = true) ∧
    (∀ source, files tree project.schema base = .error (.remote source) →
      (∃ headers, project.schema = .remote source headers) ∨
        source ≠ "" ∧ SchemaConfig.isAddress source = true ∧
          ∃ before after, project.schema.patterns = before ++ source :: after ∧
            ∀ earlier ∈ before, SchemaConfig.isAddress earlier = false) ∧
    ((∃ found, files tree project.schema base = .ok found) ↔
      project.schema.isRemote = false ∧
        ∀ pattern ∈ project.schema.patterns, SchemaConfig.isAddress pattern = false ∧
          ∃ path, Matches tree base pattern path) ∧
    (∀ found, files tree project.schema base = .ok found →
      IsUnion tree base project.schema.patterns found) ∧
    ∀ other : SchemaConfig, project.schema.isRemote = false → other.isRemote = false →
      (∀ pattern, pattern ∈ other.patterns ↔ pattern ∈ project.schema.patterns) →
      ((∃ found, files tree other base = .ok found) ↔
        ∃ found, files tree project.schema base = .ok found) ∧
      (∀ found again, files tree project.schema base = .ok found →
        files tree other base = .ok again →
        List.Forall₂ (fun first second => Path.same first second = true) found again) ∧
      ∀ built, load tree other base = .ok built ↔ load tree project.schema base = .ok built := by
  have refused (source : String) : files tree project.schema base = .error (.remote source) ↔
      project.schema.source? = some source := files_eq_remote_iff
  refine ⟨?_, ?_, ?_, ?_, ?_⟩
  · simp only [refused, ← Option.isSome_iff_exists, ← Option.ne_none_iff_isSome, Ne,
      SchemaConfig.source?_eq_none_iff, not_and_or, Bool.not_eq_false, not_forall, exists_prop]
  · intro source served
    rcases SchemaConfig.source?_eq_some ((refused source).1 served) with asked | ⟨address, first⟩
    · exact .inl asked
    · exact .inr ⟨SchemaConfig.ne_empty_of_isAddress address, address, first⟩
  · simp only [files_eq_ok_iff, exists_and_left, exists_eq, and_true,
      SchemaConfig.source?_eq_none_iff, and_assoc, forall_and]
  · intro found listed
    obtain ⟨unserved, accepted, rfl⟩ := files_eq_ok_iff.1 listed
    have here := (SchemaConfig.source?_eq_none_iff.1 unserved).1
    exact isUnion_union (Config.patterns_ne_nil_of_ofText read chosen here) accepted
  · intro other here here' members
    have members' (pattern : String) := (members pattern).symm
    refine ⟨⟨?_, ?_⟩, ?_, fun built => ⟨load_of_members here members', load_of_members here' members⟩⟩
    · rintro ⟨found, listed⟩
      exact ⟨_, files_of_members here members' listed⟩
    · rintro ⟨found, listed⟩
      exact ⟨_, files_of_members here' members listed⟩
    · intro found again listed listed'
      obtain ⟨-, -, rfl⟩ := files_eq_ok_iff.1 listed
      obtain ⟨-, -, rfl⟩ := files_eq_ok_iff.1 listed'
      exact (forall₂_union members).imp fun _ _ equal => Path.same_iff.2 equal

section Overlap

/-- Two files, for one of which two patterns stand, each with a spelling of its own. -/
def overlapTree : FileTree :=
  { root :=
      [("repo", .directory
        [("b.graphql", .file "type B\x7bb:Int\x7d".toUTF8),
         ("a.graphql", .file "type A\x7ba:Int\x7d".toUTF8)])] }

def overlapConfig : List Char :=
  "\x7b\"schema\":[\"b.graphql\",\"./a.graphql\",\"a.graphql\"]\x7d".toList

def overlapPatterns : List String := ["b.graphql", "./a.graphql", "a.graphql"]

theorem matches_overlapTree :
    ∀ pattern ∈ overlapPatterns, SchemaConfig.isAddress pattern = false ∧
      ∃ path, Matches overlapTree "repo" pattern path := by
  simp only [overlapPatterns, List.forall_mem_cons, List.not_mem_nil, false_imp_iff,
    implies_true, and_true]
  refine ⟨⟨?_, "repo/b.graphql", matches_of_any ?_ ?_⟩, ⟨?_, "repo/./a.graphql", matches_of_any ?_ ?_⟩,
    ⟨?_, "repo/a.graphql", matches_of_any ?_ ?_⟩⟩ <;> decide +kernel

theorem files_overlapTree :
    ∃ config project, Config.ofText "graphql.config.json" overlapConfig = .ok config ∧
      config.project? Config.defaultProject = some project ∧
      project.schema.patterns = overlapPatterns ∧
      ∃ found, files overlapTree project.schema "repo" = .ok found ∧
        IsUnion overlapTree "repo" overlapPatterns found := by
  have decoded : (Config.ofText "graphql.config.json" overlapConfig).toOption.any (fun config =>
      (config.project? Config.defaultProject).any fun project =>
        !project.schema.isRemote && project.schema.patterns == overlapPatterns) = true := by
    decide +kernel
  obtain ⟨config, read, decoded⟩ := exists_ok_of_any decoded
  obtain ⟨project, chosen, decoded⟩ := (Option.any_eq_true _ _).1 decoded
  obtain ⟨here, patterns⟩ : project.schema.isRemote = false ∧
      project.schema.patterns = overlapPatterns := by simpa using decoded
  obtain ⟨-, -, accepted, listed, -⟩ := files_sorted_union read chosen overlapTree "repo"
  rw [patterns] at accepted listed
  obtain ⟨found, files⟩ := accepted.2 ⟨here, matches_overlapTree⟩
  exact ⟨config, project, read, chosen, patterns, found, files, listed found files⟩

end Overlap

end Schema

end FieldUsage
