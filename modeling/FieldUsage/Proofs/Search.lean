import FieldUsage.Proofs.Path
import FieldUsage.Proofs.Traversal
import FieldUsage.Search
import Mathlib.Data.List.Basic

/-!
What a search of a repository gives. It goes through the candidates in order and through the
literals of each, and stops at the first one that fails. Nothing is carried from one file to the
next, so a change in one file changes only the usages in that file, which stand together.
-/

namespace FieldUsage

namespace CandidateFilter

/-- All files of a walk are tested, and those that are accepted are sorted. -/
theorem select_eq_ok_iff {filter : CandidateFilter} {tree : FileTree} {root : Path}
    {walked files : List Path} :
    filter.select tree root walked = .ok files ↔
      (∀ path ∈ walked, ∃ keep, filter.accepts tree root path = .ok keep) ∧
        files = (walked.filter fun path => passes (filter.accepts tree root path)).mergeSort
          fun a b => !Text.precedes b a := by
  unfold select
  rw [bind_eq_ok_iff]
  simp only [filterM_eq_ok_iff]
  constructor
  · rintro ⟨_, ⟨tested, rfl⟩, made⟩
    exact ⟨tested, (Except.ok.inj made).symm⟩
  · rintro ⟨tested, rfl⟩
    exact ⟨_, ⟨tested, rfl⟩, rfl⟩

/-- Testing a path fails where its text cannot be read. -/
theorem accepts_error_cases {filter : CandidateFilter} {tree : FileTree} {root path : Path}
    {error : SearchError} (failed : filter.accepts tree root path = .error error) :
    ∃ fault, error = .unreadable (root.join path) fault := by
  unfold accepts at failed
  split at failed
  · cases failed
  · split at failed
    · cases failed
    · split at failed
      · split at failed
        case h_1 => cases failed
        case h_2 fault _ =>
          cases failed
          exact ⟨fault, rfl⟩
      · cases failed

/-- Candidates are not found where there is no directory to walk or the text of a file cannot be
read. -/
theorem candidates_error_cases {filter : CandidateFilter} {tree : FileTree} {root : Path}
    {error : SearchError} (failed : filter.candidates tree root = .error error) :
    (∃ fault, error = .noRoot root fault) ∨
      ∃ path fault, error = .unreadable (root.join path) fault := by
  unfold candidates at failed
  split at failed
  case h_1 fault _ =>
    cases failed
    exact .inl ⟨fault, rfl⟩
  case h_2 =>
    rcases bind_eq_error_iff.1 failed with failed | ⟨_, -, made⟩
    · obtain ⟨path, -, failed⟩ := exists_of_filterM_eq_error failed
      obtain ⟨fault, rfl⟩ := accepts_error_cases failed
      exact .inr ⟨path, fault, rfl⟩
    · cases made

/-- Candidates are in the order of their paths. -/
theorem pairwise_of_candidates {filter : CandidateFilter} {tree : FileTree} {root : Path}
    {files : List Path} (located : filter.candidates tree root = .ok files) :
    files.Pairwise (· ≤ ·) := by
  unfold candidates at located
  split at located
  · cases located
  · obtain ⟨-, rfl⟩ := select_eq_ok_iff.1 located
    exact Text.pairwise_mergeSort _

/-- Accepted files that are in order stay in the order of the walk. -/
theorem candidates_eq_of_pairwise {filter : CandidateFilter} {tree : FileTree} {root : Path}
    {walked found : List Path} (walk : Ignore.walk tree root = .ok walked)
    (accepted : walked.filterM (filter.accepts tree root) = .ok found)
    (sorted : found.Pairwise (· ≤ ·)) : filter.candidates tree root = .ok found := by
  have kept := List.mergeSort_of_pairwise (sorted.imp (Text.not_precedes_iff _ _).2)
  unfold candidates select
  rw [walk]
  change (walked.filterM (filter.accepts tree root)).bind _ = _
  rw [accepted]
  exact congrArg Except.ok kept

end CandidateFilter

/-- Paths in order are the ones before a path, the ones that are this path, and the ones after it.
Nothing is said about how often the path is there. -/
theorem exists_around {files : List Path} (sorted : files.Pairwise (· ≤ ·)) (path : Path) :
    ∃ below here above, files = below ++ here ++ above ∧ (∀ file ∈ below, file < path) ∧
      (∀ file ∈ here, file = path) ∧ ∀ file ∈ above, path < file := by
  induction files with
  | nil => exact ⟨[], [], [], by simp⟩
  | cons first rest ih =>
      obtain ⟨least, sorted⟩ := List.pairwise_cons.1 sorted
      obtain ⟨below, here, above, rfl, smaller, equal, larger⟩ := ih sorted
      by_cases before : first < path
      · exact ⟨first :: below, here, above, rfl, List.forall_mem_cons.2 ⟨before, smaller⟩, equal,
          larger⟩
      -- Nothing is below the path any more, as the files that follow are not below the first one.
      have none : below = [] := by
        refine List.eq_nil_iff_forall_not_mem.2 fun file member => ?_
        have := least file (by simp [member])
        exact String.not_lt.2 (String.le_trans (String.not_lt.1 before) this) (smaller file member)
      subst none
      by_cases after : path < first
      · have none : here = [] := by
          refine List.eq_nil_iff_forall_not_mem.2 fun file member => ?_
          have := least file (by simp [member])
          exact String.not_lt.2 this (equal file member ▸ after)
        subst none
        exact ⟨[], [], first :: above, rfl, by simp, by simp,
          List.forall_mem_cons.2 ⟨after, larger⟩⟩
      · have same := String.le_antisymm (String.not_lt.1 after) (String.not_lt.1 before)
        exact ⟨[], first :: here, above, rfl, by simp, List.forall_mem_cons.2 ⟨same, equal⟩, larger⟩

namespace Literal

/-- The usages in a literal are where the literal is. -/
theorem place_of_mem_search {literal : Literal} {schema : Schema} {target : Target}
    {usages : List Usage} (searched : literal.search schema target = .ok usages) :
    ∀ usage ∈ usages, usage.path = literal.path ∧ usage.line = literal.line := by
  unfold search usages? at searched
  cases parsed : GraphQL.Document.parse? literal.raw with
  | none => simp [parsed] at searched
  | some document =>
      simp only [parsed, Option.map_some, Except.ok.injEq] at searched
      subst searched
      intro usage member
      obtain ⟨_, -, rfl⟩ := List.mem_map.1 member
      exact ⟨rfl, rfl⟩

/-- The search of a literal fails where the literal is no document. -/
theorem eq_queryParse_of_search {literal : Literal} {schema : Schema} {target : Target}
    {error : SearchError} (failed : literal.search schema target = .error error) :
    error = .queryParse literal.path literal.line literal.raw := by
  unfold search at failed
  split at failed <;> cases failed
  rfl

theorem path_of_mem_inFile {tree : FileTree} {root path : Path} {config : ExtractConfig}
    {literals : List Literal} (extracted : inFile tree root path config = .ok literals) :
    ∀ literal ∈ literals, literal.path = path := by
  unfold inFile at extracted
  split at extracted <;> cases extracted
  intro literal member
  obtain ⟨_, -, rfl⟩ := List.mem_map.1 member
  rfl

/-- Of a tree, only the text of the file counts. -/
theorem inFile_congr {tree other : FileTree} {root path : Path} (config : ExtractConfig)
    (same : other.readText (root.join path) = tree.readText (root.join path)) :
    inFile other root path config = inFile tree root path config := by
  unfold inFile Extract.documentsInFile
  rw [same]

end Literal

namespace Search

variable (search : Search) (tree : FileTree) (target : Target)

def literalsIn (path : Path) : Except SearchError (List Literal) :=
  Literal.inFile tree search.repository path search.extractConfig

/-- A file can be searched: its literals are found, and each of them is searched. -/
def Searchable (path : Path) : Prop :=
  ∃ literals, search.literalsIn tree path = .ok literals ∧
    ∀ literal ∈ literals, ∃ usages, literal.search search.schema target = .ok usages

/-- Why the search of a file fails: its literals are not found, or they are and the search of one of
them fails, after the search of the ones before it. -/
inductive FailsIn (path : Path) (error : SearchError) : Prop
  | extraction (failed : search.literalsIn tree path = .error error)
  | literal {literals : List Literal} (extracted : search.literalsIn tree path = .ok literals)
      (failed : FailsFirst (·.search search.schema target) literals error)

/-- The usages in the literals of a file, in order. -/
def usagesIn (path : Path) : List Usage :=
  (valuesOf (search.literalsIn tree path)).flatMap fun literal =>
    valuesOf (literal.search search.schema target)

/-- Two lists of usages differ only in the usages in one file, which stand together in both. -/
def DifferOnlyAt (path : Path) (first second : List Usage) : Prop :=
  ∃ before block block' after,
    first = before ++ block ++ after ∧ second = before ++ block' ++ after ∧
      (∀ usage ∈ block ++ block', usage.path = path) ∧ ∀ usage ∈ before ++ after, usage.path ≠ path

variable {search tree target}

theorem inFile_eq_bind (path : Path) :
    search.inFile tree target path =
      (search.literalsIn tree path).bind (gather (·.search search.schema target)) := rfl

/-- The search of a file succeeds if the file can be searched, and then gives its usages. -/
theorem inFile_eq_ok_iff {path : Path} {usages : List Usage} :
    search.inFile tree target path = .ok usages ↔
      search.Searchable tree target path ∧ usages = search.usagesIn tree target path := by
  unfold Searchable usagesIn
  rw [inFile_eq_bind]
  cases search.literalsIn tree path with
  | error => simp [Except.bind]
  | ok literals =>
      simp only [Except.bind, Except.ok.injEq, exists_eq_left']
      exact gather_eq_ok_iff

/-- The search of a file fails for one of the reasons there are. -/
theorem inFile_eq_error_iff {path : Path} {error : SearchError} :
    search.inFile tree target path = .error error ↔ search.FailsIn tree target path error := by
  rw [inFile_eq_bind]
  constructor
  · intro failed
    cases extracted : search.literalsIn tree path with
    | error =>
        rw [extracted] at failed
        cases failed
        exact .extraction extracted
    | ok literals =>
        rw [extracted] at failed
        exact .literal extracted (gather_eq_error_iff.1 failed)
  · intro fails
    cases fails with
    | extraction failed => rw [failed]; rfl
    | literal extracted failed => rw [extracted]; exact gather_eq_error_iff.2 failed

theorem searchable_iff {path : Path} :
    search.Searchable tree target path ↔ ∃ usages, search.inFile tree target path = .ok usages := by
  simp only [inFile_eq_ok_iff, exists_and_left, exists_eq, and_true]

theorem path_of_mem_usagesIn {path : Path} :
    ∀ usage ∈ search.usagesIn tree target path, usage.path = path := by
  intro usage member
  obtain ⟨literal, among, found⟩ := List.mem_flatMap.1 member
  obtain ⟨literals, extracted, among⟩ := mem_valuesOf_iff.1 among
  obtain ⟨usages, searched, found⟩ := mem_valuesOf_iff.1 found
  calc usage.path
    _ = literal.path := (Literal.place_of_mem_search searched usage found).1
    _ = path := Literal.path_of_mem_inFile extracted literal among

theorem path_mem_of_mem_flatMap {paths : List Path} :
    ∀ usage ∈ paths.flatMap (search.usagesIn tree target), usage.path ∈ paths := by
  intro usage member
  obtain ⟨path, among, found⟩ := List.mem_flatMap.1 member
  rwa [path_of_mem_usagesIn usage found]

/-- Of a tree, the usages in a file depend on the text of the file only. -/
theorem usagesIn_congr {other : FileTree} {path : Path}
    (same : other.readText (search.repository.join path) =
      tree.readText (search.repository.join path)) :
    search.usagesIn other target path = search.usagesIn tree target path := by
  unfold usagesIn literalsIn
  rw [Literal.inFile_congr search.extractConfig same]

section Find

variable {files : List Path} (located : search.filter.candidates tree search.repository = .ok files)
include located

theorem find_eq_gather : search.find tree target = gather (search.inFile tree target) files := by
  unfold find
  rw [located]
  rfl

/-- All candidates are searched if a search succeeds, and their usages follow each other. -/
theorem find_eq_ok_iff {usages : List Usage} :
    search.find tree target = .ok usages ↔
      (∀ path ∈ files, search.Searchable tree target path) ∧
        usages = files.flatMap (search.usagesIn tree target) := by
  rw [find_eq_gather located, gather_eq_ok_iff]
  simp only [← searchable_iff]
  refine and_congr_right fun readable => ?_
  have same : ∀ path ∈ files,
      valuesOf (search.inFile tree target path) = search.usagesIn tree target path := by
    intro path member
    rw [inFile_eq_ok_iff.2 ⟨readable path member, rfl⟩]
    rfl
  rw [List.flatMap_congr same]

/-- A search fails in the first candidate that cannot be searched. -/
theorem find_eq_error_iff {error : SearchError} :
    search.find tree target = .error error ↔
      ∃ before path after, files = before ++ path :: after ∧
        (∀ earlier ∈ before, search.Searchable tree target earlier) ∧
          search.FailsIn tree target path error := by
  rw [find_eq_gather located, gather_eq_error_iff]
  unfold FailsFirst
  simp only [← searchable_iff, inFile_eq_error_iff]

/-- A change in one file changes only the usages in that file. -/
theorem differOnlyAt_of_find {other : FileTree} {changed : Path} {usages usages' : List Usage}
    (relocated : search.filter.candidates other search.repository = .ok files)
    (unchanged : ∀ path ∈ files, path ≠ changed →
      other.readText (search.repository.join path) = tree.readText (search.repository.join path))
    (found : search.find tree target = .ok usages)
    (found' : search.find other target = .ok usages') :
    DifferOnlyAt changed usages usages' := by
  obtain ⟨-, rfl⟩ := (find_eq_ok_iff located).1 found
  obtain ⟨-, rfl⟩ := (find_eq_ok_iff relocated).1 found'
  obtain ⟨below, here, above, rfl, smaller, equal, larger⟩ :=
    exists_around (CandidateFilter.pairwise_of_candidates located) changed
  have apart : ∀ path ∈ below ++ above, path ≠ changed := by
    intro path member
    rcases List.mem_append.1 member with member | member
    · exact String.ne_of_lt (smaller path member)
    · exact (String.ne_of_lt (larger path member)).symm
  have kept : ∀ path ∈ below ++ above,
      search.usagesIn other target path = search.usagesIn tree target path := by
    intro path member
    refine usagesIn_congr (unchanged path ?_ (apart path member))
    rcases List.mem_append.1 member with member | member <;> simp [member]
  obtain ⟨keptBelow, keptAbove⟩ := List.forall_mem_append.1 kept
  refine ⟨below.flatMap (search.usagesIn tree target), here.flatMap (search.usagesIn tree target),
    here.flatMap (search.usagesIn other target), above.flatMap (search.usagesIn tree target),
    ?_, ?_, ?_, ?_⟩
  · rw [List.flatMap_append, List.flatMap_append]
  · rw [List.flatMap_append, List.flatMap_append, List.flatMap_congr keptBelow,
      List.flatMap_congr keptAbove]
  · intro usage member
    rcases List.mem_append.1 member with member | member
    · exact equal _ (path_mem_of_mem_flatMap usage member)
    · exact equal _ (path_mem_of_mem_flatMap usage member)
  · intro usage member
    rw [← List.flatMap_append] at member
    exact apart _ (path_mem_of_mem_flatMap usage member)

end Find

/-- A search gives the usages in all files, file by file and literal by literal, exactly if all
files can be searched, and else the error of the first one that cannot be. For another tree with the
same candidates, of which one has another text, it gives the same usages in all other files. -/
theorem find_all_or_nothing (search : Search) (tree : FileTree) (target : Target) {files : List Path}
    (located : search.filter.candidates tree search.repository = .ok files) :
    (∀ usages, search.find tree target = .ok usages ↔
      (∀ path ∈ files, search.Searchable tree target path) ∧
        usages = files.flatMap (search.usagesIn tree target)) ∧
    (∀ error, search.find tree target = .error error ↔
      ∃ before path after, files = before ++ path :: after ∧
        (∀ earlier ∈ before, search.Searchable tree target earlier) ∧
          search.FailsIn tree target path error) ∧
    (∀ (other : FileTree) (changed : Path) (usages usages' : List Usage),
      search.filter.candidates other search.repository = .ok files →
      (∀ path ∈ files, path ≠ changed →
        other.readText (search.repository.join path) =
          tree.readText (search.repository.join path)) →
      search.find tree target = .ok usages → search.find other target = .ok usages' →
      DifferOnlyAt changed usages usages') := by
  refine ⟨fun usages => find_eq_ok_iff located, fun error => find_eq_error_iff located, ?_⟩
  intro other changed usages usages' relocated unchanged found found'
  exact differOnlyAt_of_find located relocated unchanged found found'

/-- A search of documents for a schema with one field. -/
def pingSearch : Search :=
  { repository := "repo"
    schema :=
      .ofSteps
        [.define "Query" .object, .field "Query" { name := "ping", type := { name := "Int" } }]
    extractConfig := {}
    filter := { extensions := ["graphql"], tags := [] } }

/-- A repository with two documents, the second of which is given. -/
def pingTree (second : String) : FileTree :=
  { root :=
      [("repo", .directory
        [("a.graphql", .file "\x7bping\x7d".toUTF8), ("b.graphql", .file second.toUTF8)])] }

def pingTarget : Target := { typeName := "Query", fieldName := "ping" }

def pingUsage (path : Path) : Usage := { path, line := 1, operation := none }

theorem eq_ok_of_toOption {ε α : Type} {result : Except ε α} {value : α}
    (given : result.toOption = some value) : result = .ok value := by
  cases result with
  | error => cases given
  | ok => exact congrArg _ (Option.some.inj given)

theorem candidates_pingTree {second : String}
    (walked : (Ignore.walk (pingTree second) "repo").toOption = some ["a.graphql", "b.graphql"]) :
    pingSearch.filter.candidates (pingTree second) pingSearch.repository =
      .ok ["a.graphql", "b.graphql"] :=
  CandidateFilter.candidates_eq_of_pairwise (eq_ok_of_toOption walked) rfl (by decide)

theorem find_pingTree :
    pingSearch.find (pingTree "\x7bping\x7d") pingTarget =
        .ok [pingUsage "a.graphql", pingUsage "b.graphql"] ∧
      pingSearch.find (pingTree "\x7bping,ping\x7d") pingTarget =
        .ok [pingUsage "a.graphql", pingUsage "b.graphql", pingUsage "b.graphql"] ∧
      DifferOnlyAt "b.graphql" [pingUsage "a.graphql", pingUsage "b.graphql"]
        [pingUsage "a.graphql", pingUsage "b.graphql", pingUsage "b.graphql"] := by
  have located : pingSearch.filter.candidates (pingTree "\x7bping\x7d") pingSearch.repository = _ :=
    candidates_pingTree (by decide +kernel)
  have relocated :
      pingSearch.filter.candidates (pingTree "\x7bping,ping\x7d") pingSearch.repository = _ :=
    candidates_pingTree (by decide +kernel)
  have found : pingSearch.find (pingTree "\x7bping\x7d") pingTarget =
      .ok [pingUsage "a.graphql", pingUsage "b.graphql"] :=
    (find_eq_gather located).trans (eq_ok_of_toOption (by decide +kernel))
  have found' : pingSearch.find (pingTree "\x7bping,ping\x7d") pingTarget =
      .ok [pingUsage "a.graphql", pingUsage "b.graphql", pingUsage "b.graphql"] :=
    (find_eq_gather relocated).trans (eq_ok_of_toOption (by decide +kernel))
  refine ⟨found, found', ?_⟩
  refine (find_all_or_nothing _ _ _ located).2.2 _ _ _ _ relocated ?_ found found'
  intro path member different
  obtain rfl | rfl : path = "a.graphql" ∨ path = "b.graphql" := by simpa using member
  · decide +kernel
  · exact absurd rfl different

end Search

end FieldUsage
