import FieldUsage.Proofs.Glob.Plain

/-!
Patterns below directories with the same contents. Looking for paths asks the same questions below
either directory and gets the same answers, so it finds paths at the same places below them, in the
same order. The step lemma says so for one component of a pattern, the run lemma is its induction on
the number of steps.
-/

namespace FieldUsage.Glob

open FieldUsage.FileTree (Stays SameContents)

/-- Paths that are found at the same places below two directories. -/
def AtSamePlaces (up : Prop) (first second : Path) (found found' : List Path) : Prop :=
  ∃ places : List Path, (∀ place ∈ places, Stays up place) ∧ found = places.map first.join ∧
    found' = places.map second.join

namespace AtSamePlaces

variable {up : Prop} {first second : Path} {found found' more more' : List Path} {place : Path}

theorem nil : AtSamePlaces up first second [] [] := ⟨[], nofun, rfl, rfl⟩

theorem single (stays : Stays up place) :
    AtSamePlaces up first second [first.join place] [second.join place] :=
  ⟨[place], by simpa using stays, rfl, rfl⟩

theorem append (here : AtSamePlaces up first second found found')
    (there : AtSamePlaces up first second more more') :
    AtSamePlaces up first second (found ++ more) (found' ++ more') := by
  obtain ⟨places, stay, rfl, rfl⟩ := here
  obtain ⟨others, stay', rfl, rfl⟩ := there
  refine ⟨places ++ others, ?_, by simp, by simp⟩
  intro place member
  rcases List.mem_append.1 member with member | member
  · exact stay place member
  · exact stay' place member

theorem flatMap {α : Type} {items : List α} {f g : α → List Path}
    (each : ∀ item ∈ items, AtSamePlaces up first second (f item) (g item)) :
    AtSamePlaces up first second (items.flatMap f) (items.flatMap g) := by
  induction items with
  | nil => exact nil
  | cons item rest ih =>
      obtain ⟨here, others⟩ := List.forall_mem_cons.1 each
      rw [List.flatMap_cons, List.flatMap_cons]
      exact here.append (ih others)

theorem ite {test : Bool} (here : test = false → AtSamePlaces up first second found found') :
    AtSamePlaces up first second (if test then [] else found) (if test then [] else found') := by
  cases test with
  | true => exact nil
  | false => exact here rfl

/-- Places below the same place are the same places. -/
theorem below (stays : Stays up place)
    (inner : AtSamePlaces up (first.join place) (second.join place) found found') :
    AtSamePlaces up first second found found' := by
  obtain ⟨places, stay, rfl, rfl⟩ := inner
  refine ⟨places.map place.join, ?_, ?_, ?_⟩
  · intro other member
    obtain ⟨rest, known, rfl⟩ := List.mem_map.1 member
    exact stays.join (stay rest known)
  · rw [List.map_map]
    exact List.map_congr_left fun rest _ => Path.join_assoc first place rest
  · rw [List.map_map]
    exact List.map_congr_left fun rest _ => Path.join_assoc second place rest

/-- The files among paths at the same places are at the same places. -/
theorem filter_isFile {tree : FileTree} (same : SameContents tree up first second)
    (places : AtSamePlaces up first second found found') :
    AtSamePlaces up first second (found.filter tree.isFile) (found'.filter tree.isFile) := by
  obtain ⟨places, stay, rfl, rfl⟩ := places
  refine ⟨places.filter fun place => tree.isFile (first.join place), ?_, ?_, ?_⟩
  · intro place member
    exact stay place (List.mem_filter.1 member).1
  · rw [List.filter_map]
    rfl
  · rw [List.filter_map]
    apply congrArg
    apply List.filter_congr
    intro place member
    exact (same.isFile_join (stay place member)).symm

end AtSamePlaces

/-! One component of a pattern. -/

/-- A component that may be looked up: it has no separator, and it goes up only if it may. -/
def Pattern.Stays (up : Prop) (pattern : Pattern) : Prop :=
  pattern.Within ∧ (".." ∈ dotSteps pattern → up)

theorem stays_of_piece {up : Prop} {name : String} (whole : '/' ∉ name.toList)
    (upwards : name = ".." → up) : Stays up name := by
  constructor
  · exact Path.isAbsolute_of_notMem whole
  · intro member
    exact upwards (Path.up_mem_stepsOf whole member)

theorem stays_of_literal? {up : Prop} {pattern : Pattern} (stays : pattern.Stays up) {name : String}
    (literal : Pattern.literal? pattern = some name) : Stays up name := by
  apply stays_of_piece
  · intro inside
    exact stays.1 (toList_of_literal? literal inside)
  · rintro rfl
    apply stays.2
    rw [literal?_eq_some_iff.1 literal]
    decide

/-- A component without wildcards is the name of a file, or nothing between two separators. -/
theorem isFileName_or_empty {up : Prop} {pattern : Pattern} (stays : pattern.Stays up)
    {name : String} (literal : Pattern.literal? pattern = some name)
    (ordinary : ¬(name == "." || name == "..") = true) : Path.IsFileName name ∨ name = "" := by
  rw [Bool.or_eq_true, beq_iff_eq, beq_iff_eq, not_or] at ordinary
  by_cases empty : name = ""
  · exact .inr empty
  · exact .inl ⟨fun inside => stays.1 (toList_of_literal? literal inside), empty, ordinary⟩

theorem stays_of_mem_choices {tree : FileTree} (sound : tree.named = true) {up : Prop}
    {pattern : Pattern} (stays : pattern.Stays up) {path : Path} {name : String}
    (member : name ∈ choices pattern tree path) : Stays up name := by
  rw [choices_eq] at member
  rcases List.mem_append.1 member with member | member
  · obtain ⟨entry, known, rfl⟩ := List.mem_map.1 (List.mem_mergeSort.1 member)
    obtain ⟨whole, -, -, other⟩ := FileTree.isFileName_of_mem_entries sound known
    exact stays_of_piece whole fun same => absurd same other
  · have special : name = "." ∨ name = ".." := by
      unfold dotSteps at member
      split at member
      · simpa using (List.mem_filter.1 member).1
      · cases member
    apply stays_of_piece
    · rcases special with rfl | rfl <;> decide
    · rintro rfl
      exact stays.2 member

/-- Two directories with the same contents, none of which is the current one. -/
structure Counterparts (tree : FileTree) (up : Prop) (first second : Path) : Prop where
  contents : SameContents tree up first second
  elsewhere : Path.same first "." = false
  elsewhere' : Path.same second "." = false

section Counterparts

variable {tree : FileTree} {up : Prop} {first second : Path}

/-- A name leads from counterparts to counterparts. -/
theorem Counterparts.join (pair : Counterparts tree up first second) {name : String}
    (stays : Stays up name) : Counterparts tree up (first.join name) (second.join name) where
  contents := pair.contents.join stays
  elsewhere := same_join pair.contents.solid pair.elsewhere stays.1
  elsewhere' := same_join pair.contents.solid' pair.elsewhere' stays.1

/-- In a number of steps, patterns lead to the same places below counterparts. -/
def LeadsToSamePlaces (tree : FileTree) (up : Prop) (directories : Bool) (bound : Nat) : Prop :=
  ∀ patterns first second, Counterparts tree up first second →
    (∀ pattern ∈ patterns, Pattern.Stays up pattern) →
    AtSamePlaces up first second (expandBelow tree directories bound patterns first)
      (expandBelow tree directories bound patterns second)

variable {directories : Bool} {bound : Nat} {pattern : Pattern} {rest : List Pattern}
  (pair : Counterparts tree up first second)

namespace LeadsToSamePlaces

variable (leads : LeadsToSamePlaces tree up directories bound)
include pair leads

theorem proceed (stay : ∀ other ∈ rest, Pattern.Stays up other) {name : String}
    (stays : Stays up name) :
    AtSamePlaces up first second (Glob.proceed tree directories bound rest (first.join name))
      (Glob.proceed tree directories bound rest (second.join name)) := by
  have next := pair.join stays
  unfold Glob.proceed
  split
  case isTrue =>
    unfold arrive
    rw [next.contents.isDirectory_eq]
    split
    · exact .single stays
    · exact .nil
  case isFalse => exact .below stays (leads rest _ _ next stay)

theorem spread (stay : ∀ other ∈ pattern :: rest, Pattern.Stays up other) {name : String}
    (stays : Stays up name) :
    AtSamePlaces up first second
      (Glob.spread tree directories bound pattern rest name (first.join name))
      (Glob.spread tree directories bound pattern rest name (second.join name)) := by
  have next := pair.join stays
  have deeper := AtSamePlaces.below stays (leads (pattern :: rest) _ _ next stay)
  unfold Glob.spread
  rw [next.contents.isDirectory_eq]
  generalize tree.isDirectory (second.join name) = directory
  cases rest with
  | nil =>
      cases directory with
      | false => exact .nil
      | true => exact (AtSamePlaces.single stays).append deeper
  | cons next more =>
      obtain ⟨-, others⟩ := List.forall_mem_cons.1 stay
      obtain ⟨-, others⟩ := List.forall_mem_cons.1 others
      have onwards := leads.proceed pair others stays
      apply AtSamePlaces.append
      · exact .ite fun _ => onwards
      · cases directory with
        | false => exact .nil
        | true => exact deeper

/-- One more step of a pattern leads to the same places below both directories. -/
theorem succ (sound : tree.named = true)
    (stay : ∀ other ∈ pattern :: rest, Pattern.Stays up other) :
    AtSamePlaces up first second
      (expandBelow tree directories (bound + 1) (pattern :: rest) first)
      (expandBelow tree directories (bound + 1) (pattern :: rest) second) := by
  obtain ⟨here, others⟩ := List.forall_mem_cons.1 stay
  rw [expandBelow_succ, expandBelow_succ, pair.contents.isDirectory_eq]
  simp only [below_eq_join pair.elsewhere, below_eq_join pair.elsewhere']
  cases literal : Pattern.literal? pattern with
  | some name =>
      have stays := stays_of_literal? here literal
      have test : (if name == "." || name == ".." then tree.isDirectory second
          else tree.holds (first.join name)) =
          if name == "." || name == ".." then tree.isDirectory second
          else tree.holds (second.join name) := by
        split
        case isTrue => rfl
        case isFalse ordinary =>
          have named := isFileName_or_empty here literal ordinary
          rw [pair.contents.holds_join_eq named stays]
      dsimp only
      rw [test]
      apply AtSamePlaces.ite
      intro _
      exact leads.proceed pair others stays
  | none =>
      -- wildcards choose among the same names, since the directories have the same entries
      have same : choices pattern tree first = choices pattern tree second := by
        rw [choices_eq, choices_eq, pair.contents.entries_eq]
      dsimp only
      rw [same]
      apply AtSamePlaces.ite
      intro directory
      split
      · apply AtSamePlaces.flatMap
        intro name member
        apply leads.spread pair _ (stays_of_mem_choices sound here member)
        exact List.forall_mem_cons.2 ⟨here, fun other member =>
          others other ((List.dropWhile_sublist _).subset member)⟩
      · apply AtSamePlaces.flatMap
        intro name member
        apply AtSamePlaces.ite
        intro _
        exact leads.proceed pair others (stays_of_mem_choices sound here member)

end LeadsToSamePlaces

/-- Below counterparts, patterns lead to the same places. -/
theorem leadsToSamePlaces (sound : tree.named = true) (up : Prop) (directories : Bool)
    (bound : Nat) : LeadsToSamePlaces tree up directories bound := by
  induction bound with
  | zero =>
      intro patterns first second _ _
      rw [expandBelow_zero, expandBelow_zero]
      exact .nil
  | succ bound ih =>
      intro patterns first second pair stay
      cases patterns with
      | nil =>
          rw [expandBelow_nil, expandBelow_nil]
          exact .nil
      | cons pattern rest => exact ih.succ pair sound stay

end Counterparts

/-! Whole patterns. -/

/-- A pattern that leads up from where it starts. -/
def Climbs (pattern : String) : Prop :=
  ∃ piece ∈ pieces pattern.toList, ∃ component, Pattern.parse piece = .ok component ∧
    ".." ∈ dotSteps component

/-- No piece of a pattern leads up unless the whole pattern does. -/
theorem stays_of_mem_pieces {text : String} {patterns : List Pattern}
    (parsed : (pieces text.toList).mapM Pattern.parse = .ok patterns) {up : Prop}
    (upwards : Climbs text → up) : ∀ pattern ∈ patterns, Pattern.Stays up pattern := by
  intro pattern member
  obtain ⟨piece, known, read⟩ := exists_of_mem_mapM parsed member
  exact ⟨within_of_mem_pieces parsed pattern member, fun climbs =>
    upwards ⟨piece, known, pattern, read, climbs⟩⟩

theorem filter_arrive {tree : FileTree} {path : Path} (directory : tree.isDirectory path = true)
    (directories : Bool) : (arrive tree directories path).filter tree.isFile = [] := by
  have noFile : tree.isFile path = false := by
    obtain ⟨entries, found⟩ := FileTree.lookup_of_isDirectory directory
    unfold FileTree.isFile
    rw [found]
  unfold arrive
  split
  · simp [noFile]
  · rfl

/-- The files that a pattern stands for below counterparts are at the same places. -/
theorem expandFrom_atSamePlaces {tree : FileTree} (sound : tree.named = true) {up : Prop}
    {first second : Path} (pair : Counterparts tree up first second)
    (directory : tree.isDirectory first = true) {text : String} (upwards : Climbs text → up) :
    (∃ error, expandFrom tree text first = .error error ∧
      expandFrom tree text second = .error error) ∨
    ∃ found found', expandFrom tree text first = .ok found ∧
      expandFrom tree text second = .ok found' ∧
      AtSamePlaces up first second (found.filter tree.isFile) (found'.filter tree.isFile) := by
  unfold expandFrom
  cases parsed : (pieces text.toList).mapM Pattern.parse with
  | error error => exact .inl ⟨error, rfl, rfl⟩
  | ok patterns =>
      refine .inr ⟨_, _, rfl, rfl, ?_⟩
      have stay := stays_of_mem_pieces parsed upwards
      generalize patterns.length + (tree.depth + 1) * (FileTree.linkLimit + 1) = bound
      unfold proceed
      split
      case isFalse =>
        exact (leadsToSamePlaces sound up _ bound patterns first second pair stay).filter_isFile
          pair.contents
      case isTrue =>
        -- without components the directory itself is found, which is no file
        rw [filter_arrive directory, filter_arrive (pair.contents.isDirectory_eq ▸ directory)]
        exact .nil

/-- Directories without wildcards that have the same contents: a pattern cannot be read behind
either of them, for the same reason, or the files it stands for are at the same places. -/
theorem expand_join_atSamePlaces {tree : FileTree} (sound : tree.named = true) {up : Prop}
    {first second : Path} (plain : IsPlain first) (plain' : IsPlain second)
    (directory : tree.isDirectory first = true) (same : SameContents tree up first second)
    {pattern : String} (relative : Path.isAbsolute pattern = false)
    (upwards : Climbs pattern → up) :
    (∃ error error', expand tree (first.join pattern) = .error error ∧
      expand tree (second.join pattern) = .error error' ∧ error.fault = error'.fault) ∨
    ∃ found found', expand tree (first.join pattern) = .ok found ∧
      expand tree (second.join pattern) = .ok found' ∧
      AtSamePlaces up (shown first) (shown second) (found.filter tree.isFile)
        (found'.filter tree.isFile) := by
  have pair : Counterparts tree up (shown first) (shown second) :=
    { contents :=
        { solid := plain.shown_ne_empty
          solid' := plain'.shown_ne_empty
          leads_eq := fun rest inside upwards => by
            rw [plain.leads_shown, plain'.leads_shown, same.leads_eq rest inside upwards] }
      elsewhere := plain.2.2
      elsewhere' := plain'.2.2 }
  have faults : fault? (Pattern.parse (first.join pattern)) =
      fault? (Pattern.parse (second.join pattern)) := by
    rw [plain.fault?_parse_join relative, plain'.fault?_parse_join relative]
  have directory' : tree.isDirectory second = true := same.isDirectory_eq ▸ directory
  rw [expand_join plain directory relative, expand_join plain' directory' relative]
  cases read : Pattern.parse (first.join pattern) with
  | error error =>
      cases read' : Pattern.parse (second.join pattern) with
      | error error' =>
          rw [read, read'] at faults
          exact .inl ⟨error, error', rfl, rfl, Option.some.inj faults⟩
      | ok whole =>
          rw [read, read'] at faults
          cases faults
  | ok whole =>
      cases read' : Pattern.parse (second.join pattern) with
      | error error =>
          rw [read, read'] at faults
          cases faults
      | ok whole' =>
          have arrived : tree.isDirectory (shown first) = true := by
            rw [plain.isDirectory_shown]
            exact directory
          rcases expandFrom_atSamePlaces sound pair arrived upwards with
            ⟨error, here, there⟩ | found
          · exact .inl ⟨error, error, here, there, rfl⟩
          · exact .inr found

end FieldUsage.Glob
