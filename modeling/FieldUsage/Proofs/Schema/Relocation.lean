import FieldUsage.Proofs.Glob.Relocation
import FieldUsage.Proofs.Schema.Files

/-!
The files of a schema below directories with the same contents. If the directories have no wildcards
in their paths, the files are found below both, at the same places and in the same order, or the
search fails below both for the same reason. A directory with a wildcard in its path is taken for a
pattern, and what is in it is not found.
-/

namespace FieldUsage

open FieldUsage.FileTree (SameContents)
open FieldUsage.Glob (AtSamePlaces IsPlain shown)

/-- Errors of the same kind: the same error, but for where a pattern was read. -/
def SchemaError.Alike : SchemaError → SchemaError → Prop
  | .badPattern pattern error, .badPattern pattern' error' =>
      pattern = pattern' ∧ error.fault = error'.fault
  | error, error' => error = error'

theorem SchemaError.Alike.refl (error : SchemaError) : error.Alike error := by
  cases error with
  | badPattern pattern error => exact ⟨rfl, rfl⟩
  | unreadable | noFiles | badSource | remote => rfl

namespace Schema

/-- Results below two directories: errors of the same kind, or paths at the same places. Absolute
paths stay where they are, and there are none under a condition. -/
inductive Corresponds (first second : Path) (inside : Prop) :
    Except SchemaError (List Path) → Except SchemaError (List Path) → Prop where
  | failed {error error' : SchemaError} (alike : error.Alike error') :
      Corresponds first second inside (.error error) (.error error')
  | found (places : List Path)
      (relative : inside → ∀ place ∈ places, Path.isAbsolute place = false) :
      Corresponds first second inside (.ok (places.map first.join)) (.ok (places.map second.join))

/-! The files of one pattern. -/

/-- What a pattern stands for at the root is absolute. -/
theorem isAbsolute_of_mem_expand {tree : FileTree} (sound : tree.named = true) {text : String}
    (absolute : Path.isAbsolute text = true) {found : List Path}
    (expanded : Glob.expand tree text = .ok found) :
    ∀ path ∈ found, Path.isAbsolute path = true := by
  -- the root is a counterpart of itself, so all that is found from it is at places below it
  have root : Glob.Counterparts tree True "/" "/" :=
    { contents := { solid := by decide, solid' := by decide, leads_eq := fun _ _ _ => rfl }
      elsewhere := by decide
      elsewhere' := by decide }
  unfold Glob.expand at expanded
  rw [absolute] at expanded
  obtain ⟨whole, -, expanded⟩ := bind_eq_ok_iff.1 expanded
  obtain ⟨patterns, parsed, expanded⟩ := bind_eq_ok_iff.1 expanded
  cases expanded
  have stay : ∀ pattern ∈ patterns, Glob.Pattern.Stays True pattern := fun pattern member =>
    ⟨Glob.within_of_mem_pieces parsed pattern member, fun _ => trivial⟩
  intro path member
  obtain ⟨places, inside, shape, -⟩ :=
    Glob.leadsToSamePlaces sound True _ _ patterns "/" "/" root stay
  rw [if_pos rfl, shape] at member
  obtain ⟨place, known, rfl⟩ := List.mem_map.1 member
  exact Path.isAbsolute_join "/" (inside place known).1

/-- The paths that a pattern stands for decide about its files. -/
theorem matchedFiles_of_expand {tree : FileTree} {base : Path} {pattern : String}
    {found : List Path} (expanded : Glob.expand tree (base.join pattern) = .ok found) :
    matchedFiles tree base pattern =
      if found.filter tree.isFile = [] then .error (.noFiles [pattern])
      else .ok (found.filter tree.isFile) := by
  unfold matchedFiles
  rw [expanded]
  dsimp only
  cases found.filter tree.isFile <;> rfl

theorem Corresponds.of_places {first second : Path} {inside : Prop}
    {places found found' : List Path} (pattern : String)
    (relative : inside → ∀ place ∈ places, Path.isAbsolute place = false)
    (here : found = places.map first.join) (there : found' = places.map second.join) :
    Corresponds first second inside (if found = [] then .error (.noFiles [pattern]) else .ok found)
      (if found' = [] then .error (.noFiles [pattern]) else .ok found') := by
  subst here there
  cases places with
  | nil => exact .failed (.refl _)
  | cons place rest => exact .found _ relative

section OnePattern

variable {tree : FileTree} (sound : tree.named = true) {first second : Path}
include sound

/-- An absolute pattern stands for the same files whatever the directory is. -/
theorem corresponds_of_absolute {pattern : String} (absolute : Path.isAbsolute pattern = true) :
    Corresponds (shown first) (shown second) (Path.isAbsolute pattern = false)
      (matchedFiles tree first pattern) (matchedFiles tree second pattern) := by
  have here (base : Path) : base.join pattern = pattern := Path.join_of_absolute base absolute
  cases expanded : Glob.expand tree pattern with
  | error error =>
      unfold matchedFiles
      rw [here, here, expanded]
      exact .failed (.refl _)
  | ok found =>
      have fixed (base : Path) :
          found.filter tree.isFile = (found.filter tree.isFile).map base.join := by
        symm
        have unmoved : ∀ path ∈ found.filter tree.isFile, base.join path = path := by
          intro path member
          apply Path.join_of_absolute
          exact isAbsolute_of_mem_expand sound absolute expanded path (List.mem_filter.1 member).1
        rw [List.map_congr_left unmoved, List.map_id'' fun _ => rfl]
      rw [matchedFiles_of_expand (by rw [here, expanded]),
        matchedFiles_of_expand (by rw [here, expanded])]
      apply Corresponds.of_places pattern _ (fixed _) (fixed _)
      intro relative
      cases absolute.symm.trans relative

/-- The files of a pattern below two directories with the same contents. -/
theorem corresponds_matchedFiles {up : Prop} (plain : IsPlain first) (plain' : IsPlain second)
    (directory : tree.isDirectory first = true) (same : SameContents tree up first second)
    {pattern : String} (upwards : Glob.Climbs pattern → up) :
    Corresponds (shown first) (shown second) (Path.isAbsolute pattern = false)
      (matchedFiles tree first pattern) (matchedFiles tree second pattern) := by
  by_cases absolute : Path.isAbsolute pattern = true
  · exact corresponds_of_absolute sound absolute
  · have relative : Path.isAbsolute pattern = false := by simpa using absolute
    rcases Glob.expand_join_atSamePlaces sound plain plain' directory same relative upwards with
      ⟨error, error', here, there, fault⟩ |
      ⟨found, found', here, there, places, stay, shape, shape'⟩
    · unfold matchedFiles
      rw [here, there]
      exact .failed ⟨rfl, fault⟩
    · rw [matchedFiles_of_expand here, matchedFiles_of_expand there]
      exact .of_places pattern (fun _ place member => (stay place member).1) shape shape'

end OnePattern

/-! The files of all patterns. -/

/-- Results that correspond pattern by pattern correspond as a whole. -/
theorem Corresponds.gather {first second : Path} {inside : String → Prop}
    {f g : String → Except SchemaError (List Path)} {patterns : List String}
    (each : ∀ pattern ∈ patterns,
      Corresponds first second (inside pattern) (f pattern) (g pattern)) :
    Corresponds first second (∀ pattern ∈ patterns, inside pattern) (gather f patterns)
      (gather g patterns) := by
  induction patterns with
  | nil => exact .found [] nofun
  | cons pattern rest ih =>
      obtain ⟨here, others⟩ := List.forall_mem_cons.1 each
      have behind := ih others
      rw [gather_cons, gather_cons]
      generalize f pattern = result, g pattern = result' at here ⊢
      generalize FieldUsage.gather f rest = later, FieldUsage.gather g rest = later' at behind ⊢
      cases here with
      | failed alike => exact .failed alike
      | found places relative =>
          cases behind with
          | failed alike => exact .failed alike
          | found more relative' =>
              have all : (∀ other ∈ pattern :: rest, inside other) →
                  ∀ place ∈ places ++ more, Path.isAbsolute place = false := by
                intro within place member
                obtain ⟨head, tail⟩ := List.forall_mem_cons.1 within
                rcases List.mem_append.1 member with member | member
                · exact relative head place member
                · exact relative' tail place member
              have both : Corresponds first second (∀ other ∈ pattern :: rest, inside other) _ _ :=
                .found (places ++ more) all
              rwa [List.map_append, List.map_append] at both

/-- Paths in their order, each of them once. -/
def inOrder (found : List Path) : List Path := dropRepeated (found.mergeSort Path.le)

/-- Repetitions are dropped at the same places below both directories. -/
theorem dropRepeated_map {f g : Path → Path} (places : List Path)
    (same : ∀ place ∈ places, ∀ other ∈ places,
      Path.same (f place) (f other) = Path.same (g place) (g other)) :
    ∃ kept : List Path, kept ⊆ places ∧ dropRepeated (places.map f) = kept.map f ∧
      dropRepeated (places.map g) = kept.map g := by
  match places with
  | [] => exact ⟨[], nofun, by simp [dropRepeated], by simp [dropRepeated]⟩
  | [place] => exact ⟨[place], List.Subset.refl _, by simp [dropRepeated], by simp [dropRepeated]⟩
  | place :: next :: rest =>
      have equal := same place List.mem_cons_self next (List.mem_cons_of_mem _ List.mem_cons_self)
      simp only [List.map_cons, dropRepeated]
      rw [equal]
      split
      case isTrue =>
        have shorter : place :: rest ⊆ place :: next :: rest :=
          List.cons_subset_cons place (List.subset_cons_self next rest)
        obtain ⟨kept, known, here, there⟩ := dropRepeated_map (place :: rest)
          fun a inside b inside' => same a (shorter inside) b (shorter inside')
        exact ⟨kept, List.Subset.trans known shorter, here, there⟩
      case isFalse =>
        have shorter : next :: rest ⊆ place :: next :: rest := List.subset_cons_self place _
        obtain ⟨kept, known, here, there⟩ := dropRepeated_map (next :: rest)
          fun a inside b inside' => same a (shorter inside) b (shorter inside')
        refine ⟨place :: kept, List.cons_subset_cons place known, ?_, ?_⟩
        · rw [List.map_cons, ← here, List.map_cons]
        · rw [List.map_cons, ← there, List.map_cons]
termination_by places.length

theorem inOrder_map {first second : Path} (solid : first ≠ "") (solid' : second ≠ "")
    {places : List Path} (relative : ∀ place ∈ places, Path.isAbsolute place = false) :
    ∃ kept : List Path, (∀ place ∈ kept, Path.isAbsolute place = false) ∧
      inOrder (places.map first.join) = kept.map first.join ∧
      inOrder (places.map second.join) = kept.map second.join := by
  -- the order of two paths below one directory is that of the steps behind it
  have sorted {base : Path} (solid : base ≠ "") : (places.map base.join).mergeSort Path.le =
      (places.mergeSort fun a b => !Path.componentsLt (Path.stepsOf b) (Path.stepsOf a)).map
        base.join := by
    symm
    apply List.map_mergeSort
    intro a inside b inside'
    unfold Path.le
    rw [Path.components_join solid (relative a inside),
      Path.components_join solid (relative b inside'), Path.componentsLt_append]
  have equal {base : Path} (solid : base ≠ "") {a b : Path} (inside : a ∈ places)
      (inside' : b ∈ places) :
      Path.same (base.join a) (base.join b) = (Path.stepsOf a == Path.stepsOf b) := by
    unfold Path.same
    rw [Path.components_join solid (relative a inside),
      Path.components_join solid (relative b inside'), Bool.eq_iff_iff, beq_iff_eq, beq_iff_eq,
      List.append_cancel_left_eq]
  unfold inOrder
  rw [sorted solid, sorted solid']
  generalize listed : (places.mergeSort fun a b =>
    !Path.componentsLt (Path.stepsOf b) (Path.stepsOf a)) = ordered
  have known : ordered ⊆ places := by
    intro place member
    rw [← listed, List.mem_mergeSort] at member
    exact member
  have same : ∀ a ∈ ordered, ∀ b ∈ ordered, Path.same (first.join a) (first.join b) =
      Path.same (second.join a) (second.join b) := by
    intro a member b member'
    rw [equal solid (known member) (known member'), equal solid' (known member) (known member')]
  obtain ⟨kept, inside, here, there⟩ := dropRepeated_map ordered same
  exact ⟨kept, fun place member => relative place (known (inside member)), here, there⟩

/-- The files of a schema below two directories with the same contents, whose paths have no
wildcards: errors of the same kind, or the same places below the directories in one order. -/
theorem files_relocated {tree : FileTree} (sound : tree.named = true) (schema : SchemaConfig)
    {first second : Path} (plain : IsPlain first) (plain' : IsPlain second)
    (directory : tree.isDirectory first = true)
    (same : SameContents tree (∃ pattern ∈ schema.patterns, Glob.Climbs pattern) first second) :
    (∃ error error', files tree schema first = .error error ∧
      files tree schema second = .error error' ∧ error.Alike error') ∨
    ∃ places : List Path, files tree schema first = .ok (inOrder (places.map (shown first).join)) ∧
      files tree schema second = .ok (inOrder (places.map (shown second).join)) ∧
      ((∀ pattern ∈ schema.patterns, Path.isAbsolute pattern = false) → ∃ kept : List Path,
        (∀ place ∈ kept, Path.isAbsolute place = false) ∧
        files tree schema first = .ok (kept.map (shown first).join) ∧
        files tree schema second = .ok (kept.map (shown second).join)) := by
  cases served : schema.source? with
  | some source =>
      have refused (base : Path) : files tree schema base = .error (.remote source) :=
        files_eq_remote_iff.2 served
      exact .inl ⟨_, _, refused first, refused second, .refl _⟩
  | none =>
      have matched := Corresponds.gather fun pattern member =>
        corresponds_matchedFiles sound plain plain' directory same fun climbs =>
          ⟨pattern, member, climbs⟩
      rw [files_eq_gather served, files_eq_gather served]
      generalize gather (matchedFiles tree first) schema.patterns = result,
        gather (matchedFiles tree second) schema.patterns = result' at matched ⊢
      cases matched with
      | failed alike => exact .inl ⟨_, _, rfl, rfl, alike⟩
      | found places relative =>
          refine .inr ⟨places, rfl, rfl, fun inside => ?_⟩
          obtain ⟨kept, stay, here, there⟩ := inOrder_map plain.shown_ne_empty plain'.shown_ne_empty
            (relative inside)
          exact ⟨kept, stay, congrArg Except.ok here, congrArg Except.ok there⟩

section Bracket

def bracketEntries : List (String × FileNode) :=
  [("s.graphql", .file "type Query\x7ba:Int\x7d".toUTF8)]

/-- Three directories with the same file. The name of one of them is a pattern with a bracket. -/
def bracketTree : FileTree :=
  { root :=
      [("a[b]", .directory bracketEntries), ("b", .directory bracketEntries),
       ("c", .directory bracketEntries)] }

/-- Two patterns for the file, one of which is written with a `.` step. -/
def bracketSchema : SchemaConfig := .paths ["./s.graphql", "s.graphql"]

theorem sameContents_bracketTree {name : String} (known : name = "a[b]" ∨ name = "b") (up : Prop) :
    SameContents bracketTree up (Path.join "/" name) (Path.join "/" "c") := by
  have named : Path.IsFileName name := by
    rcases known with rfl | rfl <;> decide
  have found : (bracketTree.entries "/").lookup name = some (.directory bracketEntries) := by
    rcases known with rfl | rfl <;> rfl
  exact FileTree.sameContents_of_siblings (by decide) named (by decide) found rfl up

theorem matches_bracketTree : ∀ pattern ∈ bracketSchema.patterns,
    ∃ path, Matches bracketTree "/c" pattern path := by
  simp only [bracketSchema, SchemaConfig.patterns, List.forall_mem_cons, List.not_mem_nil,
    false_imp_iff, implies_true, and_true]
  refine ⟨⟨"/c/./s.graphql", matches_of_any ?_ ?_⟩, ⟨"/c/s.graphql", matches_of_any ?_ ?_⟩⟩ <;>
    decide +kernel

theorem files_bracketTree : ∃ found, files bracketTree bracketSchema "/c" = .ok found :=
  ⟨_, files_eq_ok_iff.2 ⟨by decide, matches_bracketTree, rfl⟩⟩

theorem files_relocated_bracketTree :
    IsPlain "/b" ∧ IsPlain "/c" ∧ ∃ kept : List Path,
      files bracketTree bracketSchema "/b" = .ok (kept.map (Path.join "/b")) ∧
      files bracketTree bracketSchema "/c" = .ok (kept.map (Path.join "/c")) := by
  have plain : IsPlain "/b" := by decide
  have plain' : IsPlain "/c" := by decide
  have shows : shown "/b" = "/b" := plain.shown_eq (.inl (by decide))
  have shows' : shown "/c" = "/c" := plain'.shown_eq (.inl (by decide))
  have same := sameContents_bracketTree (.inr rfl)
    (∃ pattern ∈ bracketSchema.patterns, Glob.Climbs pattern)
  have relative : ∀ pattern ∈ bracketSchema.patterns, Path.isAbsolute pattern = false := by decide
  obtain ⟨found, listed⟩ := files_bracketTree
  rcases files_relocated (by decide) bracketSchema plain plain' (by decide +kernel) same with
    ⟨error, error', -, there, -⟩ | ⟨places, here, there, places'⟩
  · cases listed.symm.trans there
  · obtain ⟨kept, -, here, there⟩ := places' relative
    rw [shows] at here
    rw [shows'] at there
    exact ⟨plain, plain', kept, here, there⟩

/-- The pattern `a[b]` stands for `ab`, which is not there. -/
theorem expandBelow_bracketTree (directories : Bool) (bound : Nat) (rest : List Glob.Pattern) :
    Glob.expandBelow bracketTree directories bound ([.char 'a', .oneOf [.char 'b']] :: rest) "/" =
      [] := by
  cases bound with
  | zero => rfl
  | succ bound =>
      have noLiteral : Glob.Pattern.literal? [.char 'a', .oneOf [.char 'b']] = none := rfl
      have single : Glob.Pattern.isRecursive [.char 'a', .oneOf [.char 'b']] = false := rfl
      have names : (bracketTree.entries "/").map (·.1) = ["a[b]", "b", "c"] := rfl
      have refused : ∀ name ∈ ["a[b]", "b", "c"],
          Glob.Pattern.accepts [.char 'a', .oneOf [.char 'b']] name = false := by decide
      rw [Glob.expandBelow_succ, noLiteral]
      dsimp only
      rw [single, if_neg Bool.false_ne_true, ite_eq_left_iff]
      intro _
      rw [List.flatMap_eq_nil_iff]
      intro name member
      rw [Glob.choices_eq, List.mem_append, Glob.sortedNames, List.mem_mergeSort, names] at member
      rcases member with member | member
      · rw [refused name member]
        rfl
      · cases member

/-- Behind the bracket nothing is found. -/
theorem files_missed_behind_bracket :
    SameContents bracketTree True "/a[b]" "/c" ∧ bracketTree.isDirectory "/a[b]" = true ∧
      files bracketTree bracketSchema "/a[b]" = .error (.noFiles ["./s.graphql"]) ∧
      ∃ found, files bracketTree bracketSchema "/c" = .ok found := by
  refine ⟨sameContents_bracketTree (.inl rfl) True, by decide +kernel, ?_, files_bracketTree⟩
  have nothing : Glob.expand bracketTree (Path.join "/a[b]" "./s.graphql") = .ok [] := by
    have whole : (Glob.Pattern.parse (Path.join "/a[b]" "./s.graphql")).toOption.any
        (fun _ => true) = true := by decide +kernel
    have absolute : Path.isAbsolute (Path.join "/a[b]" "./s.graphql") = true := by decide
    have parsed : (Glob.pieces ((Path.join "/a[b]" "./s.graphql").toList.dropWhile
        (· == Glob.separator))).mapM Glob.Pattern.parse =
        .ok [[.char 'a', .oneOf [.char 'b']], [.char '.'], "s.graphql".toList.map .char] := by
      decide +kernel
    obtain ⟨found, read, -⟩ := exists_ok_of_any whole
    unfold Glob.expand
    rw [absolute]
    refine bind_eq_ok_iff.2 ⟨found, read, bind_eq_ok_iff.2 ⟨_, parsed, ?_⟩⟩
    exact congrArg Except.ok (expandBelow_bracketTree _ _ _)
  have failed : matchedFiles bracketTree "/a[b]" "./s.graphql" =
      .error (.noFiles ["./s.graphql"]) := matchedFiles_of_expand nothing
  have served : bracketSchema.source? = none := by decide
  have patterns : bracketSchema.patterns = ["./s.graphql", "s.graphql"] := rfl
  rw [files_eq_gather served, patterns, gather_cons, failed]
  rfl

end Bracket

end Schema

end FieldUsage
