import FieldUsage.File.Tree
import FieldUsage.Proofs.Path

/-!
Where paths lead to in a tree of files. What is at a path stands in the directory to which the path
leads without its last component.
-/

namespace FieldUsage.FileTree

open FieldUsage.Path (Component)

variable {root : List (String × FileNode)}

/-- A path that goes on leads through a directory or a link, or it leads nowhere. -/
theorem descend_append_cases (root : List (String × FileNode)) (trail : Trail)
    (components : List Component) {more : List Component} (solid : more ≠ []) :
    (∃ inner : Trail,
      descend root trail components =
        .node (.directory (inner.entries root)) (inner.map (·.name)).reverse ∧
      descend root trail (components ++ more) = descend root inner more) ∨
    (∃ inner target rest, descend root trail components = .link inner target rest ∧
      descend root trail (components ++ more) = .link inner target (rest ++ more)) ∨
    ((∀ entries names, descend root trail components ≠ .node (.directory entries) names) ∧
      (∀ inner target rest, descend root trail components ≠ .link inner target rest) ∧
      ∃ fault, descend root trail (components ++ more) = .fault fault) := by
  induction components generalizing trail with
  | nil => exact .inl ⟨trail, rfl, rfl⟩
  | cons component rest ih =>
      cases component with
      | root => exact ih []
      | here => exact ih trail
      | up => exact ih trail.tail
      | name name =>
          simp only [List.cons_append, descend]
          cases found : (trail.entries root).lookup name with
          | none => exact .inr (.inr ⟨nofun, nofun, _, rfl⟩)
          | some node =>
              cases node with
              | directory entries => exact ih _
              | link target => exact .inr (.inl ⟨_, _, _, rfl, rfl⟩)
              | file bytes =>
                  have more_left : (rest ++ more).isEmpty = false := by simp [solid]
                  refine .inr (.inr ⟨?_, ?_, .notDirectory, by simp [more_left]⟩)
                  all_goals
                    intros
                    dsimp only
                    split <;> simp

/-- What is at a path stands in a directory. -/
theorem exists_directory_of_follow {links : Nat} {trail : Trail} {components : List Component}
    {component : Component} {found : FileNode × List String}
    (followed : follow root links trail (components ++ [component]) = .ok found) :
    ∃ entries names, follow root links trail components = .ok (.directory entries, names) := by
  induction links generalizing trail components with
  | zero =>
      rw [follow] at followed ⊢
      rcases descend_append_cases root trail components (List.cons_ne_nil component []) with
        ⟨inner, here, -⟩ | ⟨inner, target, rest, -, there⟩ | ⟨-, -, fault, there⟩
      · exact ⟨_, _, by rw [here]⟩
      · rw [there] at followed
        cases followed
      · rw [there] at followed
        cases followed
  | succ links ih =>
      rw [follow] at followed ⊢
      rcases descend_append_cases root trail components (List.cons_ne_nil component []) with
        ⟨inner, here, -⟩ | ⟨inner, target, rest, here, there⟩ | ⟨-, -, fault, there⟩
      · exact ⟨_, _, by rw [here]⟩
      · rw [there] at followed
        rw [here]
        refine @ih inner (Path.components target ++ rest) ?_
        rw [List.append_assoc]
        exact followed
      · rw [there] at followed
        cases followed

theorem follow_ne_directory {links : Nat} {trail : Trail} {components : List Component}
    (noDirectory : ∀ entries names,
      descend root trail components ≠ .node (.directory entries) names)
    (noLink : ∀ inner target rest, descend root trail components ≠ .link inner target rest)
    (entries : List (String × FileNode)) (names : List String) :
    follow root links trail components ≠ .ok (.directory entries, names) := by
  intro followed
  rw [follow] at followed
  split at followed
  case h_1 here =>
    cases followed
    exact noDirectory _ _ here
  case h_2 => cases followed
  case h_3 here => exact noLink _ _ _ here

/-- A file in a directory is at the path of the directory with the name of the file. -/
theorem follow_append_name {links : Nat} {trail : Trail} {components : List Component}
    {entries : List (String × FileNode)} {names : List String} {name : String} {bytes : ByteArray}
    (followed : follow root links trail components = .ok (.directory entries, names))
    (found : entries.lookup name = some (.file bytes)) :
    follow root links trail (components ++ [.name name]) = .ok (.file bytes, names ++ [name]) := by
  induction links generalizing trail components with
  | zero =>
      rcases descend_append_cases root trail components (List.cons_ne_nil (.name name) []) with
        ⟨inner, here, there⟩ | ⟨inner, target, rest, here, -⟩ | ⟨noDirectory, noLink, -⟩
      · rw [follow, here] at followed
        cases followed
        rw [follow, there, descend, found]
        rfl
      · rw [follow, here] at followed
        cases followed
      · exact absurd followed (follow_ne_directory noDirectory noLink _ _)
  | succ links ih =>
      rcases descend_append_cases root trail components (List.cons_ne_nil (.name name) []) with
        ⟨inner, here, there⟩ | ⟨inner, target, rest, here, there⟩ | ⟨noDirectory, noLink, -⟩
      · rw [follow, here] at followed
        cases followed
        rw [follow, there, descend, found]
        rfl
      · rw [follow, here] at followed
        rw [follow, there]
        simp only
        rw [← List.append_assoc]
        exact ih followed
      · exact absurd followed (follow_ne_directory noDirectory noLink _ _)

/-- A step that stays changes nothing. -/
theorem follow_here (links : Nat) (trail : Trail) (components : List Component) :
    follow root links trail (.here :: components) = follow root links trail components := by
  rw [follow, follow]
  rfl

variable {tree : FileTree}

/-- The directory in which a path says that something stands: where the path leads to without its
last component. -/
def directoryOf (tree : FileTree) (path : Path) : Except FileFault (FileNode × List String) :=
  follow tree.root linkLimit tree.currentTrail (Path.components path).dropLast

theorem locate_eq_of_follow {path : Path} (solid : path ≠ "") {entries : List (String × FileNode)}
    {names : List String}
    (followed : follow tree.root linkLimit tree.currentTrail (Path.components path) =
      .ok (.directory entries, names)) :
    tree.locate path = .ok (.directory entries, names) := by
  unfold locate
  rw [followed]
  simp [solid, bind, Except.bind, pure, Except.pure]

theorem follow_of_readText {path : Path} {text : List Char} (read : tree.readText path = .ok text) :
    ∃ found, follow tree.root linkLimit tree.currentTrail (Path.components path) = .ok found := by
  cases followed : follow tree.root linkLimit tree.currentTrail (Path.components path) with
  | ok found => exact ⟨found, rfl⟩
  | error fault =>
      unfold readText lookup locate at read
      rw [followed] at read
      split at read <;> cases read

/-- What is located is reached by a walk; a file only by a path that does not ask for a directory. -/
theorem follow_of_locate {path : Path} {found : FileNode × List String}
    (located : tree.locate path = .ok found) :
    path ≠ "" ∧ follow tree.root linkLimit tree.currentTrail (Path.components path) = .ok found ∧
      ∀ bytes names, found = (.file bytes, names) → namesDirectory path = false := by
  unfold locate at located
  split at located
  case isTrue => cases located
  case isFalse solid =>
    refine ⟨by simpa using solid, ?_⟩
    generalize follow tree.root linkLimit tree.currentTrail (Path.components path) = followed
      at located ⊢
    match followed with
    | .error _ => cases located
    | .ok (.file _, _) =>
        dsimp only [bind, Except.bind] at located
        split at located
        case isTrue => cases located
        case isFalse plain => exact ⟨located, fun _ _ _ => by simpa using plain⟩
    | .ok (.directory _, _) | .ok (.link _, _) =>
        cases located
        exact ⟨rfl, nofun⟩

theorem locate_eq_file_of_follow {path : Path} (solid : path ≠ "")
    (plain : namesDirectory path = false) {bytes : ByteArray} {names : List String}
    (followed : follow tree.root linkLimit tree.currentTrail (Path.components path) =
      .ok (.file bytes, names)) : tree.locate path = .ok (.file bytes, names) := by
  unfold locate
  rw [followed, plain]
  simp [solid, bind, Except.bind, pure, Except.pure]

/-- A path leads to a directory if the walk along its components does. -/
theorem isDirectory_iff {path : Path} :
    tree.isDirectory path = true ↔ path ≠ "" ∧ ∃ entries names,
      follow tree.root linkLimit tree.currentTrail (Path.components path) =
        .ok (.directory entries, names) := by
  constructor
  · intro directory
    unfold isDirectory lookup at directory
    cases located : tree.locate path with
    | error fault =>
        rw [located] at directory
        cases directory
    | ok found =>
        rw [located] at directory
        obtain ⟨solid, followed, -⟩ := follow_of_locate located
        match found with
        | (.directory entries, names) => exact ⟨solid, entries, names, followed⟩
        | (.file _, _) | (.link _, _) => cases directory
  · rintro ⟨solid, entries, names, followed⟩
    unfold isDirectory lookup
    rw [locate_eq_of_follow solid followed]
    rfl

theorem follow_of_isFile {path : Path} (file : tree.isFile path = true) :
    path ≠ "" ∧ namesDirectory path = false ∧ ∃ found,
      follow tree.root linkLimit tree.currentTrail (Path.components path) = .ok found := by
  unfold isFile lookup at file
  cases located : tree.locate path with
  | error fault =>
      rw [located] at file
      cases file
  | ok found =>
      rw [located] at file
      obtain ⟨solid, followed, plain⟩ := follow_of_locate located
      match found with
      | (.file bytes, names) => exact ⟨solid, plain bytes names rfl, _, followed⟩
      | (.directory _, _) | (.link _, _) => cases file

/-- A file is where it is in its directory. -/
theorem locate_of_parent? {path above : Path} {name : String} {bytes : ByteArray}
    {entries : List (String × FileNode)} {names : List String}
    (parent : Path.parent? path = some above) (named : Path.fileName? path = some name)
    (plain : namesDirectory path = false)
    (located : tree.locate (if above.isEmpty then "." else above) = .ok (.directory entries, names))
    (found : entries.lookup name = some (.file bytes)) :
    tree.locate path = .ok (.file bytes, names ++ [name]) := by
  have followed : follow tree.root linkLimit tree.currentTrail (Path.components above) =
      .ok (.directory entries, names) := by
    have := (follow_of_locate located).2.1
    split at this
    case isFalse => exact this
    case isTrue empty =>
      obtain rfl : above = "" := by simpa using empty
      exact (follow_here _ _ []).symm.trans this
  apply locate_eq_file_of_follow _ plain
  · rw [Path.components_of_parent? parent named]
    exact follow_append_name followed found
  · rintro rfl
    cases named

theorem namesDirectory_of_fileName {name : String} (named : Path.IsFileName name) (before : Path) :
    namesDirectory (before ++ name) = false := by
  obtain ⟨c, rest, shape, solid, step⟩ := named.exists_reverse
  unfold namesDirectory
  rw [String.toList_append, List.reverse_append, shape, List.cons_append]
  split
  case h_1 same => exact absurd (List.head_eq_of_cons_eq same) solid
  case h_2 same =>
    obtain ⟨d, more, rfl, other⟩ := step (List.head_eq_of_cons_eq same)
    exact absurd (List.head_eq_of_cons_eq (List.tail_eq_of_cons_eq same)) other
  case h_3 => rfl

theorem namesDirectory_name {name : String} (named : Path.IsFileName name) :
    namesDirectory name = false := by
  simpa using namesDirectory_of_fileName named ""

theorem namesDirectory_join (directory : Path) {name : String} (named : Path.IsFileName name) :
    namesDirectory (directory.join name) = false := by
  unfold Path.join
  rw [Path.isAbsolute_of_notMem named.1]
  simp only [Bool.false_eq_true, if_false]
  split <;> exact namesDirectory_of_fileName named _

theorem namesDirectory_join_empty {directory : Path} (solid : directory ≠ "") :
    namesDirectory (directory.join "") = true := by
  unfold Path.join
  rw [if_neg (by decide)]
  split
  case isTrue ends =>
    rw [Bool.or_eq_true, beq_iff_eq] at ends
    rcases ends with empty | last
    · exact absurd (by simpa using empty) solid
    · obtain ⟨before, shape⟩ := List.getLast?_eq_some_iff.1 last
      unfold namesDirectory
      rw [String.append_empty, shape, List.reverse_append]
      rfl
  case isFalse =>
    unfold namesDirectory
    rw [String.append_empty, String.toList_append, List.reverse_append]
    rfl

theorem readText_here (tree : FileTree) {name : String} (named : Path.IsFileName name) :
    tree.readText ("./" ++ name) = tree.readText name := by
  have solid : name.isEmpty = false ∧ ("./" ++ name).isEmpty = false := by
    simp [named.2.1]
  have located : tree.locate ("./" ++ name) = tree.locate name := by
    unfold locate
    rw [namesDirectory_name named, namesDirectory_of_fileName named, solid.1, solid.2, named.components_eq,
      named.components_here, follow_here]
  unfold readText lookup
  rw [located]

/-- A file has the same text under all spellings of its path. -/
theorem readText_congr {first second : Path} (same : Path.components first = Path.components second)
    (file : tree.isFile first = true) (file' : tree.isFile second = true) :
    tree.readText first = tree.readText second := by
  obtain ⟨solid, plain, -⟩ := follow_of_isFile file
  obtain ⟨solid', plain', -⟩ := follow_of_isFile file'
  have located : tree.locate first = tree.locate second := by
    unfold locate
    simp [solid, solid', plain, plain', same]
  unfold readText lookup
  rw [located]

theorem locate_current (tree : FileTree) :
    tree.locate "." = follow tree.root linkLimit tree.currentTrail [] := rfl

end FieldUsage.FileTree
