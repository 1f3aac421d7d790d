import FieldUsage.Proofs.File.Location

/-!
Trees of files without some of their files. Where a path leads to a file that is hidden, it leads
nowhere in the tree without the hidden files; every other path leads to the same place in both
trees. Only the faults of paths that lead nowhere may be different ones.
-/

namespace FieldUsage

namespace FileNode

variable (hidden : List String → Bool)

mutual

/-- A node without what is hidden in it. The names are those that lead to the node. -/
def without (names : List String) : FileNode → FileNode
  | .directory entries => .directory (entriesWithout names entries)
  | .file bytes => .file bytes
  | .link target => .link target

def entriesWithout (names : List String) : List (String × FileNode) → List (String × FileNode)
  | [] => []
  | (name, node) :: rest =>
      if hidden (names ++ [name]) then entriesWithout names rest
      else (name, node.without (names ++ [name])) :: entriesWithout names rest

end

def isRegular : FileNode → Bool
  | .file _ => true
  | _ => false

mutual

/-- Everything that is hidden in a node is a file, under a name that a path can have. -/
def hidesFiles (names : List String) : FileNode → Bool
  | .directory entries => entriesHideFiles names entries
  | .file _ => true
  | .link _ => true

def entriesHideFiles (names : List String) : List (String × FileNode) → Bool
  | [] => true
  | (name, node) :: rest =>
      (!hidden (names ++ [name]) || (decide (Path.IsFileName name) && node.isRegular)) &&
        node.hidesFiles (names ++ [name]) && entriesHideFiles names rest

end

variable {hidden}

/-- A hidden entry is not found, and any other one without what is hidden in it. -/
theorem lookup_entriesWithout (names : List String) (entries : List (String × FileNode))
    (name : String) :
    (entriesWithout hidden names entries).lookup name =
      if hidden (names ++ [name]) then none
      else (entries.lookup name).map (without hidden (names ++ [name])) := by
  induction entries with
  | nil => simp [entriesWithout]
  | cons entry rest ih =>
      obtain ⟨other, node⟩ := entry
      rw [entriesWithout]
      by_cases same : name = other
      · subst same
        split
        case isTrue unseen => rw [ih, if_pos unseen]
        case isFalse => simp
      · have different : (name == other) = false := by simpa using same
        split
        case isTrue => rw [ih, List.lookup_cons, different]
        case isFalse => rw [List.lookup_cons, different, ih, List.lookup_cons, different]

theorem map_fst_entriesWithout (names : List String) (entries : List (String × FileNode)) :
    (entriesWithout hidden names entries).map (·.1) =
      (entries.map (·.1)).filter fun name => !hidden (names ++ [name]) := by
  induction entries with
  | nil => rfl
  | cons entry rest ih =>
      obtain ⟨name, node⟩ := entry
      rw [entriesWithout]
      split
      case isTrue unseen => simp [unseen, ih]
      case isFalse seen => simp [seen, ih]

theorem hides_of_lookup {names : List String} {entries : List (String × FileNode)}
    (hides : entriesHideFiles hidden names entries = true) {name : String} {node : FileNode}
    (found : entries.lookup name = some node) :
    (hidden (names ++ [name]) = true → Path.IsFileName name ∧ ∃ bytes, node = .file bytes) ∧
      node.hidesFiles hidden (names ++ [name]) = true := by
  induction entries with
  | nil => cases found
  | cons entry rest ih =>
      obtain ⟨other, first⟩ := entry
      rw [entriesHideFiles, Bool.and_eq_true, Bool.and_eq_true] at hides
      obtain ⟨⟨file, inner⟩, others⟩ := hides
      rw [List.lookup_cons] at found
      split at found
      case h_2 => exact ih others found
      case h_1 same =>
        obtain rfl := eq_of_beq same
        obtain rfl := Option.some.inj found
        refine ⟨fun unseen => ?_, inner⟩
        rw [unseen, Bool.not_true, Bool.false_or, Bool.and_eq_true, decide_eq_true_iff] at file
        obtain ⟨named, regular⟩ := file
        cases first with
        | file bytes => exact ⟨named, bytes, rfl⟩
        | link | directory => cases regular

mutual

/-- Files are not deep, so without some of them a tree is as deep as before. -/
theorem depth_without (names : List String) (node : FileNode)
    (hides : node.hidesFiles hidden names = true) : (node.without hidden names).depth = node.depth := by
  match node with
  | .directory entries =>
      rw [without, depth, depth, entriesDepth_without names entries hides]
  | .file _ => rfl
  | .link _ => rfl

theorem entriesDepth_without (names : List String) (entries : List (String × FileNode))
    (hides : entriesHideFiles hidden names entries = true) :
    entriesDepth (entriesWithout hidden names entries) = entriesDepth entries := by
  match entries with
  | [] => rfl
  | (name, node) :: rest =>
      rw [entriesHideFiles, Bool.and_eq_true, Bool.and_eq_true] at hides
      obtain ⟨⟨first, inner⟩, others⟩ := hides
      have tail := entriesDepth_without names rest others
      rw [entriesWithout, entriesDepth]
      split
      case isTrue unseen =>
        -- A file counts nothing.
        have regular : node.isRegular = true := by
          rw [unseen] at first
          simp_all
        have flat : node.depth = 0 := by
          cases node with
          | file => rfl
          | link | directory => cases regular
        rw [tail, flat, Nat.zero_max]
      case isFalse =>
        rw [entriesDepth, tail, depth_without (names ++ [name]) node inner]

end

end FileNode

namespace FileTree

open FieldUsage.Path (Component)
open FileNode (entriesWithout entriesHideFiles)

namespace Trail

def names (trail : Trail) : List String := (trail.map (·.name)).reverse

def without (hidden : List String → Bool) : Trail → Trail
  | [] => []
  | place :: outer =>
      { place with entries := entriesWithout hidden (names (place :: outer)) place.entries } ::
        without hidden outer

/-- Everything that is hidden in the directories of a trail is a file. -/
def HidesFiles (hidden : List String → Bool) (root : List (String × FileNode)) : Trail → Prop
  | [] => entriesHideFiles hidden [] root = true
  | place :: outer =>
      entriesHideFiles hidden (names (place :: outer)) place.entries = true ∧
        HidesFiles hidden root outer

variable {hidden : List String → Bool} {root : List (String × FileNode)} {trail : Trail}

theorem names_cons (place : Place) (outer : Trail) :
    names (place :: outer) = names outer ++ [place.name] := by
  simp [names]

theorem map_name_without (trail : Trail) :
    (trail.without hidden).map (·.name) = trail.map (·.name) := by
  induction trail with
  | nil => rfl
  | cons place outer ih => rw [without, List.map_cons, List.map_cons, ih]

theorem entries_without (trail : Trail) :
    (trail.without hidden).entries (entriesWithout hidden [] root) =
      entriesWithout hidden trail.names (trail.entries root) := by
  cases trail <;> rfl

theorem tail_without (trail : Trail) :
    (trail.without hidden).tail = without hidden trail.tail := by
  cases trail <;> rfl

theorem HidesFiles.outermost (hides : trail.HidesFiles hidden root) :
    HidesFiles hidden root ([] : Trail) := by
  induction trail with
  | nil => exact hides
  | cons place outer ih => exact ih hides.2

theorem HidesFiles.tail (hides : trail.HidesFiles hidden root) :
    HidesFiles hidden root trail.tail := by
  cases trail with
  | nil => exact hides
  | cons place outer => exact hides.2

theorem HidesFiles.entries (hides : trail.HidesFiles hidden root) :
    entriesHideFiles hidden trail.names (trail.entries root) = true := by
  cases trail with
  | nil => exact hides
  | cons place outer => exact hides.1

end Trail

/-- Where a path leads to up to its first link, with and without the hidden files. -/
inductive Reached.Without (hidden : List String → Bool) (root : List (String × FileNode)) :
    Reached → Reached → Prop
  | directory (entries : List (String × FileNode)) (names : List String)
      (hides : entriesHideFiles hidden names entries = true) :
      Without hidden root (.node (.directory entries) names)
        (.node (.directory (entriesWithout hidden names entries)) names)
  | file (bytes : ByteArray) {names : List String} (seen : hidden names = false) :
      Without hidden root (.node (.file bytes) names) (.node (.file bytes) names)
  | gone (bytes : ByteArray) {names : List String} (fault : FileFault)
      (unseen : hidden names = true) :
      Without hidden root (.node (.file bytes) names) (.fault fault)
  | link {trail : Trail} (target : Path) (rest : List Component)
      (hides : trail.HidesFiles hidden root) :
      Without hidden root (.link trail target rest) (.link (trail.without hidden) target rest)
  | fault (first second : FileFault) : Without hidden root (.fault first) (.fault second)

variable {hidden : List String → Bool} {root : List (String × FileNode)}

/-- Without the hidden files a walk goes the same way, unless it ends at one of them. -/
theorem descend_without {trail : Trail} (hides : trail.HidesFiles hidden root)
    (components : List Component) :
    Reached.Without hidden root (descend root trail components)
      (descend (entriesWithout hidden [] root) (trail.without hidden) components) := by
  induction components generalizing trail with
  | nil =>
      rw [descend, descend, Trail.entries_without, Trail.map_name_without]
      exact .directory _ _ hides.entries
  | cons component rest ih =>
      cases component with
      | root => exact ih hides.outermost
      | here => exact ih hides
      | up =>
          rw [descend, descend, Trail.tail_without]
          exact ih hides.tail
      | name name =>
          rw [descend, descend, Trail.entries_without, FileNode.lookup_entriesWithout,
            Trail.map_name_without]
          cases found : (trail.entries root).lookup name with
          | none =>
              rw [Option.map_none, ite_self]
              exact .fault _ _
          | some node =>
              obtain ⟨file, inner⟩ := FileNode.hides_of_lookup hides.entries found
              cases unseen : hidden (trail.names ++ [name]) with
              | true =>
                  obtain ⟨-, bytes, rfl⟩ := file unseen
                  dsimp only [if_true]
                  split
                  · exact .gone _ _ unseen
                  · exact .fault _ _
              | false =>
                  cases node with
                  | directory entries =>
                      have places : Trail.names (⟨name, entries⟩ :: trail) = trail.names ++ [name] :=
                        Trail.names_cons _ _
                      have hides' : Trail.HidesFiles hidden root (⟨name, entries⟩ :: trail) := by
                        refine ⟨?_, hides⟩
                        rw [places]
                        exact inner
                      have next := ih hides'
                      rw [Trail.without, places] at next
                      exact next
                  | link target => exact .link target rest hides
                  | file bytes =>
                      dsimp only [Option.map_some, FileNode.without, Bool.false_eq_true, if_false]
                      split
                      · exact .file bytes unseen
                      · exact .fault _ _

/-- What a path leads to, with and without the hidden files. -/
inductive FoundWithout (hidden : List String → Bool) :
    Except FileFault (FileNode × List String) → Except FileFault (FileNode × List String) → Prop
  | directory (entries : List (String × FileNode)) (names : List String)
      (hides : entriesHideFiles hidden names entries = true) :
      FoundWithout hidden (.ok (.directory entries, names))
        (.ok (.directory (entriesWithout hidden names entries), names))
  | file (bytes : ByteArray) {names : List String} (seen : hidden names = false) :
      FoundWithout hidden (.ok (.file bytes, names)) (.ok (.file bytes, names))
  | gone (bytes : ByteArray) {names : List String} (fault : FileFault)
      (unseen : hidden names = true) : FoundWithout hidden (.ok (.file bytes, names)) (.error fault)
  | fault (first second : FileFault) : FoundWithout hidden (.error first) (.error second)

/-- The same holds of a walk through links. -/
theorem follow_without (links : Nat) {trail : Trail} (hides : trail.HidesFiles hidden root)
    (components : List Component) :
    FoundWithout hidden (follow root links trail components)
      (follow (entriesWithout hidden [] root) links (trail.without hidden) components) := by
  induction links generalizing trail components with
  | zero =>
      rw [follow, follow]
      have reached := descend_without hides components
      generalize descend root trail components = here at reached ⊢
      generalize descend _ (trail.without hidden) components = there at reached ⊢
      cases reached with
      | directory entries names hides => exact .directory entries names hides
      | file bytes seen => exact .file bytes seen
      | gone bytes fault unseen => exact .gone bytes fault unseen
      | link target rest hides => exact .fault _ _
      | fault first second => exact .fault first second
  | succ links ih =>
      rw [follow, follow]
      have reached := descend_without hides components
      generalize descend root trail components = here at reached ⊢
      generalize descend _ (trail.without hidden) components = there at reached ⊢
      cases reached with
      | directory entries names hides => exact .directory entries names hides
      | file bytes seen => exact .file bytes seen
      | gone bytes fault unseen => exact .gone bytes fault unseen
      | link target rest hides => exact ih hides _
      | fault first second => exact .fault first second

def without (hidden : List String → Bool) (tree : FileTree) : FileTree :=
  { tree with root := entriesWithout hidden [] tree.root }

def hidesFiles (hidden : List String → Bool) (tree : FileTree) : Bool :=
  entriesHideFiles hidden [] tree.root

/-- Whether a path leads to a hidden file. -/
def leadsTo (tree : FileTree) (hidden : List String → Bool) (path : Path) : Bool :=
  match tree.locate path with
  | .ok (.file _, names) => hidden names
  | _ => false

theorem isFile_of_leadsTo {tree : FileTree} {path : Path}
    (leads : tree.leadsTo hidden path = true) : tree.isFile path = true := by
  unfold leadsTo at leads
  unfold isFile lookup
  split at leads
  case h_1 located =>
    rw [located]
    rfl
  case h_2 => cases leads

/-- One step towards the current directory. -/
def enterPlace (root : List (String × FileNode)) (trail : Trail) (name : String) : Trail :=
  match (trail.entries root).lookup name with
  | some (.directory entries) => { name, entries } :: trail
  | _ => { name, entries := [] } :: trail

theorem enterPlace_without {trail : Trail} (hides : trail.HidesFiles hidden root) (name : String) :
    enterPlace (entriesWithout hidden [] root) (trail.without hidden) name =
        (enterPlace root trail name).without hidden ∧
      (enterPlace root trail name).HidesFiles hidden root := by
  unfold enterPlace
  rw [Trail.entries_without, FileNode.lookup_entriesWithout]
  cases found : (trail.entries root).lookup name with
  | none =>
      rw [Option.map_none, ite_self]
      exact ⟨rfl, rfl, hides⟩
  | some node =>
      obtain ⟨file, inner⟩ := FileNode.hides_of_lookup hides.entries found
      cases node with
      | file | link =>
          refine ⟨?_, rfl, hides⟩
          cases hidden (trail.names ++ [name]) <;> rfl
      | directory entries =>
          have seen : hidden (trail.names ++ [name]) = false := by
            cases unseen : hidden (trail.names ++ [name]) with
            | false => rfl
            | true =>
                obtain ⟨-, bytes, same⟩ := file unseen
                cases same
          have places : Trail.names (⟨name, entries⟩ :: trail) = trail.names ++ [name] :=
            Trail.names_cons _ _
          rw [seen]
          refine ⟨?_, ?_, hides⟩
          · simp only [Trail.without, places]
            rfl
          · rw [places]
            exact inner

variable {tree : FileTree} (hides : tree.hidesFiles hidden = true)
include hides

/-- The current directory is the same without hidden files. -/
theorem currentTrail_without :
    (tree.without hidden).currentTrail = tree.currentTrail.without hidden ∧
      tree.currentTrail.HidesFiles hidden tree.root := by
  have steps (names : List String) (trail : Trail) (inner : trail.HidesFiles hidden tree.root) :
      names.foldl (enterPlace (entriesWithout hidden [] tree.root)) (trail.without hidden) =
          (names.foldl (enterPlace tree.root) trail).without hidden ∧
        (names.foldl (enterPlace tree.root) trail).HidesFiles hidden tree.root := by
    induction names generalizing trail with
    | nil => exact ⟨rfl, inner⟩
    | cons name rest ih =>
        obtain ⟨same, inner⟩ := enterPlace_without inner name
        rw [List.foldl_cons, List.foldl_cons, same]
        exact ih _ inner
  exact steps tree.current [] hides

/-- What is located without the hidden files is what was there, unless it is hidden. -/
theorem locate_without (path : Path) :
    FoundWithout hidden (tree.locate path) ((tree.without hidden).locate path) := by
  obtain ⟨trail, inner⟩ := currentTrail_without hides
  unfold locate
  split
  · exact .fault _ _
  · rw [trail]
    have found := follow_without linkLimit inner (Path.components path)
    change FoundWithout hidden _ (follow (tree.without hidden).root _ _ _) at found
    generalize follow tree.root _ _ _ = here at found ⊢
    generalize follow _ _ _ _ = there at found ⊢
    cases found with
    | directory entries names hides => exact .directory entries names hides
    | file bytes seen =>
        dsimp only [bind, Except.bind]
        split
        · exact .fault _ _
        · exact .file bytes seen
    | gone bytes fault unseen =>
        dsimp only [bind, Except.bind]
        split
        · exact .fault _ _
        · exact .gone bytes fault unseen
    | fault first second => exact .fault first second

theorem isDirectory_without (path : Path) :
    (tree.without hidden).isDirectory path = tree.isDirectory path := by
  have found := locate_without hides path
  unfold isDirectory lookup
  generalize tree.locate path = here at found ⊢
  generalize (tree.without hidden).locate path = there at found ⊢
  cases found <;> rfl

/-- The files that are left are those that are not hidden. -/
theorem isFile_without (path : Path) :
    (tree.without hidden).isFile path = (tree.isFile path && !tree.leadsTo hidden path) := by
  have found := locate_without hides path
  unfold isFile leadsTo lookup
  generalize tree.locate path = here at found ⊢
  generalize (tree.without hidden).locate path = there at found ⊢
  cases found with
  | directory | fault => rfl
  | file bytes seen => simp [Except.map, seen]
  | gone bytes fault unseen => simp [Except.map, unseen]

/-- A file that is not hidden keeps its text. -/
theorem readText_without {path : Path} (seen : tree.leadsTo hidden path = false)
    (text : List Char) :
    (tree.without hidden).readText path = .ok text ↔ tree.readText path = .ok text := by
  have found := locate_without hides path
  unfold readText lookup
  unfold leadsTo at seen
  generalize tree.locate path = here at found seen ⊢
  generalize (tree.without hidden).locate path = there at found ⊢
  cases found with
  | directory => exact ⟨nofun, nofun⟩
  | file bytes => exact Iff.rfl
  | gone bytes fault unseen => exact absurd (unseen.symm.trans seen) (by decide)
  | fault => exact ⟨nofun, nofun⟩

/-- Something is at a path in both trees, unless the path leads to a hidden file. -/
theorem holds_without {path : Path} (seen : tree.leadsTo hidden path = false) :
    (tree.without hidden).holds path = tree.holds path := by
  have found := locate_without hides path
  unfold holds lookup
  cases located : tree.locate path with
  | ok node =>
      rw [located] at found
      generalize (tree.without hidden).locate path = there at found ⊢
      unfold leadsTo at seen
      rw [located] at seen
      cases found with
      | directory | file => rfl
      | gone bytes fault unseen => exact absurd (unseen.symm.trans seen) (by decide)
  | error fault =>
      have nowhere : ∃ fault, (tree.without hidden).locate path = .error fault := by
        rw [located] at found
        generalize (tree.without hidden).locate path = there at found ⊢
        cases found
        exact ⟨_, rfl⟩
      obtain ⟨_, nowhere⟩ := nowhere
      rw [nowhere]
      dsimp only [Except.map]
      split
      case h_2 => rfl
      case h_1 above name parent named =>
        have around := locate_without hides (if above.isEmpty then "." else above)
        generalize (tree.without hidden).locate (if above.isEmpty then "." else above) = there
          at around ⊢
        generalize inside : tree.locate (if above.isEmpty then "." else above) = here at around ⊢
        cases around with
        | file | gone | fault => rfl
        | directory entries names inner =>
            dsimp only
            rw [FileNode.lookup_entriesWithout]
            cases unseen : hidden (names ++ [name]) with
            | false => simp
            | true =>
                cases file : entries.lookup name with
                | none => rfl
                | some node =>
                    obtain ⟨-, bytes, rfl⟩ := (FileNode.hides_of_lookup inner file).1 unseen
                    cases plain : namesDirectory path with
                    | true => rfl
                    | false =>
                        -- The path would lead to the hidden file, but it leads nowhere.
                        have there := locate_of_parent? parent named plain inside file
                        cases located.symm.trans there

end FileTree

end FieldUsage
