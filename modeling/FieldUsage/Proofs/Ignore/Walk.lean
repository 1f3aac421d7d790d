import FieldUsage.Ignore.Walk
import FieldUsage.Proofs.File.Below

/-!
What a walk lists: the files that are not left out, with no directory left out on the way to them,
and each of them once.
-/

namespace FieldUsage.Ignore

variable {tree : FileTree} {levels : List Level} {path : Path}

/-- Whether neither the file to which names lead from the directory at a path nor a directory on the
way to it is left out. -/
def keeps (tree : FileTree) (levels : List Level) (path : Path) : List String → Bool
  | [] => false
  | [name] => !leavesOut (.ofDirectory tree path :: levels) name false
  | name :: next :: names =>
      let inside := Level.ofDirectory tree path :: levels
      !leavesOut inside name true &&
        keeps tree (inside.map (·.enter name)) (path.join name) (next :: names)

/-- The files at an entry of a directory and below. -/
def filesAt (tree : FileTree) (levels : List Level) (path : Path) :
    String × FileNode → List (List String)
  | (name, .file _) => if leavesOut levels name false then [] else [[name]]
  | (name, .directory entries) =>
      if leavesOut levels name true then []
      else
        (filesBelow tree (levels.map (·.enter name)) (path.join name) (.directory entries)).map
          (name :: ·)
  | (_, .link _) => []

theorem filesAmong_cons (entry : String × FileNode) (rest : List (String × FileNode)) :
    filesAmong tree levels path (entry :: rest) =
      filesAt tree levels path entry ++ filesAmong tree levels path rest := by
  obtain ⟨name, node⟩ := entry
  cases node <;> rfl

theorem mem_filesAmong_iff {entries : List (String × FileNode)} {names : List String} :
    names ∈ filesAmong tree levels path entries ↔
      ∃ entry ∈ entries, names ∈ filesAt tree levels path entry := by
  induction entries with
  | nil => simp [filesAmong]
  | cons entry rest ih => simp [filesAmong_cons, ih]

/-- Names that lead to a file begin with the name of an entry. -/
theorem exists_cons_of_mem_filesAt {entry : String × FileNode} {names : List String}
    (member : names ∈ filesAt tree levels path entry) : ∃ rest, names = entry.1 :: rest := by
  obtain ⟨name, node⟩ := entry
  cases node with
  | file bytes =>
      rw [filesAt] at member
      split at member
      · cases member
      · exact ⟨[], List.mem_singleton.1 member⟩
  | link target => cases member
  | directory entries =>
      rw [filesAt] at member
      split at member
      · cases member
      · obtain ⟨rest, -, rfl⟩ := List.mem_map.1 member
        exact ⟨rest, rfl⟩

/-- One step: an entry is listed, or entered, unless it is left out. -/
theorem mem_filesAt_iff {name : String} {node : FileNode} {rest : List String}
    (further : ∀ levels path, rest ∈ filesBelow tree levels path node ↔
      (∃ bytes, node.fileAt? rest = some bytes) ∧ keeps tree levels path rest = true) :
    name :: rest ∈ filesAt tree (.ofDirectory tree path :: levels) path (name, node) ↔
      (∃ bytes, node.fileAt? rest = some bytes) ∧ keeps tree levels path (name :: rest) = true := by
  cases node with
  | file bytes => cases rest <;> simp [filesAt, FileNode.fileAt?, keeps]
  | link target => simp [filesAt, FileNode.fileAt?]
  | directory entries =>
      cases rest with
      | nil =>
          have absent (levels : List Level) (path : Path) :
              [] ∉ filesBelow tree levels path (.directory entries) := by
            simp [further, keeps]
          simp [filesAt, FileNode.fileAt?, absent]
      | cons next more =>
          simp [filesAt, keeps, further, and_left_comm]

/-- The files below a node are those to which names lead without anything left out. -/
theorem mem_filesBelow_iff {node : FileNode} (sound : node.distinct = true) {names : List String}
    (levels : List Level) (path : Path) :
    names ∈ filesBelow tree levels path node ↔
      (∃ bytes, node.fileAt? names = some bytes) ∧ keeps tree levels path names = true := by
  -- each name goes one directory further down, where other rules count at another path
  induction names generalizing node levels path with
  | nil =>
      have none : [] ∉ filesBelow tree levels path node := by
        cases node with
        | file | link => simp [filesBelow]
        | directory entries =>
            rw [filesBelow, mem_filesAmong_iff]
            rintro ⟨entry, -, member⟩
            obtain ⟨rest, made⟩ := exists_cons_of_mem_filesAt member
            cases made
      simp [none, keeps]
  | cons name rest ih =>
      cases node with
      | file | link => simp [filesBelow, FileNode.fileAt?]
      | directory entries =>
          obtain ⟨apart, inside⟩ : (entries.map (·.1)).Nodup ∧
              FileNode.entriesDistinct entries = true := by
            simpa [FileNode.distinct] using sound
          rw [filesBelow, mem_filesAmong_iff]
          constructor
          · rintro ⟨⟨other, node⟩, among, member⟩
            obtain ⟨_, made⟩ := exists_cons_of_mem_filesAt member
            obtain ⟨rfl, -⟩ := List.cons.inj made
            have found := (Dict.mem_iff_lookup apart name node).1 among
            obtain ⟨⟨bytes, further⟩, kept⟩ :=
              (mem_filesAt_iff (ih (FileNode.distinct_of_mem inside among))).1 member
            exact ⟨⟨bytes, Option.bind_eq_some_iff.2 ⟨node, found, further⟩⟩, kept⟩
          · rintro ⟨⟨bytes, leads⟩, kept⟩
            obtain ⟨node, found, further⟩ := Option.bind_eq_some_iff.1 leads
            have among := (Dict.mem_iff_lookup apart name node).2 found
            have member := (mem_filesAt_iff (ih (FileNode.distinct_of_mem inside among))).2
              ⟨⟨bytes, further⟩, kept⟩
            exact ⟨(name, node), among, member⟩

/-- No file is met twice at an entry: what is below begins with the name of the entry. -/
theorem nodup_filesAt {name : String} {node : FileNode}
    (below : ∀ levels path, (filesBelow tree levels path node).Nodup) :
    (filesAt tree levels path (name, node)).Nodup := by
  cases node with
  | file bytes =>
      rw [filesAt]
      split <;> simp
  | link target => exact List.nodup_nil
  | directory entries =>
      rw [filesAt]
      split
      · exact List.nodup_nil
      · exact (below _ _).map List.cons_injective

mutual

/-- No file is listed twice. -/
theorem nodup_filesBelow (levels : List Level) (path : Path) :
    (node : FileNode) → node.distinct = true → (filesBelow tree levels path node).Nodup
  | .file _, _ => List.nodup_nil
  | .link _, _ => List.nodup_nil
  | .directory entries, sound => by
      rw [FileNode.distinct, Bool.and_eq_true, decide_eq_true_eq] at sound
      exact nodup_filesAmong (.ofDirectory tree path :: levels) path entries sound.1 sound.2

theorem nodup_filesAmong (levels : List Level) (path : Path) :
    (entries : List (String × FileNode)) → (entries.map (·.1)).Nodup →
      FileNode.entriesDistinct entries = true → (filesAmong tree levels path entries).Nodup
  | [], _, _ => List.nodup_nil
  | (name, node) :: rest, apart, sound => by
      obtain ⟨fresh, apart⟩ := List.nodup_cons.1 apart
      rw [FileNode.entriesDistinct, Bool.and_eq_true] at sound
      rw [filesAmong_cons]
      apply List.Nodup.append
      · exact nodup_filesAt fun levels path => nodup_filesBelow levels path node sound.1
      · exact nodup_filesAmong levels path rest apart sound.2
      · intro names here later
        obtain ⟨entry, among, later⟩ := mem_filesAmong_iff.1 later
        obtain ⟨first, rfl⟩ := exists_cons_of_mem_filesAt here
        obtain ⟨second, same⟩ := exists_cons_of_mem_filesAt later
        obtain ⟨rfl, -⟩ := List.cons.inj same
        exact fresh (List.mem_map.2 ⟨entry, among, rfl⟩)

end

/-- Where a walk begins: what is at its path. Entries stand under names of files, and those of a
directory under different ones. -/
structure Start (tree : FileTree) (root : Path) where
  node : FileNode
  /-- The names that lead to the node. -/
  place : List String
  located : tree.locate root = .ok (node, place)
  named : node.named = true
  distinct : node.distinct = true

namespace Start

variable {root : Path} (start : Start tree root)

/-- A path leads from where a walk begins to a file with these bytes, and neither the file nor a
directory on the way to it is left out. -/
def Lists (path : Path) (bytes : ByteArray) : Prop :=
  ∃ names, path = "/".intercalate names ∧ start.node.fileAt? names = some bytes ∧
    keeps tree (levelsAbove tree start.place.reverse) root names = true

/-- The files that are not left out, each once and in any order. -/
structure IsWalk (walked : List Path) : Prop where
  once : walked.Nodup
  mem_iff : ∀ path, path ∈ walked ↔ ∃ bytes, start.Lists path bytes

variable {start}

theorem Lists.exists_names {path : Path} {bytes : ByteArray} (lists : start.Lists path bytes) :
    ∃ names, path = "/".intercalate names ∧ names ≠ [] ∧ start.node.fileAt? names = some bytes ∧
      ∀ name ∈ names, Path.IsFileName name := by
  obtain ⟨names, rfl, found, kept⟩ := lists
  have given : names ≠ [] := by
    rintro rfl
    cases kept
  exact ⟨names, rfl, given, found, FileNode.isFileName_of_fileAt? start.named found⟩

theorem root_ne_empty (start : Start tree root) : root ≠ "" :=
  (FileTree.follow_of_locate start.located).1

/-- A listed file is at its path. -/
theorem Lists.lookup_eq {path : Path} {bytes : ByteArray} (lists : start.Lists path bytes) :
    tree.lookup (root.join path) = .ok (.file bytes) := by
  obtain ⟨names, rfl, given, found, -⟩ := lists.exists_names
  exact FileTree.lookup_of_fileAt? start.located start.named given found

theorem Lists.extension?_join {path : Path} {bytes : ByteArray} (lists : start.Lists path bytes) :
    (root.join path).extension? = path.extension? := by
  obtain ⟨names, rfl, given, -, named⟩ := lists.exists_names
  exact Path.extension?_join_intercalate named start.root_ne_empty given

/-- The files of the walk, by the names that lead to them. -/
def listed (start : Start tree root) : List (List String) :=
  filesBelow tree (levelsAbove tree start.place.reverse) root start.node

/-- Exactly the files that are not left out are listed. -/
theorem mem_listed_iff {names : List String} :
    names ∈ start.listed ↔ (∃ bytes, start.node.fileAt? names = some bytes) ∧
      keeps tree (levelsAbove tree start.place.reverse) root names = true :=
  mem_filesBelow_iff start.distinct _ root

/-- A walk that can begin gives the listed files. -/
theorem walk_eq (start : Start tree root) :
    walk tree root = .ok (start.listed.map ("/".intercalate ·)) := by
  unfold walk
  rw [start.located]
  rfl

/-- The walk lists every file that is not left out, and none twice. -/
theorem isWalk_listed (start : Start tree root) :
    start.IsWalk (start.listed.map ("/".intercalate ·)) where
  once := by
    have named {names : List String} (member : names ∈ start.listed) :
        ∀ name ∈ names, Path.IsFileName name := by
      obtain ⟨⟨_, found⟩, -⟩ := mem_listed_iff.1 member
      exact FileNode.isFileName_of_fileAt? start.named found
    apply List.Nodup.map_on
    · intro first here second there same
      exact Path.intercalate_inj (named here) (named there) same
    · exact nodup_filesBelow _ root start.node start.distinct
  mem_iff path := by
    rw [List.mem_map]
    constructor
    · rintro ⟨names, member, rfl⟩
      obtain ⟨⟨bytes, found⟩, kept⟩ := mem_listed_iff.1 member
      exact ⟨bytes, names, rfl, found, kept⟩
    · rintro ⟨bytes, names, rfl, found, kept⟩
      exact ⟨names, mem_listed_iff.2 ⟨⟨bytes, found⟩, kept⟩, rfl⟩

/-- A walk in another order is a walk. -/
theorem IsWalk.of_perm {first second : List Path} (walk : start.IsWalk first)
    (same : first.Perm second) : start.IsWalk second where
  once := same.nodup_iff.1 walk.once
  mem_iff path := by rw [← same.mem_iff, walk.mem_iff]

end Start

end FieldUsage.Ignore
