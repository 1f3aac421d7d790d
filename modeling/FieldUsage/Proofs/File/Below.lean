import FieldUsage.Proofs.Dict
import FieldUsage.Proofs.File.Contents

/-!
Files below a directory, by the names that lead to them. Where the entries of every directory have
different names, and names of files at that, names lead to one file at most, and the path that is
made of them leads there too.
-/

namespace FieldUsage

open FieldUsage.Path (IsFileName)

namespace FileNode

mutual

/-- Whether the entries of every directory, at a node and below it, have different names. -/
def distinct : FileNode → Bool
  | .directory entries => decide (entries.map (·.1)).Nodup && entriesDistinct entries
  | _ => true

def entriesDistinct : List (String × FileNode) → Bool
  | [] => true
  | (_, node) :: rest => node.distinct && entriesDistinct rest

end

/-- The bytes of the file to which names lead from a node, through directories. -/
def fileAt? : FileNode → List String → Option ByteArray
  | .file bytes, [] => some bytes
  | .directory entries, name :: names => (entries.lookup name).bind (fileAt? · names)
  | _, _ => none

theorem mem_of_lookup {entries : List (String × FileNode)} {name : String} {node : FileNode}
    (found : entries.lookup name = some node) : (name, node) ∈ entries := by
  obtain ⟨before, after, rfl, -⟩ := List.lookup_eq_some_iff.1 found
  simp

theorem distinct_of_mem {entries : List (String × FileNode)}
    (sound : entriesDistinct entries = true) {entry : String × FileNode}
    (member : entry ∈ entries) : entry.2.distinct = true := by
  induction entries with
  | nil => cases member
  | cons first rest ih =>
      rw [entriesDistinct, Bool.and_eq_true] at sound
      rcases List.mem_cons.1 member with rfl | later
      · exact sound.1
      · exact ih sound.2 later

/-- Names lead through directories only, to an entry of the last one. -/
theorem exists_of_fileAt?_cons {node : FileNode} {name : String} {names : List String}
    {bytes : ByteArray} (found : node.fileAt? (name :: names) = some bytes) :
    ∃ entries inner, node = .directory entries ∧ entries.lookup name = some inner ∧
      inner.fileAt? names = some bytes := by
  match node, found with
  | .directory entries, found =>
      obtain ⟨inner, here, further⟩ := Option.bind_eq_some_iff.1 found
      exact ⟨entries, inner, rfl, here, further⟩

/-- Names that lead to a file are names that a path can have. -/
theorem isFileName_of_fileAt? {node : FileNode} (sound : node.named = true) {names : List String}
    {bytes : ByteArray} (found : node.fileAt? names = some bytes) :
    ∀ name ∈ names, IsFileName name := by
  induction names generalizing node with
  | nil => exact nofun
  | cons name rest ih =>
      obtain ⟨entries, inner, rfl, here, further⟩ := exists_of_fileAt?_cons found
      have first : IsFileName name := isFileName_of_entriesNamed sound (mem_of_lookup here)
      exact List.forall_mem_cons.2 ⟨first, ih (named_of_lookup sound here) further⟩

end FileNode

namespace FileTree

/-- Names that lead to a file are followed to it. -/
theorem descend_of_fileAt? {root : List (String × FileNode)} {trail : Trail} {names : List String}
    {bytes : ByteArray}
    (found : (FileNode.directory (trail.entries root)).fileAt? names = some bytes) :
    ∃ place, descend root trail (names.map .name) = .node (.file bytes) place := by
  induction names generalizing trail with
  | nil => cases found
  | cons name rest ih =>
      obtain ⟨inner, here, further⟩ := Option.bind_eq_some_iff.1 found
      rw [List.map_cons, descend, here]
      cases inner with
      | file held =>
          cases rest with
          | nil =>
              cases further
              exact ⟨_, rfl⟩
          | cons next more => cases further
      | link target => cases rest <;> cases further
      | directory entries => exact @ih ({ name, entries } :: trail) further

theorem namesDirectory_join_intercalate {names : List String} (given : names ≠ [])
    (named : ∀ name ∈ names, IsFileName name) (base : Path) :
    namesDirectory (base.join ("/".intercalate names)) = false := by
  induction names generalizing base with
  | nil => exact absurd rfl given
  | cons name rest ih =>
      obtain ⟨here, others⟩ := List.forall_mem_cons.1 named
      by_cases last : rest = []
      · simpa [last] using namesDirectory_join base here
      · rw [Path.intercalate_cons others here last, ← Path.join_assoc]
        exact ih last others (base.join name)

/-- A file below a directory is at the path that is made of the names that lead there. -/
theorem lookup_of_fileAt? {tree : FileTree} {root : Path} {node : FileNode} {place : List String}
    (located : tree.locate root = .ok (node, place)) (sound : node.named = true)
    {names : List String} (given : names ≠ []) {bytes : ByteArray}
    (found : node.fileAt? names = some bytes) :
    tree.lookup (root.join ("/".intercalate names)) = .ok (.file bytes) := by
  obtain ⟨solid, followed, -⟩ := follow_of_locate located
  have named := FileNode.isFileName_of_fileAt? sound found
  obtain ⟨name, rest, rfl⟩ := List.exists_cons_of_ne_nil given
  obtain ⟨entries, -, rfl, -, -⟩ := FileNode.exists_of_fileAt?_cons found
  obtain ⟨left, inner, rfl, goes⟩ := follow_append_of_directory followed
  obtain ⟨reached, arrives⟩ := descend_of_fileAt? found
  have followed' : follow tree.root linkLimit tree.currentTrail
      (Path.components (root.join ("/".intercalate (name :: rest)))) =
        .ok (.file bytes, reached) := by
    rw [Path.components_join_intercalate named solid, goes, follow, arrives]
  have plain := namesDirectory_join_intercalate given named root
  unfold lookup
  rw [locate_eq_file_of_follow (Path.join_ne_empty solid _) plain followed']
  rfl

/-- The text of a file is what its bytes encode. -/
theorem readText_of_lookup {tree : FileTree} {path : Path} {bytes : ByteArray}
    (found : tree.lookup path = .ok (.file bytes)) :
    tree.readText path =
      match String.fromUTF8? bytes with
      | some text => .ok text.toList
      | none => .error .notText := by
  unfold readText
  rw [found]
  rfl

end FileTree

end FieldUsage
