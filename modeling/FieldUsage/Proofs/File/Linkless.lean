import FieldUsage.Proofs.File.Contents

/-!
Directories without links. Where no link stands in a directory or below it, what is found there is
decided by the directory alone: paths that go down into it lead to the same in all trees that hold
it, whatever else these trees hold.
-/

namespace FieldUsage

open FieldUsage.Path (Component)

namespace FileNode

mutual

/-- Whether a node is no link and no link stands below it. -/
def linkless : FileNode → Bool
  | .file _ => true
  | .link _ => false
  | .directory entries => entriesLinkless entries

def entriesLinkless : List (String × FileNode) → Bool
  | [] => true
  | (_, node) :: rest => node.linkless && entriesLinkless rest

end

theorem linkless_of_lookup {entries : List (String × FileNode)}
    (sound : entriesLinkless entries = true) {name : String} {node : FileNode}
    (found : entries.lookup name = some node) : node.linkless = true := by
  induction entries with
  | nil => cases found
  | cons first rest ih =>
      obtain ⟨other, old⟩ := first
      rw [entriesLinkless, Bool.and_eq_true] at sound
      rw [List.lookup_cons] at found
      split at found
      · obtain rfl := Option.some.inj found
        exact sound.1
      · exact ih sound.2 found

end FileNode

namespace FileTree

open FileNode (entriesLinkless)

/-- Steps that neither go up nor start over at the root. -/
def Inward (steps : List Component) : Prop := .root ∉ steps ∧ .up ∉ steps

theorem Inward.of_sublist {steps fewer : List Component} (inward : Inward steps)
    (part : fewer.Sublist steps) : Inward fewer :=
  ⟨fun member => inward.1 (part.subset member), fun member => inward.2 (part.subset member)⟩

/-- Steps down from a directory without links lead to the same in all trees that hold it. -/
theorem follow_of_linkless {root root' : List (String × FileNode)} {trail trail' : Trail}
    (same : trail.entries root = trail'.entries root')
    (linkless : entriesLinkless (trail.entries root) = true) (links links' : Nat)
    {steps : List Component} (inward : Inward steps) :
    (follow root links trail steps).map (·.1) = (follow root' links' trail' steps).map (·.1) := by
  induction steps generalizing trail trail' with
  | nil =>
      rw [follow, follow, descend, descend, same]
      rfl
  | cons step rest ih =>
      have further : Inward rest := inward.of_sublist (List.sublist_cons_self _ _)
      cases step with
      | root => exact absurd List.mem_cons_self inward.1
      | up => exact absurd List.mem_cons_self inward.2
      | here =>
          have next := ih same linkless further
          rw [follow, follow] at next ⊢
          exact next
      | name name =>
          rw [follow, follow, descend, descend, ← same]
          cases found : (trail.entries root).lookup name with
          | none => rfl
          | some node =>
              have inner := FileNode.linkless_of_lookup linkless found
              cases node with
              | link target => cases inner
              | file bytes => cases rest <;> rfl
              | directory entries =>
                  have next := @ih ({ name, entries } :: trail) ({ name, entries } :: trail') rfl
                    inner further
                  rw [follow, follow] at next
                  exact next

section Shared

variable {tree other : FileTree} {directory : Path} {entries : List (String × FileNode)}
  (found : tree.leads directory [] = .ok (.directory entries))
  (found' : other.leads directory [] = .ok (.directory entries))
  (linkless : entriesLinkless entries = true)
include found found' linkless

/-- Where no link stands, a walk inwards depends on what is below the directory only. -/
theorem leads_of_linkless {steps : List Component} (inward : Inward steps) :
    tree.leads directory steps = other.leads directory steps := by
  have enters {tree : FileTree} (found : tree.leads directory [] = .ok (.directory entries)) :
      ∃ (left : Nat) (inner : Trail), inner.entries tree.root = entries ∧
        tree.leads directory steps = (follow tree.root left inner steps).map (·.1) := by
    unfold leads at found ⊢
    rw [List.append_nil] at found
    match followed : follow tree.root linkLimit tree.currentTrail (Path.components directory),
      found with
    | .ok (.directory _, names), rfl =>
        obtain ⟨left, inner, held, goes⟩ := follow_append_of_directory followed
        exact ⟨left, inner, held, by rw [goes]⟩
  obtain ⟨left, inner, held, goes⟩ := enters found
  obtain ⟨left', inner', held', goes'⟩ := enters found'
  rw [goes, goes']
  exact follow_of_linkless (held.trans held'.symm) (held ▸ linkless) left left' inward

/-- Whether a file is below a directory without links is decided by the directory. -/
theorem isFile_of_linkless {path : Path} (solid : path ≠ "") {steps : List Component}
    (shape : Path.components path = Path.components directory ++ steps) (inward : Inward steps) :
    tree.isFile path = other.isFile path := by
  have below (tree : FileTree) : tree.leads path [] = tree.leads directory steps := by
    unfold leads
    rw [shape, List.append_nil]
  unfold isFile
  rw [lookup_eq_leads solid, lookup_eq_leads solid, below, below,
    leads_of_linkless found found' linkless inward]

end Shared

end FileTree

end FieldUsage
