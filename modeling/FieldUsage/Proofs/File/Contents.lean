import FieldUsage.Proofs.File.Hidden
import FieldUsage.Proofs.Path.Join

/-!
Directories with the same contents. Two directories have the same contents if every path that goes
on from them leads to the same file or directory, or nowhere in both cases. Everything that is asked
about paths below the one has then the same answer below the other. Two directories that stand side
by side under different names and hold the same entries have the same contents, links included.
-/

namespace FieldUsage

open FieldUsage.Path (Component IsFileName)

namespace FileNode

mutual

/-- Whether all entries of a directory and below it stand under names of files. -/
def named : FileNode → Bool
  | .directory entries => entriesNamed entries
  | _ => true

def entriesNamed : List (String × FileNode) → Bool
  | [] => true
  | (name, node) :: rest => decide (IsFileName name) && node.named && entriesNamed rest

end

theorem isFileName_of_entriesNamed {entries : List (String × FileNode)}
    (sound : entriesNamed entries = true) {entry : String × FileNode} (member : entry ∈ entries) :
    IsFileName entry.1 := by
  induction entries with
  | nil => cases member
  | cons first rest ih =>
      simp only [entriesNamed, Bool.and_eq_true, decide_eq_true_eq] at sound
      rcases List.mem_cons.1 member with rfl | later
      · exact sound.1.1
      · exact ih sound.2 later

theorem named_of_lookup {entries : List (String × FileNode)} (sound : entriesNamed entries = true)
    {name : String} {node : FileNode} (found : entries.lookup name = some node) :
    node.named = true := by
  induction entries with
  | nil => cases found
  | cons first rest ih =>
      obtain ⟨other, old⟩ := first
      simp only [entriesNamed, Bool.and_eq_true] at sound
      rw [List.lookup_cons] at found
      split at found
      · obtain rfl := Option.some.inj found
        exact sound.1.2
      · exact ih sound.2 found

end FileNode

namespace FileTree

open FileNode (entriesNamed)

/-! Trees in which all entries stand under names of files. -/

def named (tree : FileTree) : Bool := entriesNamed tree.root

def Trail.Named (trail : Trail) : Prop := ∀ place ∈ trail, entriesNamed place.entries = true

def Reached.Named : Reached → Prop
  | .node found _ => found.named = true
  | .link trail _ _ => trail.Named
  | .fault _ => True

section Named

variable {root : List (String × FileNode)} (sound : entriesNamed root = true)
include sound

theorem Trail.Named.entries {trail : Trail} (named : trail.Named) :
    entriesNamed (trail.entries root) = true := by
  cases trail with
  | nil => exact sound
  | cons place outer => exact named place List.mem_cons_self

/-- A walk up to the first link only meets directories whose entries are named like files. -/
theorem descend_named {trail : Trail} (named : trail.Named) (components : List Component) :
    (descend root trail components).Named := by
  induction components generalizing trail with
  | nil => exact named.entries sound
  | cons component rest ih =>
      cases component with
      | root => exact ih nofun
      | here => exact ih named
      | up => exact ih fun place member => named place (List.mem_of_mem_tail member)
      | name name =>
          rw [descend]
          cases found : (trail.entries root).lookup name with
          | none => trivial
          | some node =>
              have inner := FileNode.named_of_lookup (named.entries sound) found
              cases node with
              | directory entries => exact ih (List.forall_mem_cons.2 ⟨inner, named⟩)
              | link target => exact named
              | file bytes =>
                  dsimp only
                  split
                  · rfl
                  · trivial

/-- The same holds of a walk through links. -/
theorem follow_named (links : Nat) {trail : Trail} (named : trail.Named)
    (components : List Component) {found : FileNode × List String}
    (followed : follow root links trail components = .ok found) : found.1.named = true := by
  induction links generalizing trail components with
  | zero =>
      have reached := descend_named sound named components
      rw [follow] at followed
      split at followed
      case h_1 here =>
        rw [here] at reached
        cases followed
        exact reached
      case h_2 => cases followed
      case h_3 => cases followed
  | succ links ih =>
      have reached := descend_named sound named components
      rw [follow] at followed
      split at followed
      case h_1 here =>
        rw [here] at reached
        cases followed
        exact reached
      case h_2 => cases followed
      case h_3 here =>
        rw [here] at reached
        exact ih reached _ followed

end Named

theorem enterPlace_named {root : List (String × FileNode)} (sound : entriesNamed root = true)
    {trail : Trail} (named : trail.Named) (name : String) : (enterPlace root trail name).Named := by
  unfold enterPlace
  split
  case h_1 entries found =>
    have inner := FileNode.named_of_lookup (named.entries sound) found
    exact List.forall_mem_cons.2 ⟨inner, named⟩
  case h_2 => exact List.forall_mem_cons.2 ⟨rfl, named⟩

theorem currentTrail_named {tree : FileTree} (sound : tree.named = true) :
    tree.currentTrail.Named := by
  have steps (names : List String) (trail : Trail) (named : trail.Named) :
      (names.foldl (enterPlace tree.root) trail).Named := by
    induction names generalizing trail with
    | nil => exact named
    | cons name rest ih => exact ih _ (enterPlace_named sound named name)
  exact steps tree.current [] nofun

theorem follow_of_mem_entries {tree : FileTree} {path : Path} {entry : String × FileNode}
    (member : entry ∈ tree.entries path) : ∃ names,
      follow tree.root linkLimit tree.currentTrail (Path.components path) =
        .ok (.directory (tree.entries path), names) := by
  unfold entries lookup at member ⊢
  cases located : tree.locate path with
  | error fault =>
      rw [located] at member
      cases member
  | ok found =>
      obtain ⟨-, followed, -⟩ := follow_of_locate located
      rw [located] at member
      match found, member with
      | (.directory entries, names), _ => exact ⟨names, followed⟩

theorem isFileName_of_mem_entries {tree : FileTree} (sound : tree.named = true) {path : Path}
    {entry : String × FileNode} (member : entry ∈ tree.entries path) : IsFileName entry.1 := by
  obtain ⟨names, followed⟩ := follow_of_mem_entries member
  have inner := follow_named sound _ (currentTrail_named sound) _ followed
  exact FileNode.isFileName_of_entriesNamed inner member

theorem lookup_of_isDirectory {tree : FileTree} {path : Path}
    (directory : tree.isDirectory path = true) :
    ∃ entries, tree.lookup path = .ok (.directory entries) := by
  unfold isDirectory at directory
  split at directory
  case h_1 entries found => exact ⟨entries, found⟩
  case h_2 => cases directory

/-! What paths lead to. -/

/-- What is found when a walk goes on from a path. -/
def leads (tree : FileTree) (path : Path) (rest : List Component) : Except FileFault FileNode :=
  (follow tree.root linkLimit tree.currentTrail (Path.components path ++ rest)).map (·.1)

section Leads

variable {tree : FileTree} {path : Path} (solid : path ≠ "")
include solid

theorem lookup_eq_leads : tree.lookup path =
    match tree.leads path [] with
    | .ok (.file bytes) => if namesDirectory path then .error .notDirectory else .ok (.file bytes)
    | found => found := by
  unfold lookup locate leads
  rw [List.append_nil]
  generalize follow tree.root linkLimit tree.currentTrail (Path.components path) = followed
  match followed with
  | .error fault => simp [solid, bind, Except.bind, Except.map]
  | .ok (.file bytes, names) =>
      cases namesDirectory path <;>
        simp [solid, bind, Except.bind, Except.map, pure, Except.pure, throw, throwThe,
          MonadExceptOf.throw]
  | .ok (.directory _, _) | .ok (.link _, _) =>
      simp [solid, bind, Except.bind, Except.map, pure, Except.pure]

theorem isDirectory_eq_leads : tree.isDirectory path =
    match tree.leads path [] with
    | .ok (.directory _) => true
    | _ => false := by
  unfold isDirectory
  rw [lookup_eq_leads solid]
  rcases tree.leads path [] with fault | bytes | target | entries
  · rfl
  · cases namesDirectory path <;> rfl
  · rfl
  · rfl

/-- A walk goes on from directories only. -/
theorem isDirectory_of_leads {component : Component} {node : FileNode}
    (found : tree.leads path [component] = .ok node) : tree.isDirectory path = true := by
  unfold leads at found
  cases followed : follow tree.root linkLimit tree.currentTrail
      (Path.components path ++ [component]) with
  | error fault =>
      rw [followed] at found
      cases found
  | ok reached =>
      obtain ⟨entries, names, directory⟩ := exists_directory_of_follow followed
      exact isDirectory_iff.2 ⟨solid, entries, names, directory⟩

theorem entries_eq_leads : tree.entries path =
    match tree.leads path [] with
    | .ok (.directory entries) => entries
    | _ => [] := by
  unfold entries
  rw [lookup_eq_leads solid]
  rcases tree.leads path [] with fault | bytes | target | entries
  · rfl
  · cases namesDirectory path <;> rfl
  · rfl
  · rfl

/-- Joining a path means going on from where it leads. -/
theorem leads_join {name : Path} (relative : Path.isAbsolute name = false)
    (rest : List Component) :
    tree.leads (path.join name) rest = tree.leads path (Path.stepsOf name ++ rest) := by
  unfold leads
  rw [Path.components_join solid relative, List.append_assoc]

/-- A name in a directory is there, be it a link that leads nowhere. -/
theorem holds_join {name : String} (fileName : IsFileName name) : tree.holds (path.join name) =
    match tree.lookup (path.join name) with
    | .ok _ => true
    | .error _ => ((tree.entries path).lookup name).isSome := by
  have components := fileName.components_join path
  have last : Path.fileName? (path.join name) = some name := by
    unfold Path.fileName?
    rw [components, List.getLast?_concat]
  obtain ⟨above, parent, alone⟩ := Path.exists_parent?_of_fileName? last
  -- the parent of the joined path may be another spelling of the path
  have shorter : Path.components above = Path.components path := by
    rw [Path.components_parent? parent, components, List.dropLast_concat]
  have present : above ≠ "" := by
    intro empty
    have single := alone.1 empty
    have positive := List.length_pos_iff.2 (Path.components_ne_nil solid)
    rw [components, List.length_append, List.length_singleton] at single
    omega
  have same : tree.leads above [] = tree.leads path [] := by
    unfold leads
    rw [shorter]
  unfold holds
  cases tree.lookup (path.join name) with
  | ok node => rfl
  | error fault =>
      rw [entries_eq_leads solid, ← same]
      simp only [parent, last, namesDirectory_join path fileName]
      rw [if_neg (by simpa using present), lookup_eq_leads present]
      rcases tree.leads above [] with fault | bytes | target | entries
      · rfl
      · cases namesDirectory above <;> rfl
      · rfl
      · simp

theorem holds_join_empty : tree.holds (path.join "") =
    match tree.lookup (path.join "") with
    | .ok _ => true
    | .error _ => false := by
  unfold holds
  rw [namesDirectory_join_empty solid]
  cases tree.lookup (path.join "") with
  | ok node => rfl
  | error fault =>
      dsimp only
      split
      · split <;> simp
      · rfl

end Leads

/-! Directories that cannot be told apart from within. -/

/-- A path that can be followed within a directory: a relative one, which goes up only if it may. -/
def Stays (up : Prop) (rest : Path) : Prop :=
  Path.isAbsolute rest = false ∧ (Component.up ∈ Path.stepsOf rest → up)

/-- Two paths from which all walks lead to the same, walks that go up counted only if they may. -/
structure SameContents (tree : FileTree) (up : Prop) (first second : Path) : Prop where
  solid : first ≠ ""
  solid' : second ≠ ""
  leads_eq : ∀ rest, Component.root ∉ rest → (Component.up ∈ rest → up) →
    tree.leads first rest = tree.leads second rest

/-- Paths that stay within a directory can be joined. -/
theorem Stays.join {up : Prop} {first second : Path} (stays : Stays up first)
    (stays' : Stays up second) : Stays up (first.join second) := by
  constructor
  · rw [Path.isAbsolute_join first stays'.1, stays.1]
  · rw [Path.stepsOf_join first stays'.1, List.mem_append]
    intro member
    rcases member with member | member
    · exact stays.2 member
    · exact stays'.2 member

theorem namesDirectory_of_suffix {path rest : Path} {before : List Char}
    (shape : path.toList = before ++ '/' :: rest.toList) :
    namesDirectory path = namesDirectory ("/" ++ rest) := by
  have alone : ("/" ++ rest).toList = '/' :: rest.toList := by simp
  unfold namesDirectory
  rw [shape, alone, List.reverse_append, List.reverse_cons]
  rcases rest.toList.reverse with _ | ⟨c, _ | ⟨d, more⟩⟩
  · rfl
  · simp only [List.nil_append, List.cons_append]
    split <;> simp_all
  · simp only [List.cons_append]
    split <;> simp_all

namespace SameContents

variable {tree : FileTree} {up : Prop} {first second rest : Path}
  (same : SameContents tree up first second)
include same

theorem isDirectory_eq : tree.isDirectory first = tree.isDirectory second := by
  rw [isDirectory_eq_leads same.solid, isDirectory_eq_leads same.solid',
    same.leads_eq [] nofun nofun]

theorem entries_eq : tree.entries first = tree.entries second := by
  rw [entries_eq_leads same.solid, entries_eq_leads same.solid', same.leads_eq [] nofun nofun]

theorem join (stays : Stays up rest) :
    SameContents tree up (first.join rest) (second.join rest) where
  solid := Path.join_ne_empty same.solid rest
  solid' := Path.join_ne_empty same.solid' rest
  leads_eq more relative upwards := by
    rw [leads_join same.solid stays.1, leads_join same.solid' stays.1]
    apply same.leads_eq
    · intro member
      rcases List.mem_append.1 member with member | member
      · exact Path.root_notMem_stepsOf _ member
      · exact relative member
    · intro member
      rcases List.mem_append.1 member with member | member
      · exact stays.2 member
      · exact upwards member

/-- Below paths with the same contents, look-ups agree. -/
theorem lookup_join (stays : Stays up rest) :
    tree.lookup (first.join rest) = tree.lookup (second.join rest) := by
  have below := same.join stays
  obtain ⟨before, shape⟩ := Path.exists_toList_join same.solid stays.1
  obtain ⟨before', shape'⟩ := Path.exists_toList_join same.solid' stays.1
  rw [lookup_eq_leads below.solid, lookup_eq_leads below.solid', below.leads_eq [] nofun nofun,
    namesDirectory_of_suffix shape, namesDirectory_of_suffix shape']

theorem isFile_join (stays : Stays up rest) :
    tree.isFile (first.join rest) = tree.isFile (second.join rest) := by
  unfold isFile
  rw [same.lookup_join stays]

theorem holds_join_eq {name : String} (fileName : IsFileName name ∨ name = "")
    (stays : Stays up name) : tree.holds (first.join name) = tree.holds (second.join name) := by
  have found := same.lookup_join stays
  rcases fileName with fileName | rfl
  · rw [holds_join same.solid fileName, holds_join same.solid' fileName, found, same.entries_eq]
  · rw [holds_join_empty same.solid, holds_join_empty same.solid', found]

end SameContents

/-! Directories that stand side by side. -/

/-- Trails that differ in the names of their directories only. -/
def Trail.Alike (first second : Trail) : Prop := first.map (·.entries) = second.map (·.entries)

theorem Trail.Alike.entries_eq {first second : Trail} (alike : first.Alike second)
    (root : List (String × FileNode)) : first.entries root = second.entries root := by
  have heads := congrArg List.head? alike
  rw [List.head?_map, List.head?_map] at heads
  unfold Trail.entries
  rw [heads]

/-- Walks that end alike, whatever the directories on their way are called. -/
inductive Reached.Alike : Reached → Reached → Prop where
  | node (found : FileNode) (names names' : List String) :
      Alike (.node found names) (.node found names')
  | link {first second : Trail} (alike : first.Alike second) (target : Path)
      (rest : List Component) : Alike (.link first target rest) (.link second target rest)
  | fault (fault : FileFault) : Alike (.fault fault) (.fault fault)

section Walks

variable {root : List (String × FileNode)}

/-- A walk does not depend on the names of the directories it comes from. -/
theorem descend_alike {first second : Trail} (alike : first.Alike second)
    (components : List Component) :
    (descend root first components).Alike (descend root second components) := by
  induction components generalizing first second with
  | nil =>
      rw [descend, descend, alike.entries_eq root]
      exact .node _ _ _
  | cons component rest ih =>
      cases component with
      | root => exact ih rfl
      | here => exact ih alike
      | up =>
          apply ih
          have tails := congrArg List.tail alike
          rwa [← List.map_tail, ← List.map_tail] at tails
      | name name =>
          rw [descend, descend, alike.entries_eq root]
          cases (second.entries root).lookup name with
          | none => exact .fault _
          | some node =>
              cases node with
              | directory entries =>
                  apply ih
                  have longer : entries :: first.map (·.entries) =
                      entries :: second.map (·.entries) := congrArg _ alike
                  exact longer
              | link target => exact .link alike target rest
              | file bytes =>
                  dsimp only
                  split
                  · exact .node _ _ _
                  · exact .fault _

/-- Nor does a walk through links. -/
theorem follow_alike (links : Nat) {first second : Trail} (alike : first.Alike second)
    (components : List Component) :
    (follow root links first components).map (·.1) =
      (follow root links second components).map (·.1) := by
  induction links generalizing first second components with
  | zero =>
      have reached : (descend root first components).Alike (descend root second components) :=
        descend_alike alike components
      rw [follow, follow]
      generalize descend root first components = here, descend root second components = there
        at reached ⊢
      cases reached with
      | node | link | fault => rfl
  | succ links ih =>
      have reached : (descend root first components).Alike (descend root second components) :=
        descend_alike alike components
      rw [follow, follow]
      generalize descend root first components = here, descend root second components = there
        at reached ⊢
      cases reached with
      | node | fault => rfl
      | link alike target rest => exact ih alike _

/-- A walk that reaches a directory can be continued from there. -/
theorem descend_append_of_directory {trail : Trail} {components : List Component}
    {entries : List (String × FileNode)} {names : List String}
    (reached : descend root trail components = .node (.directory entries) names) :
    ∃ inner : Trail, inner.entries root = entries ∧
      ∀ more, descend root trail (components ++ more) = descend root inner more := by
  induction components generalizing trail with
  | nil =>
      cases reached
      exact ⟨trail, rfl, fun more => rfl⟩
  | cons component rest ih =>
      cases component with
      | root => exact ih reached
      | here => exact ih reached
      | up => exact ih reached
      | name name =>
          simp only [List.cons_append, descend] at reached ⊢
          cases found : (trail.entries root).lookup name with
          | none => simp [found] at reached
          | some node =>
              rw [found] at reached
              cases node with
              | directory entries => exact ih reached
              | link target => cases reached
              | file bytes =>
                  dsimp only at reached
                  split at reached <;> cases reached

theorem descend_append_of_link {trail inner : Trail} {components rest : List Component}
    {target : Path} (reached : descend root trail components = .link inner target rest)
    (more : List Component) :
    descend root trail (components ++ more) = .link inner target (rest ++ more) := by
  induction components generalizing trail with
  | nil => cases reached
  | cons component after ih =>
      cases component with
      | root => exact ih reached
      | here => exact ih reached
      | up => exact ih reached
      | name name =>
          simp only [List.cons_append, descend] at reached ⊢
          cases found : (trail.entries root).lookup name with
          | none => simp [found] at reached
          | some node =>
              rw [found] at reached
              cases node with
              | directory entries => exact ih reached
              | link target =>
                  cases reached
                  rfl
              | file bytes =>
                  dsimp only at reached
                  split at reached <;> cases reached

/-- What comes behind a path to a directory is followed from that directory. -/
theorem follow_append_of_directory {links : Nat} {trail : Trail} {components : List Component}
    {entries : List (String × FileNode)} {names : List String}
    (followed : follow root links trail components = .ok (.directory entries, names)) :
    ∃ (left : Nat) (inner : Trail), inner.entries root = entries ∧
      ∀ more, follow root links trail (components ++ more) = follow root left inner more := by
  induction links generalizing trail components with
  | zero =>
      rw [follow] at followed
      split at followed
      case h_1 reached =>
        cases followed
        obtain ⟨inner, held, goes⟩ := descend_append_of_directory reached
        refine ⟨0, inner, held, fun more => ?_⟩
        rw [follow, goes, follow]
      case h_2 => cases followed
      case h_3 => cases followed
  | succ links ih =>
      rw [follow] at followed
      split at followed
      case h_1 reached =>
        cases followed
        obtain ⟨inner, held, goes⟩ := descend_append_of_directory reached
        refine ⟨links + 1, inner, held, fun more => ?_⟩
        rw [follow, goes, follow]
      case h_2 => cases followed
      case h_3 reached =>
        -- the link is replaced by what it says, and what comes behind stays behind
        obtain ⟨left, inner, held, goes⟩ := ih followed
        refine ⟨left, inner, held, fun more => ?_⟩
        rw [follow, descend_append_of_link reached, ← goes, List.append_assoc]

end Walks

/-- Two directories that stand side by side and hold the same entries have the same contents, also
for what goes up from them again. -/
theorem sameContents_of_siblings {tree : FileTree} {around : Path} (solid : around ≠ "")
    {name name' : String} (named : IsFileName name) (named' : IsFileName name')
    {inner : List (String × FileNode)}
    (found : (tree.entries around).lookup name = some (.directory inner))
    (found' : (tree.entries around).lookup name' = some (.directory inner)) (up : Prop) :
    SameContents tree up (around.join name) (around.join name') where
  solid := Path.join_ne_empty solid name
  solid' := Path.join_ne_empty solid name'
  leads_eq rest _ _ := by
    obtain ⟨entry, member, -⟩ := List.lookup_isSome_iff.1 (Option.isSome_of_eq_some found)
    obtain ⟨names, followed⟩ := follow_of_mem_entries member
    obtain ⟨left, trail, held, goes⟩ := follow_append_of_directory followed
    have enters {name : String} (named : IsFileName name)
        (found : (tree.entries around).lookup name = some (.directory inner)) :
        tree.leads (around.join name) rest =
          (follow tree.root left ({ name, entries := inner } :: trail) rest).map (·.1) := by
      unfold leads
      rw [named.components_join, List.append_assoc, goes, List.singleton_append, follow, follow,
        descend, held, found]
    have alike : Trail.Alike ({ name, entries := inner } :: trail)
        ({ name := name', entries := inner } :: trail) := rfl
    rw [enters named found, enters named' found']
    exact follow_alike left alike rest

end FileTree

end FieldUsage
