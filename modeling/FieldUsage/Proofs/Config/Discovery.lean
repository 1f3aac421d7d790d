import FieldUsage.Proofs.BaseDirectory
import FieldUsage.Proofs.File.Linkless
import FieldUsage.Proofs.Path.Ancestors

/-!
Which configuration file is found. A search tries the names of configuration files directory by
directory on the way up, and the first that leads to a file is found: the file of the preferred name
in the nearest directory with a configuration file. What stands elsewhere does not count, unless a
name that is tried before leads there.
-/

namespace FieldUsage.Config

open FieldUsage.Path (Climbs Component IsFileName IsParent)
open FileNode (entriesLinkless)

/-- The names that are preferred to a name. -/
def preferredTo (name : String) : List String := fileNames.takeWhile (· != name)

/-- A directory on the way up from the start to another directory, which is not reached yet. -/
def Nearer (start directory nearer : Path) : Prop :=
  Climbs start nearer ∧ Relation.TransGen IsParent nearer directory

/-- The nearest directory with a configuration file, and the preferred name of such a file in it. -/
structure Nearest (tree : FileTree) (start directory : Path) (name : String) : Prop where
  above : Climbs start directory
  known : name ∈ fileNames
  present : tree.isFile (directory.join name) = true
  preferred : ∀ other ∈ preferredTo name, tree.isFile (directory.join other) = false
  nearest : ∀ nearer, Nearer start directory nearer →
    ∀ other ∈ fileNames, tree.isFile (nearer.join other) = false

variable {tree : FileTree} {start directory : Path} {name : String}

/-- The first of some names that passes a test passes it, unlike those before it. -/
theorem find?_eq_some_iff_takeWhile {test : String → Bool} {names : List String} :
    names.find? test = some name ↔ name ∈ names ∧ test name = true ∧
      ∀ other ∈ names.takeWhile (· != name), test other = false := by
  induction names with
  | nil => simp
  | cons first rest ih =>
      cases passes : test first with
      | true =>
          rw [List.find?_cons_of_pos passes]
          constructor
          · rintro ⟨⟩
            simp [passes]
          · rintro ⟨-, -, earlier⟩
            apply congrArg some
            by_contra different
            rw [List.takeWhile_cons_of_pos (by simpa using different)] at earlier
            simpa [passes] using earlier first List.mem_cons_self
      | false =>
          rw [List.find?_cons_of_neg (by simp [passes]), ih]
          by_cases same : first = name
          · subst same
            simp [passes]
          · rw [List.takeWhile_cons_of_pos (by simpa using same), List.mem_cons,
              List.forall_mem_cons]
            simp [passes, Ne.symm same]

theorem inDirectory?_eq_none_iff : inDirectory? tree directory = none ↔
    ∀ name ∈ fileNames, tree.isFile (directory.join name) = false := by
  simp [inDirectory?]

/-- In one directory, the first name of a file that is there counts. -/
theorem inDirectory?_eq_some_iff {path : Path} : inDirectory? tree directory = some path ↔
    ∃ name, (name ∈ fileNames ∧ tree.isFile (directory.join name) = true ∧
      ∀ other ∈ preferredTo name, tree.isFile (directory.join other) = false) ∧
      directory.join name = path := by
  unfold inDirectory? preferredTo
  rw [List.find?_map, Option.map_eq_some_iff]
  simp only [find?_eq_some_iff_takeWhile, Function.comp_apply]

/-- A search goes on with the parent where a directory has no configuration file. -/
theorem find?_eq (tree : FileTree) (start : Path) :
    find? tree start = (inDirectory? tree start).or ((Path.parent? start).bind (find? tree)) := by
  unfold find?
  rw [Path.ancestors_eq, List.findSome?_cons]
  cases inDirectory? tree start with
  | some path => rfl
  | none => cases Path.parent? start <;> rfl

/-- No configuration is found if there is none on the whole way up. -/
theorem find?_eq_none_iff : find? tree start = none ↔
    ∀ directory, Climbs start directory →
      ∀ name ∈ fileNames, tree.isFile (directory.join name) = false := by
  unfold find?
  simp only [List.findSome?_eq_none_iff, Path.mem_ancestors_iff, inDirectory?_eq_none_iff]

theorem not_nearer_self (start nearer : Path) : ¬ Nearer start start nearer := by
  rintro ⟨climbs, further⟩
  exact Nat.lt_irrefl _ (Path.length_components_lt (.trans_right climbs further))

/-- What is nearest is found. -/
theorem Nearest.find?_eq_some (here : Nearest tree start directory name) :
    find? tree start = some (directory.join name) := by
  obtain ⟨above, known, present, preferred, nearest⟩ := here
  induction above using Relation.ReflTransGen.head_induction_on with
  | refl =>
      have found := inDirectory?_eq_some_iff.2 ⟨name, ⟨known, present, preferred⟩, rfl⟩
      rw [find?_eq, found, Option.some_or]
  | @head path above parent climbs ih =>
      have passed := inDirectory?_eq_none_iff.2 (nearest path ⟨.refl, .head' parent climbs⟩)
      rw [find?_eq, passed, Option.none_or, show Path.parent? path = some above from parent,
        Option.bind_some]
      apply ih
      rintro nearer ⟨climbs', further⟩
      exact nearest nearer ⟨.head parent climbs', further⟩

/-- What is found is nearest. -/
theorem exists_nearest {path : Path} (found : find? tree start = some path) :
    ∃ directory name, Nearest tree start directory name ∧ path = directory.join name := by
  induction start using Path.parentInduction with
  | step start ih =>
      rw [find?_eq] at found
      cases inside : inDirectory? tree start with
      | some first =>
          rw [inside, Option.some_or] at found
          obtain ⟨name, ⟨known, present, preferred⟩, shape⟩ := inDirectory?_eq_some_iff.1 inside
          obtain rfl := Option.some.inj found
          refine ⟨start, name, ⟨.refl, known, present, preferred, ?_⟩, shape.symm⟩
          intro nearer nearerStart
          exact absurd nearerStart (not_nearer_self start nearer)
      | none =>
          rw [inside, Option.none_or, Option.bind_eq_some_iff] at found
          obtain ⟨above, parent, found⟩ := found
          obtain ⟨directory, name, here, shape⟩ := ih above parent found
          refine ⟨directory, name, ?_, shape⟩
          refine ⟨.head parent here.above, here.known, here.present, here.preferred, ?_⟩
          rintro nearer ⟨climbs, further⟩
          -- a directory that is passed is the start, or it is passed on the way from the parent
          rcases climbs.cases_head with rfl | ⟨between, parent', climbs⟩
          · exact inDirectory?_eq_none_iff.1 inside
          · obtain rfl := Path.isParent_rightUnique parent parent'
            exact here.nearest nearer ⟨climbs, further⟩

/-- The configuration that is found is the preferred one in the nearest directory that has one. -/
theorem find?_eq_some_iff {path : Path} : find? tree start = some path ↔
    ∃ directory name, Nearest tree start directory name ∧ path = directory.join name := by
  constructor
  · exact exists_nearest
  · rintro ⟨directory, name, here, rfl⟩
    exact here.find?_eq_some

/-- The directory and the name can be told from what is found. -/
theorem Nearest.of_find? {other : FileTree} (above : Climbs start directory)
    (known : name ∈ fileNames) (found : find? other start = some (directory.join name)) :
    Nearest other start directory name := by
  obtain ⟨directory', name', here, shape⟩ := exists_nearest found
  have components := congrArg Path.components shape
  rw [(isFileName_of_mem known).components_join, (isFileName_of_mem here.known).components_join]
    at components
  obtain ⟨same, last⟩ := List.append_inj' components rfl
  obtain rfl := Path.eq_of_components_eq above here.above same
  cases last
  exact here

/-- A configuration file in a directory is found unless a nearer one is. -/
theorem exists_find? {near : Path} (above : Climbs start near) (known : name ∈ fileNames)
    (file : tree.isFile (near.join name) = true) :
    ∃ directory other, find? tree start = some (directory.join other) ∧
      Climbs start directory ∧ Climbs directory near := by
  cases found : find? tree start with
  | none =>
      have absent := find?_eq_none_iff.1 found near above name known
      exact absurd (absent.symm.trans file) Bool.false_ne_true
  | some path =>
      obtain ⟨directory, other, here, rfl⟩ := exists_nearest found
      refine ⟨directory, other, rfl, here.above, ?_⟩
      rcases Relation.ReflTransGen.total_of_right_unique Path.isParent_rightUnique here.above above
        with further | back
      · exact further
      · rcases Relation.reflTransGen_iff_eq_or_transGen.1 back with rfl | back
        · exact .refl
        · have absent := here.nearest near ⟨above, back⟩ name known
          exact absurd (absent.symm.trans file) Bool.false_ne_true

theorem isDirectory_of_find? {path : Path} (found : find? tree start = some path) :
    tree.isDirectory path = false := by
  obtain ⟨directory, name, here, rfl⟩ := exists_nearest found
  have file := here.present
  unfold FileTree.isFile at file
  unfold FileTree.isDirectory
  split at file
  case h_1 held => rw [held]
  case h_2 => cases file

/-! Trees that hold more. -/

/-- Files that are added change what is found only where a name that is tried before leads to one
of them. -/
theorem Nearest.find?_of_added {added : List String → Bool} (hides : tree.hidesFiles added = true)
    (here : Nearest (tree.without added) start directory name) :
    find? tree start = some (directory.join name) ↔
      (∀ other ∈ preferredTo name, tree.leadsTo added (directory.join other) = false) ∧
        ∀ nearer, Nearer start directory nearer →
          ∀ other ∈ fileNames, tree.leadsTo added (nearer.join other) = false := by
  have absent {path : Path} (gone : (tree.without added).isFile path = false) :
      tree.isFile path = false ↔ tree.leadsTo added path = false := by
    rw [FileTree.isFile_without hides] at gone
    constructor
    · intro missing
      rw [Bool.eq_false_iff]
      intro leads
      exact absurd (missing.symm.trans (FileTree.isFile_of_leadsTo leads)) Bool.false_ne_true
    · intro elsewhere
      rwa [elsewhere, Bool.not_false, Bool.and_true] at gone
  constructor
  · intro found
    have now := Nearest.of_find? here.above here.known found
    constructor
    · intro other member
      exact (absent (here.preferred other member)).1 (now.preferred other member)
    · intro nearer between other member
      exact (absent (here.nearest nearer between other member)).1
        (now.nearest nearer between other member)
  · rintro ⟨preferred, nearest⟩
    apply Nearest.find?_eq_some
    refine ⟨here.above, here.known, ?_, ?_, ?_⟩
    · have present := here.present
      rw [FileTree.isFile_without hides, Bool.and_eq_true] at present
      exact present.1
    · intro other member
      exact (absent (here.preferred other member)).2 (preferred other member)
    · intro nearer between other member
      exact (absent (here.nearest nearer between other member)).2
        (nearest nearer between other member)

/-- Nothing outside the directory counts where no link and no step up leads out of it. -/
theorem Nearest.of_linkless {other : FileTree} {entries : List (String × FileNode)}
    {below : List Component} (here : Nearest tree start directory name)
    (found : tree.leads directory [] = .ok (.directory entries))
    (found' : other.leads directory [] = .ok (.directory entries))
    (linkless : entriesLinkless entries = true)
    (shape : Path.components start = Path.components directory ++ below)
    (down : Component.up ∉ below) : Nearest other start directory name := by
  have same {nearer : Path} (climbs : Climbs start nearer) (climbs' : Climbs nearer directory)
      {known : String} (member : known ∈ fileNames) :
      tree.isFile (nearer.join known) = other.isFile (nearer.join known) := by
    have named := isFileName_of_mem member
    obtain ⟨after, split, -⟩ := Path.components_of_climbs climbs
    obtain ⟨before, split', rootless⟩ := Path.components_of_climbs climbs'
    have whole : below = before ++ after := by
      rw [split, split', List.append_assoc] at shape
      exact (List.append_cancel_left shape).symm
    have inward : FileTree.Inward (before ++ [.name known]) := by
      constructor
      · simp [rootless]
      · simp_all
    have joined : Path.components (nearer.join known) =
        Path.components directory ++ (before ++ [.name known]) := by
      rw [named.components_join, split', List.append_assoc]
    have solid : nearer.join known ≠ "" := by
      intro empty
      rw [empty, Path.components_empty] at joined
      simp at joined
    exact FileTree.isFile_of_linkless found found' linkless solid joined inward
  refine ⟨here.above, here.known, ?_, ?_, ?_⟩
  · rw [← same here.above .refl here.known]
    exact here.present
  · intro preferred member
    rw [← same here.above .refl ((List.takeWhile_sublist _).subset member)]
    exact here.preferred preferred member
  · intro nearer between known member
    rw [← same between.1 between.2.to_reflTransGen member]
    exact here.nearest nearer between known member

/-- A search up to the root or the empty path finds the preferred name in the nearest directory with
a configuration file, be it a link to a file, and nothing if no directory has one: a file that is
less preferred counts if it is nearer, and a directory never does. Files that are added change what
is found only if a name that is tried before leads to one of them. Where no link stands in the
directory or below it and the start is not reached by going up, this takes a change within the
directory. -/
theorem find?_nearest (tree : FileTree) (start : Path) :
    (∃ top, Climbs start top ∧ (top = "" ∨ Path.components top = [.root])) ∧
    (∀ path, find? tree start = some path ↔
      ∃ directory name, Nearest tree start directory name ∧ path = directory.join name) ∧
    (find? tree start = none ↔ ∀ directory, Climbs start directory →
      ∀ name ∈ fileNames, tree.isFile (directory.join name) = false) ∧
    (∀ near, Climbs start near → ∀ name ∈ fileNames, tree.isFile (near.join name) = true →
      ∃ directory other, find? tree start = some (directory.join other) ∧
        Climbs start directory ∧ Climbs directory near) ∧
    (∀ path, find? tree start = some path → tree.isDirectory path = false) ∧
    ∀ directory name, Nearest tree start directory name →
      (∀ (larger : FileTree) (added : List String → Bool), larger.hidesFiles added = true →
        larger.without added = tree →
        (find? larger start = some (directory.join name) ↔
          (∀ other ∈ preferredTo name, larger.leadsTo added (directory.join other) = false) ∧
            ∀ nearer, Nearer start directory nearer →
              ∀ other ∈ fileNames, larger.leadsTo added (nearer.join other) = false)) ∧
      ∀ (other : FileTree) (entries : List (String × FileNode)) (below : List Component),
        tree.leads directory [] = .ok (.directory entries) →
        other.leads directory [] = .ok (.directory entries) →
        entriesLinkless entries = true →
        Path.components start = Path.components directory ++ below → Component.up ∉ below →
        find? other start = some (directory.join name) := by
  refine ⟨Path.exists_top start, fun path => find?_eq_some_iff, find?_eq_none_iff, ?_, ?_, ?_⟩
  · intro near above name known file
    exact exists_find? above known file
  · intro path found
    exact isDirectory_of_find? found
  · intro directory name here
    constructor
    · rintro larger added hides rfl
      exact here.find?_of_added hides
    · intro other entries below found found' linkless shape down
      exact (here.of_linkless found found' linkless shape down).find?_eq_some

/-- A configuration file beside a directory that has the name of one, and another further up. -/
def nestedEntries : List (String × FileNode) :=
  [("pkg", .directory []), (".graphqlrc.yml", .directory []), (".graphqlconfig", .file "".toUTF8)]

def nestedTree : FileTree :=
  { root := [("repo",
      .directory [("sub", .directory nestedEntries), (".graphqlrc.yml", .file "".toUTF8)])] }

/-- The configuration file in the outer directory. -/
def outer (names : List String) : Bool := names == ["repo", ".graphqlrc.yml"]

theorem nearest_nestedTree :
    Nearest (nestedTree.without outer) "repo/sub/pkg" "repo/sub" ".graphqlconfig" := by
  refine Nearest.of_find? ?_ (by decide) (by decide +kernel)
  exact .single rfl

/-- The file further up is preferred, and it makes no difference. -/
theorem find?_nearest_nestedTree :
    Nearest (nestedTree.without outer) "repo/sub/pkg" "repo/sub" ".graphqlconfig" ∧
      nestedTree.isFile "repo/.graphqlrc.yml" = true ∧
      find? nestedTree "repo/sub/pkg" = some "repo/sub/.graphqlconfig" ∧
      nestedTree.isDirectory "repo/sub/.graphqlconfig" = false ∧
      nestedTree.leadsTo outer "repo/sub/.graphqlrc.yml" = false := by
  obtain ⟨-, -, -, -, -, changed⟩ := find?_nearest (nestedTree.without outer) "repo/sub/pkg"
  obtain ⟨added, shared⟩ := changed _ _ nearest_nestedTree
  have found : find? nestedTree "repo/sub/pkg" = some "repo/sub/.graphqlconfig" :=
    shared nestedTree nestedEntries [.name "pkg"] rfl rfl rfl (by decide +kernel) (by decide)
  obtain ⟨-, -, -, -, plain, -⟩ := find?_nearest nestedTree "repo/sub/pkg"
  obtain ⟨elsewhere, -⟩ := (added nestedTree outer (by decide +kernel) rfl).1 found
  refine ⟨nearest_nestedTree, by decide +kernel, found, plain _ found, ?_⟩
  exact elsewhere ".graphqlrc.yml" (by decide)

/-- A preferred name that is a link to the outer directory. -/
def linkedTree : FileTree :=
  { root := [("repo", .directory
      [("sub", .directory
        [(".graphqlrc.yml", .link "../.graphqlrc.yml"), (".graphqlconfig", .file "".toUTF8)]),
       (".graphqlrc.yml", .file "".toUTF8)])] }

/-- The link leads to the file that is added further up. -/
theorem find?_changed_from_above : linkedTree.hidesFiles outer = true ∧
    find? (linkedTree.without outer) "repo/sub" = some "repo/sub/.graphqlconfig" ∧
    find? linkedTree "repo/sub" = some "repo/sub/.graphqlrc.yml" := by
  decide +kernel

end FieldUsage.Config
