import FieldUsage.File.Tree
import FieldUsage.Ignore.Rule

/-!
Walking over the files of a directory. Entries whose name begins with a dot are left out, and so are
those that rule files leave out. Rule files count in their own directory and everywhere below, also
those above the directory where the walk begins. A directory that is left out is not entered, and
links are not followed.
-/

namespace FieldUsage.Ignore

/-- The rules of one directory. -/
structure Level where
  /-- Rules for every tool. They come before the rules of the version control. -/
  general : Rules := []
  versioned : Rules := []
  /-- Rules of the version control that are not part of the sources. -/
  local_ : Rules := []
  /-- Whether a repository begins in the directory; then rules of the version control from further
  up do not count. -/
  isRepository : Bool := false
  /-- The names from the directory to where the walk is. -/
  names : List String := []
deriving Repr

def Rules.ofFile (tree : FileTree) (path : Path) : Rules :=
  match tree.lookup path with
  | .ok (.file bytes) => .ofBytes bytes.data.toList
  | _ => []

def Level.ofDirectory (tree : FileTree) (path : Path) : Level :=
  { general := Rules.ofFile tree (path.join ".ignore")
    versioned := Rules.ofFile tree (path.join ".gitignore")
    local_ := Rules.ofFile tree (path.join ".git/info/exclude")
    isRepository := (tree.lookup (path.join ".git")).isOk }

def Level.enter (name : String) (level : Level) : Level :=
  { level with names := level.names ++ [name] }

/-- What rules say about an entry, from its own directory upwards: the first directory that speaks
about it decides. -/
def verdictOf (rules : Level → Rules) (levels : List Level) (name : String) (isDirectory : Bool) :
    Option Verdict :=
  levels.findSome? fun level =>
    let path := "/".intercalate (level.names ++ [name])
    (rules level).verdict? (Text.bytes path.toList) isDirectory

/-- The levels up to the directory where a repository begins. -/
def withinRepository : List Level → List Level
  | [] => []
  | level :: outer => if level.isRepository then [level] else level :: withinRepository outer

def verdict? (levels : List Level) (name : String) (isDirectory : Bool) : Option Verdict :=
  let inside := withinRepository levels
  ((verdictOf (·.general) levels name isDirectory).or
    (verdictOf (·.versioned) inside name isDirectory)).or
    (verdictOf (·.local_) inside name isDirectory)

/-- Whether an entry is left out. A rule can take in an entry that is hidden. -/
def leavesOut (levels : List Level) (name : String) (isDirectory : Bool) : Bool :=
  match verdict? levels name isDirectory with
  | some .ignored => true
  | some .included => false
  | none => name.toList.head? == some '.'

mutual

/-- The files below a node at a path, by the names that lead to them from it. -/
def filesBelow (tree : FileTree) (levels : List Level) (path : Path) : FileNode → List (List String)
  | .directory entries => filesAmong tree (.ofDirectory tree path :: levels) path entries
  | _ => []

def filesAmong (tree : FileTree) (levels : List Level) (path : Path) :
    List (String × FileNode) → List (List String)
  | [] => []
  | (name, node) :: rest =>
      let here :=
        match node with
        | .file _ => if leavesOut levels name false then [] else [[name]]
        | .directory entries =>
            let inner := levels.map (·.enter name)
            if leavesOut levels name true then []
            else (filesBelow tree inner (path.join name) (.directory entries)).map (name :: ·)
        | .link _ => []
      here ++ filesAmong tree levels path rest

end

/-- The rules of the directories above one, from the nearest upwards. -/
def levelsAbove (tree : FileTree) : List String → List Level
  | [] => []
  | name :: upper =>
      { Level.ofDirectory tree (FileTree.absolute upper.reverse) with isRepository := false } ::
        (levelsAbove tree upper) |>.map (·.enter name)

/-- The files of a walk that begins at a path, each by its path from there. A walk that begins at a
file has none. -/
def walk (tree : FileTree) (root : Path) : Except FileFault (List Path) := do
  let (node, names) ← tree.locate root
  let levels := levelsAbove tree names.reverse
  return (filesBelow tree levels root node).map ("/".intercalate ·)

end FieldUsage.Ignore
