import FieldUsage.Path

/-!
Files as a tree. Directories hold files, links and directories under names; a link holds the path it
leads to. A path is looked up step by step from the directory it starts in, and each link on the way
is replaced by what it says, up to a limit.
-/

namespace FieldUsage

inductive FileFault where
  /-- Nothing is there. -/
  | missing
  /-- A part of the path that should be a directory is not. -/
  | notDirectory
  /-- A directory is there, and a file was expected. -/
  | isDirectory
  /-- The path leads through too many links. -/
  | linkLoop
  /-- The bytes of the file are no text. -/
  | notText
deriving DecidableEq, Repr

def FileFault.message : FileFault → String
  | .missing => "No such file or directory (os error 2)"
  | .notDirectory => "Not a directory (os error 20)"
  | .isDirectory => "Is a directory (os error 21)"
  | .linkLoop => "Too many levels of symbolic links (os error 40)"
  | .notText => "stream did not contain valid UTF-8"

/-- Stands in messages for what is wrong with a text that is not written in its format: the readers
of formats do not explain themselves. -/
def unexplained : String := "<detail>"

inductive FileNode where
  | file (bytes : ByteArray)
  | link (target : Path)
  | directory (entries : List (String × FileNode))
deriving Inhabited

namespace FileNode

mutual

def depth : FileNode → Nat
  | .directory entries => entriesDepth entries + 1
  | _ => 0

def entriesDepth : List (String × FileNode) → Nat
  | [] => 0
  | (_, node) :: rest => max node.depth (entriesDepth rest)

end

def replaceEntry (name : String) (node : FileNode) :
    List (String × FileNode) → List (String × FileNode)
  | [] => [(name, node)]
  | (other, old) :: rest =>
      if other = name then (name, node) :: rest else (other, old) :: replaceEntry name node rest

def insert (node : FileNode) : (names : List String) → FileNode → FileNode
  | [], _ => node
  | name :: names, around =>
      let entries := match around with
        | .directory entries => entries
        | _ => []
      let below := (entries.lookup name).getD (.directory [])
      .directory (replaceEntry name (insert node names below) entries)

end FileNode

/-- A tree of files, and the directory in which paths start that are not absolute. -/
structure FileTree where
  /-- The entries of the root. -/
  root : List (String × FileNode)
  /-- The names of the directories from the root to the current one. -/
  current : List String := []

namespace FileTree

/-- How many links a path may lead through. -/
def linkLimit : Nat := 40

structure Place where
  name : String := ""
  entries : List (String × FileNode)

/-- Directories from the innermost up to, but without, the root. -/
abbrev Trail := List Place

def Trail.entries (root : List (String × FileNode)) (trail : Trail) : List (String × FileNode) :=
  (trail.head?.map (·.entries)).getD root

/-- Where a path leads to, up to its first link. -/
inductive Reached where
  /-- A file or a directory, with the names of the directories that lead to it. -/
  | node (node : FileNode) (names : List String)
  /-- A link, the directory it stands in, and what follows it in the path. -/
  | link (trail : Trail) (target : Path) (rest : List Path.Component)
  | fault (fault : FileFault)

/-- Follows a path up to its first link. -/
def descend (root : List (String × FileNode)) : Trail → List Path.Component → Reached
  | trail, [] => .node (.directory (trail.entries root)) (trail.map (·.name)).reverse
  | _, .root :: rest => descend root [] rest
  | trail, .here :: rest => descend root trail rest
  | trail, .up :: rest => descend root trail.tail rest
  | trail, .name name :: rest =>
      match (trail.entries root).lookup name with
      | none => .fault .missing
      | some (.directory entries) => descend root ({ name, entries } :: trail) rest
      | some (.link target) => .link trail target rest
      | some (.file bytes) =>
          if rest.isEmpty then .node (.file bytes) ((trail.map (·.name)).reverse ++ [name])
          else .fault .notDirectory

def follow (root : List (String × FileNode)) :
    (links : Nat) → Trail → List Path.Component → Except FileFault (FileNode × List String)
  | links, trail, components =>
      match descend root trail components with
      | .node node names => .ok (node, names)
      | .fault fault => .error fault
      | .link trail target rest =>
          match links with
          | 0 => .error .linkLoop
          | links + 1 => follow root links trail (Path.components target ++ rest)

def currentTrail (tree : FileTree) : Trail :=
  tree.current.foldl
    (fun trail name =>
      match (trail.entries tree.root).lookup name with
      | some (.directory entries) => { name, entries } :: trail
      | _ => { name, entries := [] } :: trail)
    []

/-- Whether a path says that a directory is at its end. -/
def namesDirectory (path : Path) : Bool :=
  match path.toList.reverse with
  | '/' :: _ => true
  | '.' :: '/' :: _ => true
  | _ => false

/-- The file or directory that a path leads to, with the names that lead there from the root. -/
def locate (tree : FileTree) (path : Path) : Except FileFault (FileNode × List String) :=
  if path.isEmpty then .error .missing
  else do
    match ← follow tree.root linkLimit tree.currentTrail (Path.components path) with
    | (.file bytes, names) =>
        if namesDirectory path then throw .notDirectory else return (.file bytes, names)
    | found => return found

def lookup (tree : FileTree) (path : Path) : Except FileFault FileNode :=
  (tree.locate path).map (·.1)

def absolute (names : List String) : Path := "/" ++ "/".intercalate names

def isFile (tree : FileTree) (path : Path) : Bool :=
  match tree.lookup path with
  | .ok (.file _) => true
  | _ => false

def isDirectory (tree : FileTree) (path : Path) : Bool :=
  match tree.lookup path with
  | .ok (.directory _) => true
  | _ => false

/-- Whether something is at a path, be it a link that leads nowhere. -/
def holds (tree : FileTree) (path : Path) : Bool :=
  match tree.lookup path with
  | .ok _ => true
  | .error _ =>
      match Path.parent? path, Path.fileName? path with
      | some above, some name =>
          match tree.lookup (if above.isEmpty then "." else above) with
          | .ok (.directory entries) => (entries.lookup name).isSome && !namesDirectory path
          | _ => false
      | _, _ => false

def entries (tree : FileTree) (path : Path) : List (String × FileNode) :=
  match tree.lookup path with
  | .ok (.directory entries) => entries
  | _ => []

def readText (tree : FileTree) (path : Path) : Except FileFault (List Char) := do
  match ← tree.lookup path with
  | .file bytes =>
      match String.fromUTF8? bytes with
      | some text => return text.toList
      | none => throw .notText
  | .directory _ => throw .isDirectory
  | .link _ => throw .missing

def depth (tree : FileTree) : Nat := (FileNode.directory tree.root).depth

end FileTree

end FieldUsage
