import FieldUsage.Cli.Snapshot

/-!
The program: it takes the files it needs from the disk, runs the command on them, and prints.
-/

namespace FieldUsage.Cli

/-- A file or directory on the disk, with everything below. What cannot be read is left out. -/
partial def readNode (path : String) : IO (Option FileNode) := do
  let place := (← IO.currentDir) / path
  try
    match (← place.symlinkMetadata).type with
    | .dir =>
        let mut entries := #[]
        for entry in ← place.readDir do
          if let some node ← readNode entry.path.toString then
            entries := entries.push (entry.fileName, node)
        return some (.directory entries.toList)
    | .symlink =>
        try return some (.link (← IO.FS.realPath place).toString)
        catch _ => return some (.link "/dev/null/missing")
    | _ => return some (.file (← IO.FS.readBinFile place))
  catch _ => return none

/-- A tree with what is at some places on the disk. -/
def readPlaces (tree : FileTree) (paths : List Path) : IO FileTree := do
  let mut root := FileNode.directory tree.root
  for path in paths do
    let names := namesFrom tree.current path
    if let some node ← readNode (FileTree.absolute names) then
      root := FileNode.insert node names root
  match root with
  | .directory entries => return { tree with root := entries }
  | _ => return tree

def readTree (current : List String) (environment : Environment) (texts : List String) :
    IO FileTree := do
  let tree : FileTree :=
    match FileNode.insert (.directory []) current (.directory []) with
    | .directory entries => { root := entries, current }
    | _ => { root := [], current }
  match request? (FileTree.absolute current) environment texts with
  | none => return tree
  | some (arguments, request) =>
      let repository := FileTree.absolute (namesFrom current request.repository)
      let outer := repository.ancestors.flatMap fun above => outerFiles.map above.join
      let tree ← readPlaces tree (arguments.config.toList ++ outer ++ [request.repository])
      readPlaces tree (schemaPlaces tree arguments request)

end FieldUsage.Cli

open FieldUsage in
def main (texts : List String) : IO UInt32 := do
  let directory ← IO.currentDir
  let current := Cli.namesFrom [] directory.toString
  let environment : Cli.Environment :=
    { home := ← IO.getEnv "HOME"
      noColor := ← IO.getEnv "NO_COLOR"
      forceColor := ← IO.getEnv "CLICOLOR_FORCE" }
  let tree ← Cli.readTree current environment texts
  let outcome := Cli.run tree environment texts
  IO.eprint outcome.errors
  IO.print outcome.output
  return outcome.code.toUInt32
