import FieldUsage.File.Tree
import FieldUsage.Glob.Pattern
import FieldUsage.Text.Bytes

/-!
The paths in a tree of files that a pattern stands for. A pattern is followed component by
component: a component without wildcards is simply appended, one with wildcards chooses among the
entries of a directory, and `**` goes on to all directories below. Links are followed.
-/

namespace FieldUsage.Glob

def Pattern.literal? (pattern : Pattern) : Option String :=
  let own (part : Part) : Option Char := match part with
    | .char c => some c
    | _ => none
  (pattern.mapM own).map String.ofList

def Pattern.isRecursive (pattern : Pattern) : Bool :=
  pattern.contains .anyComponents

/-- A path below another one; the current directory does not show. -/
def below (path : Path) (name : String) : Path :=
  if Path.same path "." then name else path.join name

/-- The entries that a component with wildcards can choose: the names in the directory, in order,
and the directory itself and the one above for a component that begins with a dot. -/
def choices (pattern : Pattern) (tree : FileTree) (path : Path) : List String :=
  let names := ((tree.entries path).map (·.1)).mergeSort fun a b => !Text.precedes b a
  let special :=
    if pattern.head? == some (.char '.') then [".", ".."].filter pattern.accepts else []
  names ++ special

/-- The paths below a path that components stand for. `directories` asks for directories only, and
`bound` limits the number of steps. -/
def expandBelow (tree : FileTree) (directories : Bool) :
    (bound : Nat) → List Pattern → Path → List Path
  | 0, _, _ => []
  | _, [], _ => []
  | bound + 1, pattern :: rest, path =>
      let arrive (path : Path) : List Path :=
        if !directories || tree.isDirectory path then [path] else []
      let choose (pattern : Pattern) (rest : List Pattern) (name : String) : List Path :=
        if !pattern.accepts name then []
        else if rest.isEmpty then arrive (below path name)
        else expandBelow tree directories bound rest (below path name)
      match Pattern.literal? pattern with
      | some name =>
          let next := below path name
          let special := name == "." || name == ".."
          if !(if special then tree.isDirectory path else tree.holds next) then []
          else if rest.isEmpty then arrive next
          else expandBelow tree directories bound rest next
      | none =>
          if !tree.isDirectory path then []
          else if pattern.isRecursive then
            let rest := rest.dropWhile Pattern.isRecursive
            (choices pattern tree path).flatMap fun name =>
              let next := below path name
              let deeper :=
                if tree.isDirectory next then
                  expandBelow tree directories bound (pattern :: rest) next
                else []
              match rest with
              | [] => if tree.isDirectory next then next :: deeper else []
              | first :: more => choose first more name ++ deeper
          else (choices pattern tree path).flatMap (choose pattern rest)

def pieces (text : List Char) : List String :=
  let all := (Text.splitAtEvery separator text).map String.ofList
  if all.getLast? == some "" then all.dropLast else all

/-- The paths in a tree that a pattern stands for. Every step goes to a later component or to a
deeper path, and a path through links is not deeper than the links that may be in it. -/
def expand (tree : FileTree) (text : String) : Except PatternError (List Path) := do
  let _ ← Pattern.parse text
  let absolute := Path.isAbsolute text
  let characters := if absolute then text.toList.dropWhile (· == separator) else text.toList
  let patterns ← (pieces characters).mapM Pattern.parse
  let directories := text.toList.getLast? == some separator
  let bound := patterns.length + (tree.depth + 1) * (FileTree.linkLimit + 1)
  return expandBelow tree directories bound patterns (if absolute then "/" else ".")

end FieldUsage.Glob
