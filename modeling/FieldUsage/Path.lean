import FieldUsage.Text.Bytes

/-!
File paths as texts. A path is kept the way it was written: joining and taking parents never
normalise it, so that messages show what the user typed. Reading a path goes through its components,
in which repeated separators and inner `.` steps do not count.
-/

namespace FieldUsage

/-- A path as written, with `/` between its components. -/
abbrev Path := String

namespace Path

/-- One step of a path. -/
inductive Component where
  /-- The leading `/` of an absolute path. -/
  | root
  /-- A leading `.` of a relative path. -/
  | here
  /-- `..` -/
  | up
  | name (text : String)
deriving DecidableEq, Repr

def Component.text : Component → String
  | .root => "/"
  | .here => "."
  | .up => ".."
  | .name text => text

def Component.rank : Component → Nat
  | .root => 0
  | .here => 1
  | .up => 2
  | .name _ => 3

/-- Components are ordered by kind and names among themselves by their bytes. -/
def Component.lt (first second : Component) : Bool :=
  match first, second with
  | .name a, .name b => Text.precedes a b
  | a, b => a.rank < b.rank

/-- A path that starts at the root. -/
def isAbsolute (path : Path) : Bool :=
  path.toList.head? == some '/'

/-- The steps between separators, without empty ones and `.` steps. -/
def steps (pieces : List (List Char)) : List Component :=
  pieces.filterMap fun piece =>
    if piece = [] ∨ piece = ['.'] then none
    else if piece = ['.', '.'] then some .up
    else some (.name (String.ofList piece))

def components (path : Path) : List Component :=
  match Text.splitAtEvery '/' path.toList with
  | [] => []
  | first :: rest =>
      if isAbsolute path then .root :: steps (first :: rest)
      else if first = ['.'] then .here :: steps rest
      else steps (first :: rest)

/-- Two paths are the same path when their components agree. -/
def same (first second : Path) : Bool :=
  components first == components second

def componentsLt : List Component → List Component → Bool
  | [], [] => false
  | [], _ :: _ => true
  | _ :: _, [] => false
  | a :: as, b :: bs => if a = b then componentsLt as bs else a.lt b

def le (first second : Path) : Bool :=
  !componentsLt (components second) (components first)

/-- The last component, if it is a name. -/
def fileName? (path : Path) : Option String :=
  match (components path).getLast? with
  | some (.name text) => some text
  | _ => none

/-- The text after the last dot of the file name. A name whose only dot comes first has none. -/
def extension? (path : Path) : Option String :=
  (fileName? path).bind fun name =>
    match Text.splitAtLast '.' name.toList with
    | some (_ :: _, after) => some (String.ofList after)
    | _ => none

/-- A path below another one. An absolute second path stands for itself, and an empty first path
adds nothing. -/
def join (base rest : Path) : Path :=
  if isAbsolute rest then rest
  else if base.isEmpty || base.toList.getLast? == some '/' then base ++ rest
  else base ++ "/" ++ rest

/-- A path written backwards, without the separators and `.` steps it begins with. The root keeps
its separator. -/
def dropTrailing : List Char → List Char
  | [] => []
  | ['/'] => ['/']
  | '/' :: rest => dropTrailing rest
  | '.' :: '/' :: rest => dropTrailing ('/' :: rest)
  | other => other

/-- The path without its last component; none for the root and for the empty path. -/
def parent? (path : Path) : Option Path :=
  match (components path).getLast? with
  | none | some .root => none
  | some last =>
      let reversed := dropTrailing path.toList.reverse
      let above := reversed.drop last.text.length
      some (String.ofList (dropTrailing above).reverse)

/-- The directories at and above a path, nearest first, ending with the root or the empty path. -/
def ancestors (path : Path) : List Path :=
  let rec go : Nat → Path → List Path
    | 0, current => [current]
    | steps + 1, current =>
        match parent? current with
        | some above => current :: go steps above
        | none => [current]
  go (components path).length path

end Path

end FieldUsage
