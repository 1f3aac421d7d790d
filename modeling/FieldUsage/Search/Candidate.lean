import FieldUsage.Glob.Pattern
import FieldUsage.Ignore.Walk
import FieldUsage.Language
import FieldUsage.Search.Error
import FieldUsage.Text.Bytes

/-!
Candidates: the files that may hold literals. A file of a host language without any of the tags in
its text has none, so it is not read as a program at all.
-/

namespace FieldUsage

structure CandidateFilter where
  extensions : List String
  tags : List String
  /-- Patterns of which one has to stand for a file, if there are any. -/
  included : List Glob.Pattern := []
  /-- Patterns of which none may stand for a file. -/
  excluded : List Glob.Pattern := []

namespace CandidateFilter

def defaultExtensions : List String := ["ts", "tsx"]

def compile (pattern : String) : Except SetupError Glob.Pattern :=
  (Glob.Pattern.parse pattern).mapError (.badPattern pattern)

def withPatterns (filter : CandidateFilter) (included excluded : List String) :
    Except SetupError CandidateFilter := do
  let included ← included.mapM compile
  let excluded ← excluded.mapM compile
  return { filter with included, excluded }

def acceptsPath (filter : CandidateFilter) (path : Path) : Bool :=
  path.extension?.any filter.extensions.contains &&
    (filter.included.isEmpty || filter.included.any (·.accepts path)) &&
    !filter.excluded.any (·.accepts path)

/-- Whether a text may hold literals. -/
def acceptsText (filter : CandidateFilter) (text : List Char) : Bool :=
  filter.tags.any fun tag => Text.occursIn tag.toList text

/-- Whether a file below a directory is a candidate. -/
def accepts (filter : CandidateFilter) (tree : FileTree) (root path : Path) :
    Except SearchError Bool :=
  if !filter.acceptsPath path then .ok false
  else
    match Language.ofPath? (root.join path) with
    | none => .ok false
    | some language =>
        if language.requiresExtraction then
          match tree.readText (root.join path) with
          | .ok text => .ok (filter.acceptsText text)
          | .error fault => .error (.unreadable (root.join path) fault)
        else .ok true

/-- The candidates among the files of a walk, in the order of the bytes of their paths. -/
def select (filter : CandidateFilter) (tree : FileTree) (root : Path) (walked : List Path) :
    Except SearchError (List Path) := do
  let found ← walked.filterM (filter.accepts tree root)
  return found.mergeSort fun a b => !Text.precedes b a

def candidates (filter : CandidateFilter) (tree : FileTree) (root : Path) :
    Except SearchError (List Path) :=
  match Ignore.walk tree root with
  | .error fault => .error (.noRoot root fault)
  | .ok walked => filter.select tree root walked

end CandidateFilter

end FieldUsage
