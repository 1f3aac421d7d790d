import FieldUsage.Extract
import FieldUsage.File.Tree

/-!
Documents in files. The name of a file tells its language.
-/

namespace FieldUsage

inductive ExtractError where
  | unreadable (path : Path) (fault : FileFault)
  /-- A file of no known language. -/
  | unsupported (path : Path)
  | unparsable (fault : ParseFault)
deriving DecidableEq, Repr

def ExtractError.message : ExtractError → String
  | .unreadable path fault => "Failed to read " ++ path ++ ": " ++ fault.message
  | .unsupported path => "Unsupported file type: " ++ path
  | .unparsable fault =>
      "Failed to parse " ++ fault.language.name ++
        " source at line " ++ toString fault.line ++ ": " ++
        unexplained

namespace Extract

/-- The documents in a file, and its text. -/
def documentsInFile (tree : FileTree) (config : ExtractConfig) (path : Path) :
    Except ExtractError (List Char × List Extracted) :=
  match Language.ofPath? path with
  | none => .error (.unsupported path)
  | some language =>
      match tree.readText path with
      | .error fault => .error (.unreadable path fault)
      | .ok source =>
          match documents language config source with
          | .error fault => .error (.unparsable fault)
          | .ok found => .ok (source, found)

end Extract

end FieldUsage
