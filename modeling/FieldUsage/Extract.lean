import FieldUsage.Extract.Config
import FieldUsage.Host.Module
import FieldUsage.Text.Position

/-!
Documents inside source files. A GraphQL file is a document as a whole. In a file of a host
language, documents are the templates behind one of the configured tags; a template with holes
gives the text before its first hole, or nothing, as configured. The configuration only selects
among the templates of a file: it has no part in reading them.
-/

namespace FieldUsage

structure Extracted where
  /-- The text of the document as written. -/
  source : List Char
  /-- The byte offset of the text in the source. -/
  offset : Nat
  /-- The tag in front of the template; none for a file that is a document. -/
  tag : Option String
  /-- Whether the text was cut off at a hole. -/
  truncated : Bool
deriving DecidableEq, Repr

namespace Extracted

def length (item : Extracted) : Nat :=
  Text.size item.source

def range (item : Extracted) (source : List UInt8) : Text.Range :=
  Text.Range.ofOffsets source item.offset (item.offset + item.length)

/-- The line on which the document begins. -/
def line (item : Extracted) (source : List UInt8) : Nat :=
  (item.range source).start.lineNumber

end Extracted

/-- A source that is not written in its language: the line of the first fault. -/
structure ParseFault where
  language : Language
  line : Nat
deriving DecidableEq, Repr

namespace Extract

/-- The character that may mark the beginning of an encoded file. -/
def byteOrderMark : Char := '\ufeff'

def hostText : List Char → List Char
  | c :: rest => if c = byteOrderMark then rest else c :: rest
  | [] => []

/-- Whether a template is a document under a configuration. -/
def selects {text : List Char} (config : ExtractConfig) (template : Host.Template text) : Bool :=
  config.tagIdentifiers.contains template.tag.name &&
    !(template.interpolated && config.interpolation == .skip)

def ofTemplate {text : List Char} (template : Host.Template text) : Extracted :=
  { source := template.raw
    offset := template.start.offset
    tag := some template.tag.name
    truncated := template.interpolated }

/-- The documents in a source, in the order of the walk over it. -/
def documents (language : Language) (config : ExtractConfig) (source : List Char) :
    Except ParseFault (List Extracted) :=
  if language.requiresExtraction then
    match Host.Module.templates (.ofLanguage language) (hostText source) with
    | .ok found => .ok ((found.filter (selects config)).map ofTemplate)
    | .error offset =>
        .error { language, line := (Text.Position.ofOffset (Text.bytes source) offset).lineNumber }
  else .ok [{ source, offset := 0, tag := none, truncated := false }]

end Extract

end FieldUsage
