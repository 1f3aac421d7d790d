import FieldUsage.Text.Bytes

/-!
Rules that leave out files. A rule file has a rule on each line: a pattern for paths below the
directory of the file, which leaves out what it stands for, or takes it back in behind `!`. The last
rule that speaks about a path decides. Patterns are written in characters and stand for bytes, so
that a `?` is not enough for a letter of two bytes.
-/

namespace FieldUsage.Ignore

structure CharRange where
  first : Char
  last : Char
deriving DecidableEq, Repr

inductive Part where
  | char (c : Char)
  /-- `?` -/
  | anyChar
  /-- `*` -/
  | anyText
  | bracket (negated : Bool) (ranges : List CharRange)
  /-- `**` and a separator at the beginning: nothing, or directories. -/
  | anyStart
  /-- A separator and `**` at the end: everything below. -/
  | anyEnd
  /-- `**` between separators: nothing but a separator, or directories. -/
  | anyMiddle
deriving DecidableEq, Repr

/-- What is read of a pattern: the parts so far, latest first, one list for each alternative of the
braces around. -/
abbrev Alternatives := List (List Part)

def add (part : Part) (alternatives : Alternatives) : Alternatives :=
  alternatives.map (part :: ·)

/-- The ranges of a bracket behind its opening and what follows the bracket, if it is closed. The
first character is a member whatever it is, and a hyphen at the end is itself. -/
def ranges? (opening pending : Bool) :
    List CharRange → List Char → Option (List CharRange × List Char)
  | _, [] => none
  | found, c :: rest =>
      if c = ']' ∧ !opening then
        some (if pending then ⟨'-', '-'⟩ :: found else found, rest)
      else if c = '-' ∧ !opening ∧ !pending then ranges? false true found rest
      else
        match pending, found with
        | true, range :: others =>
            if range.first ≤ c then ranges? false false (⟨range.first, c⟩ :: others) rest else none
        | _, _ => ranges? false false (⟨c, c⟩ :: found) rest

def bracket? (text : List Char) : Option (Part × List Char) :=
  match text with
  | '!' :: rest | '^' :: rest =>
      (ranges? true false [] rest).map fun (found, rest) => (.bracket true found, rest)
  | _ => (ranges? true false [] text).map fun (found, rest) => (.bracket false found, rest)

/-- Two stars behind parts that were read, given the character before them. Gives the parts with the
stars, and whether the separator behind them is taken. -/
def stars (before : Option Char) (inBraces : Bool) (rest : List Char) (parts : List Part) :
    List Part × Bool :=
  let plain := (.anyText :: .anyText :: parts, false)
  let followed := rest.head? == some '/'
  if parts.isEmpty then
    if rest.isEmpty || followed then ([.anyStart], followed) else plain
  else
    let separated := before == some '/' || (inBraces && (before == some ',' || before == some '{'))
    let closed := rest.isEmpty || (inBraces && (rest.head? == some ',' || rest.head? == some '}'))
    if !separated || !(followed || closed) then plain
    else
      match parts with
      | .anyStart :: earlier => (.anyStart :: earlier, followed)
      | .anyEnd :: earlier => (.anyEnd :: earlier, followed)
      | _ :: earlier => ((if followed then .anyMiddle else .anyEnd) :: earlier, followed)
      | [] => plain

/-- What is open while a pattern is read: the alternatives before the innermost brace, and those
that were finished inside it. -/
structure Brace where
  before : Alternatives
  finished : Alternatives

/-- Reads a pattern. The first argument bounds the number of parts. -/
def parse? : (bound : Nat) → (before : Option Char) → List Brace → Alternatives → List Char →
    Option Alternatives
  | 0, _, _, _, _ => none
  | _, _, braces, current, [] => if braces.isEmpty then some (current.map List.reverse) else none
  | bound + 1, before, braces, current, c :: rest =>
      let go (part : Part) := parse? bound (some c) braces (add part current) rest
      match c with
      | '?' => go .anyChar
      | '[' => do
          let (part, rest) ← bracket? rest
          parse? bound (some ']') braces (add part current) rest
      | '\\' =>
          match rest with
          | [] => none
          | literal :: rest => parse? bound (some literal) braces (add (.char literal) current) rest
      | '*' =>
          match rest with
          | '*' :: rest =>
              let read := current.map (stars before (!braces.isEmpty) rest)
              let taken := read.any (·.2)
              parse? bound (some (if taken then '/' else '*')) braces (read.map (·.1))
                (if taken then rest.drop 1 else rest)
          | _ => go .anyText
      | '{' => parse? bound (some c) ({ before := current, finished := [] } :: braces) current rest
      | '}' =>
          match braces with
          | brace :: outer => parse? bound (some c) outer (brace.finished ++ current) rest
          | [] => none
      | ',' =>
          match braces with
          | brace :: outer =>
              parse? bound (some c) ({ brace with finished := brace.finished ++ current } :: outer)
                brace.before rest
          | [] => go (.char c)
      | c => go (.char c)

def alternatives? (text : List Char) : Option Alternatives :=
  parse? (text.length + 1) none [] [[]] text

/-- Whether a range has a byte. The bytes of its ends stand in the bracket one by one, and only the
two next to the hyphen make a range. -/
def CharRange.covers (range : CharRange) (byte : UInt8) : Bool :=
  let first := String.utf8EncodeChar range.first
  let last := String.utf8EncodeChar range.last
  if range.first = range.last then first.contains byte
  else
    first.dropLast.contains byte || last.tail.contains byte ||
      (first.getLast?.any (· ≤ byte) && last.head?.any (byte ≤ ·))

/-- Whether a part that stands for one byte stands for this one. A bracket may stand for a
separator. -/
def Part.accepts (byte : UInt8) : Part → Bool
  | .anyChar => byte != '/'.toUInt8
  | .bracket negated ranges => (ranges.any (·.covers byte)) != negated
  | _ => false

/-- Whether some text without a separator can be dropped so that the rest fits. -/
def withinName (next : List UInt8 → Bool) : List UInt8 → Bool
  | [] => next []
  | byte :: rest => next (byte :: rest) || (byte != '/'.toUInt8 && withinName next rest)

/-- Whether some text up to and with a separator can be dropped so that the rest fits. -/
def afterSeparator (next : List UInt8 → Bool) : List UInt8 → Bool
  | [] => false
  | byte :: rest => (byte == '/'.toUInt8 && next rest) || afterSeparator next rest

/-- Whether some text can be dropped so that the rest fits. -/
def anywhere (next : List UInt8 → Bool) : List UInt8 → Bool
  | [] => next []
  | byte :: rest => next (byte :: rest) || anywhere next rest

def fits : List Part → List UInt8 → Bool
  | [], text => text.isEmpty
  | part :: parts, text =>
      match part with
      | .char c => (String.utf8EncodeChar c).isPrefixOf text && fits parts (text.drop c.utf8Size)
      | .anyText => withinName (fits parts) text
      | .anyStart => fits parts text || afterSeparator (fits parts) text
      | .anyEnd => text.head? == some '/'.toUInt8 && anywhere (fits parts) text.tail
      | .anyMiddle =>
          text.head? == some '/'.toUInt8 &&
            (fits parts text.tail || afterSeparator (fits parts) text.tail)
      | part =>
          match text with
          | [] => false
          | byte :: rest => part.accepts byte && fits parts rest

/-- Whether a pattern, given by its alternatives, stands for a path. Nothing but `**` stands for
every path. -/
def Alternatives.fit (patterns : Alternatives) (path : List UInt8) : Bool :=
  patterns == [[.anyStart]] || patterns.any (fits · path)

structure Rule where
  /-- Whether the rule takes back in what it stands for. -/
  includes : Bool
  /-- Whether the rule is about directories only. -/
  directories : Bool
  patterns : Alternatives
deriving DecidableEq, Repr

/-- The text of a line without blanks at its end, unless the last one is escaped. -/
def lineText (line : List Char) : List Char :=
  if Text.startsWith [' ', '\\'] line.reverse then line
  else (Text.trimStart line.reverse).reverse

/-- The pattern for whole paths of a line's text. A text without a separator stands for names at any
depth, and one that ends in `/**` for what is inside a directory. -/
def wholePattern (anchored : Bool) (text : List Char) : List Char :=
  let anywhere := !anchored && !text.contains '/' && text != ['*', '*']
  let text := if anywhere then ['*', '*', '/'] ++ text else text
  if Text.startsWith ['*', '*', '/'] text.reverse then text ++ ['/', '*'] else text

def Rule.ofLine? (line : List Char) : Option Rule := do
  if line.head? == some '#' then none
  let text := lineText line
  if text.isEmpty then none
  let escaped := Text.startsWith ['\\', '!'] text || Text.startsWith ['\\', '#'] text
  let includes := !escaped && text.head? == some '!'
  let text := if escaped || includes then text.drop 1 else text
  let anchored := text.head? == some '/'
  let text := if anchored && !escaped then text.drop 1 else text
  let directories := text.getLast? == some '/'
  let text := if directories then text.dropLast else text
  let text := if directories && text.getLast? == some '\\' then text.dropLast else text
  return { includes, directories, patterns := ← alternatives? (wholePattern anchored text) }

/-- The rules of a file, last line first. -/
abbrev Rules := List Rule

def lines (bytes : List UInt8) : List (List UInt8) :=
  let pieces := Text.splitAtEvery '\n'.toUInt8 bytes
  let ended := pieces.dropLast.map fun line =>
    if line.getLast? == some '\r'.toUInt8 then line.dropLast else line
  ended ++ pieces.getLast?.toList

/-- The rules of a file. Its lines count up to the first one that is no text. -/
def Rules.ofBytes (bytes : List UInt8) : Rules :=
  let read := (lines bytes).map fun line => String.fromUTF8? line.toByteArray
  let texts := read.takeWhile (·.isSome)
  let texts := match texts.filterMap (·.map String.toList) with
    | first :: rest => first.dropWhile (· == '\ufeff') :: rest
    | [] => []
  (texts.filterMap Rule.ofLine?).reverse

inductive Verdict where
  | ignored
  | included
deriving DecidableEq, Repr

/-- What rules say about a path below their directory, if they speak about it. -/
def Rules.verdict? (rules : Rules) (path : List UInt8) (isDirectory : Bool) : Option Verdict :=
  (rules.find? fun rule =>
    (!rule.directories || isDirectory) && rule.patterns.fit path).map
    fun rule => if rule.includes then .included else .ignored

end FieldUsage.Ignore
