import FieldUsage.Text.Hex
import FieldUsage.Yaml.Cursor

/-!
The texts of scalars. A line end inside a plain or quoted scalar stands for a blank, and each
further one for itself; in a block scalar the lines are kept, or joined in the same way where they
are folded. Every loop takes a character of the text in each round, and its first argument bounds
the rounds.
-/

namespace FieldUsage.Yaml.Reader

/-- What stands for a gap between words: blanks for themselves, one line end for a blank, and more
for one less. -/
def fold (blanks : List Char) (breaks : Nat) : List Char :=
  match breaks with
  | 0 => blanks
  | 1 => [' ']
  | more + 2 => List.replicate (more + 1) '\n'

/-- Whether a character goes on a plain scalar, by the text from it on. -/
def continuesPlain (inFlow : Bool) : List Char → Bool
  | [] => false
  | c :: rest =>
      !isBlank c && !isBreak c &&
        !(c == ':' && (endsWord rest || (inFlow && rest.head?.any isFlowMark))) &&
        !(inFlow && isFlowMark c)

def plainLength (inFlow : Bool) : List Char → Nat
  | [] => 0
  | c :: rest => if continuesPlain inFlow (c :: rest) then plainLength inFlow rest + 1 else 0

/-- Passes over blanks and line ends between the words of a plain scalar. A tab may not stand
where a line is indented, unless nothing follows it. Gives the blanks before the first line end,
and the number of line ends. -/
def plainGap (column : Int) :
    (bound : Nat) → (blanks : List Char) → (breaks : Nat) → Reader (List Char × Nat)
  | 0, blanks, breaks => return (blanks, breaks)
  | bound + 1, blanks, breaks => do
      let c ← get
      match c.rest.head? with
      | some char =>
          if isBlank char then
            if breaks > 0 && char == '\t' && decide ((c.column : Int) < column) then
              let _ ← skipToLineEnd
              unless endsLine (← rest) do failure
              plainGap column bound blanks breaks
            else
              skipBlanks 1
              plainGap column bound (if breaks = 0 then blanks ++ [char] else blanks) breaks
          else if isBreak char then
            skipBreak
            plainGap column bound blanks (breaks + 1)
          else return (blanks, breaks)
      | none => return (blanks, breaks)

/-- The words of a plain scalar behind the text so far, with the gap before them. -/
def plainWords (column : Int) : (bound : Nat) → (text gap : List Char) → Reader (List Char)
  | 0, text, _ => return text
  | bound + 1, text, gap => do
      let c ← get
      let flow := !c.flow.isEmpty
      if (c.fresh && isDocumentMark c.rest) || c.rest.head? == some '#' then return text
      match c.rest with
      | '-' :: next :: _ => if flow && isFlowMark next then failure
      | _ => pure ()
      let length := plainLength flow c.rest
      let word := c.rest.take length
      if length > 0 then skip length
      let text := if length > 0 then text ++ gap ++ word else text
      let next := (← rest).head?
      if !(next.any isBlank || next.any isBreak) then return text
      let (blanks, breaks) ← plainGap column bound [] 0
      let c ← get
      if c.flow.isEmpty && decide ((c.column : Int) < column) then return text
      plainWords column bound text (fold blanks breaks)

def plain : Reader (List Char) := do
  dropLooseLevels
  let c ← get
  let column := c.indent + 1
  if !c.flow.isEmpty && decide ((c.column : Int) < column) then failure
  let text ← plainWords column (c.rest.length + 1) [] []
  if (← get).fresh then allowKey true
  if text.isEmpty then failure
  return text

def hexCharacter (count : Nat) : Reader Char := do
  match Text.hexAt? count (← rest) with
  | some code =>
      if Text.isSurrogate code || code > 0x10FFFF then failure
      skip count
      return Char.ofNat code
  | none => failure

/-- What a character stands for behind a backslash, if that does not take more characters. -/
def escapeOf? : Char → Option Char
  | '0' => some '\x00'
  | 'a' => some '\x07'
  | 'b' => some '\x08'
  | 't' | '\t' => some '\t'
  | 'n' => some '\n'
  | 'v' => some '\x0b'
  | 'f' => some '\x0c'
  | 'r' => some '\r'
  | 'e' => some '\x1b'
  | ' ' => some ' '
  | '"' => some '"'
  | '/' => some '/'
  | '\\' => some '\\'
  | 'N' => some '\u0085'
  | '_' => some '\u00a0'
  | 'L' => some '\u2028'
  | 'P' => some '\u2029'
  | _ => none

def escaped : Reader Char := do
  match ← peek with
  | some 'x' => skip 1; hexCharacter 2
  | some 'u' => skip 1; hexCharacter 4
  | some 'U' => skip 1; hexCharacter 8
  | some c =>
      match escapeOf? c with
      | some char => skip 1; return char
      | none => failure
  | none => failure

/-- The characters of a quoted scalar up to a blank, a line end or the closing quote. Tells also
whether a line end was escaped. -/
def quotedWord (quote : Char) : (bound : Nat) → Reader (List Char × Bool)
  | 0 => failure
  | bound + 1 => do
      match ← rest with
      | [] => return ([], false)
      | c :: more =>
          if isBlank c || isBreak c then return ([], false)
          else if c == quote then
            if quote == '\'' && more.head? == some '\'' then
              skip 2
              let (word, escape) ← quotedWord quote bound
              return ('\'' :: word, escape)
            else return ([], false)
          else if quote == '"' && c == '\\' then
            skip 1
            if more.head?.any isBreak then
              skipBreak
              return ([], true)
            else
              let char ← escaped
              let (word, escape) ← quotedWord quote bound
              return (char :: word, escape)
          else
            skip 1
            let (word, escape) ← quotedWord quote bound
            return (c :: word, escape)

/-- Passes over blanks and line ends in a quoted scalar. `leading` says whether a line end came
before. Gives the blanks before the first line end, and the number of line ends. -/
def quotedGap : (bound : Nat) → (leading : Bool) → (blanks : List Char) → (breaks : Nat) →
    Reader (List Char × Nat)
  | 0, _, blanks, breaks => return (blanks, breaks)
  | bound + 1, leading, blanks, breaks => do
      let c ← get
      match c.rest.head? with
      | some char =>
          if isBlank char then
            if leading && char == '\t' && decide ((c.column : Int) < c.indent) then failure
            skipBlanks 1
            quotedGap bound leading (if leading then blanks else blanks ++ [char]) breaks
          else if isBreak char then
            skipBreak
            quotedGap bound true blanks (breaks + 1)
          else return (blanks, breaks)
      | none => return (blanks, breaks)

def quotedWords (quote : Char) : (bound : Nat) → Reader (List Char)
  | 0 => failure
  | bound + 1 => do
      let c ← get
      if c.rest.isEmpty || (c.column = 0 && isDocumentMark c.rest) then failure
      if (c.column : Int) < c.indent then failure
      let (word, escape) ← quotedWord quote (c.rest.length + 1)
      if (← peek) == some quote then return word
      let (blanks, breaks) ← quotedGap (c.rest.length + 1) escape [] 0
      let gap := if escape then List.replicate breaks '\n' else fold blanks breaks
      return word ++ gap ++ (← quotedWords quote bound)

/-- A quoted scalar. What follows it on its line can only be a mark or a comment. -/
def quoted (quote : Char) : Reader (List Char) := do
  let start ← get
  skip 1
  let text ← quotedWords quote (start.rest.length + 1)
  skip 1
  let _ ← skipToLineEnd
  let c ← get
  let flow := !c.flow.isEmpty
  match c.rest.head? with
  | none => return text
  | some next =>
      if isBreak next then return text
      else if flow && (next == ',' || next == '}' || next == ']' || next == ':') then return text
      else if !flow && next == ':' && start.line = c.line then return text
      else failure

inductive Chomping where
  | strip
  | clip
  | keep
deriving DecidableEq, Repr

def chomping? : Reader (Option Chomping) := do
  match ← peek with
  | some '+' => skip 1; return some .keep
  | some '-' => skip 1; return some .strip
  | _ => return none

def increment? : Reader (Option Nat) := do
  match ← peek with
  | some c =>
      if c.isDigit then
        if c == '0' then failure
        skip 1
        return some (c.toNat - '0'.toNat)
      else return none
  | none => return none

/-- Passes over spaces up to a column, and over lines that have nothing else. Gives the number of
lines. -/
def skipEmptyLines (column : Nat) : (bound : Nat) → Reader Nat
  | 0 => return 0
  | bound + 1 => do
      let c ← get
      skipBlanks (min (column - c.column) (c.rest.takeWhile (· == ' ')).length)
      if (← peek).any isBreak then
        skipBreak
        return (← skipEmptyLines column bound) + 1
      else return 0

/-- Passes over the empty lines at the beginning of a block scalar. Gives their number, and the
column of the furthest character reached. -/
def skipFirstLines : (bound : Nat) → (furthest : Nat) → Reader (Nat × Nat)
  | 0, furthest => return (0, furthest)
  | bound + 1, furthest => do
      skipBlanks ((← rest).takeWhile (· == ' ')).length
      let furthest := max furthest (← get).column
      if (← peek).any isBreak then
        skipBreak
        let (lines, furthest) ← skipFirstLines bound furthest
        return (lines + 1, furthest)
      else return (0, furthest)

/-- The lines of a block scalar. `lead` is the number of line ends behind the last line, zero or
one, `empty` the number of empty lines after it, and `indented` says whether the last line began
with a blank. Gives the text, and the line ends behind its last line and after it. -/
def blockLines (folded : Bool) (column : Nat) :
    (bound : Nat) → (lead empty : Nat) → (indented : Bool) → Reader (List Char × Nat × Nat)
  | 0, lead, empty, _ => return ([], lead, empty)
  | bound + 1, lead, empty, indented => do
      let c ← get
      if c.column ≠ column || c.rest.isEmpty then return ([], lead, empty)
      if column = 0 && isDocumentMark c.rest && c.rest.head? == some '.' then
        return ([], lead, empty)
      let blank := c.rest.head?.any isBlank
      let gap :=
        if folded && lead > 0 && !indented && !blank then
          if empty = 0 then [' '] else List.replicate empty '\n'
        else List.replicate (lead + empty) '\n'
      let line := c.rest.takeWhile (!isBreak ·)
      skip line.length
      if (← rest).isEmpty then return (gap ++ line, 0, 0)
      skipBreak
      let lines ← skipEmptyLines column (c.rest.length + 1)
      let (more, lead, empty) ← blockLines folded column bound 1 lines blank
      return (gap ++ line ++ more, lead, empty)

def block (folded : Bool) : Reader (List Char) := do
  let start ← get
  let bound := start.rest.length + 1
  skip 1
  dropLooseLevels
  let (chomping, increment) ← do
    match ← chomping? with
    | some chomping => pure (chomping, ← increment?)
    | none =>
        let increment ← increment?
        let chomping ← if increment.isSome then chomping? else pure none
        pure (chomping.getD .clip, increment)
  let _ ← skipToLineEnd
  unless endsLine (← rest) do failure
  unless (← rest).isEmpty do skipBreak
  if (← peek) == some '\t' then failure
  let indent := (← get).indent
  let (column, empty) ← match increment with
    | some increment =>
        let column := if 0 ≤ indent then indent.toNat + increment else increment
        pure (column, ← skipEmptyLines column bound)
    | none =>
        let (lines, furthest) ← skipFirstLines bound 0
        let column := max furthest (indent + 1).toNat
        pure (if 0 < indent then max column 1 else column, lines)
  let c ← get
  if c.rest.isEmpty then
    return match chomping with
      | .strip => []
      | _ =>
          if c.line = start.line then []
          else if chomping == .keep && empty > 0 then List.replicate empty '\n'
          else ['\n']
  if c.column < column && decide (indent < (c.column : Int)) then failure
  let (text, lead, after) ← blockLines folded column bound 0 empty false
  let c ← get
  let closing := if c.rest.isEmpty && decide (max column 1 ≤ c.column) then ['\n'] else []
  return match chomping with
    | .strip => text
    | .clip => text ++ List.replicate lead '\n' ++ closing
    | .keep => text ++ List.replicate lead '\n' ++ closing ++ List.replicate after '\n'

end FieldUsage.Yaml.Reader
