import FieldUsage.Text.Bytes
import FieldUsage.Text.Hex
import FieldUsage.Text.Letters

/-!
The tokens of host source text. Where a token ends depends on the grammar only for slashes,
backquotes, closing angle brackets and markup, and there the reader asks for the special form; all
other tokens are cut off the text here. A cut is described by the number of characters it takes.
-/

namespace FieldUsage.Host

inductive Token where
  /-- The end of the text. -/
  | finish
  /-- An identifier or keyword, with its escapes decoded. -/
  | word (text : String) (escaped : Bool)
  /-- Punctuation. -/
  | mark (text : String)
  | number
  | string (value : String)
  /-- The backquote that opens a template. -/
  | backquote
  /-- Text that is no token, and the byte offset a complaint about it names. -/
  | broken (offset : Nat)
deriving DecidableEq, Repr

/-- A token and the characters it takes. A fault is a forbidden spelling that still is a token. -/
structure Lexeme where
  token : Token
  length : Nat
  fault : Option Nat := none
deriving Repr

def isLineEnd (c : Char) : Bool :=
  c == '\n' || c == '\r' || c == '\u2028' || c == '\u2029'

/-- Blanks of host text other than line ends. -/
def isSpace (c : Char) : Bool :=
  c == ' ' || c == '\t' || c == '\x0b' || c == '\x0c' || c == '\u0085' || c == '\u00a0' ||
    c == '\ufeff' ||
    c == '\u1680' || (0x2000 ≤ c.toNat && c.toNat ≤ 0x200a) || c == '\u202f' || c == '\u205f' ||
    c == '\u3000'

def startsWord (c : Char) : Bool :=
  c.isAlpha || c == '_' || c == '$' ||
    (0x80 ≤ c.toNat && Text.inRanges Text.identifierStarts c.toNat)

def continuesWord (c : Char) : Bool :=
  startsWord c || c.isDigit || (0x80 ≤ c.toNat && Text.inRanges Text.identifierMarks c.toNat)

/-- A code point written after a backslash, as `uXXXX` or `u{X...}`: its value, and the characters
read. -/
def codeEscape? : List Char → Option (Nat × Nat)
  | 'u' :: '{' :: rest =>
      (Text.bracedHex? rest).bind fun (value, length) =>
        if value ≤ 0x10FFFF then some (value, length + 3) else none
  | 'u' :: rest => (Text.hexAt? 4 rest).map fun value => (value, 5)
  | _ => none

structure WordScan where
  /-- The decoded characters, last first. -/
  text : List Char := []
  length : Nat := 0
  escaped : Bool := false
  valid : Bool := true

/-- Reads an identifier. The number counts the characters that belong to an escape already read. -/
def scanWord : Nat → List Char → WordScan → WordScan
  | _, [], scan => scan
  | skip + 1, _ :: rest, scan => scanWord skip rest scan
  | 0, c :: rest, scan =>
      let fits (d : Char) := if scan.length = 0 then startsWord d else continuesWord d
      if c = '\\' then
        match codeEscape? rest with
        | some (code, used) =>
            if fits (Char.ofNat code) then
              scanWord used rest
                { scan with
                  text := Char.ofNat code :: scan.text
                  length := scan.length + used + 1
                  escaped := true }
            else { scan with valid := false }
        | none => { scan with valid := false }
      else if fits c then
        scanWord 0 rest { scan with text := c :: scan.text, length := scan.length + 1 }
      else scan

/-- Words that are never identifiers, whatever their context, unless an escape stands at their
beginning; an escape further on is refused. -/
def reservedWords : List String :=
  ["break", "case", "catch", "class", "const", "continue", "debugger", "default", "delete", "do",
   "else", "enum", "export", "extends", "false", "finally", "for", "function", "if", "import", "in",
   "instanceof", "new", "null", "return", "super", "switch", "this", "throw", "true", "try",
   "typeof", "var", "void", "while", "with"]

def wordLexeme (offset : Nat) (text : List Char) : Lexeme :=
  let scan := scanWord 0 text {}
  let word := String.ofList scan.text.reverse
  if !scan.valid then { token := .broken offset, length := scan.length + 1 }
  else if scan.escaped && reservedWords.contains word && text.head? != some '\\' then
    { token := .broken offset, length := scan.length }
  else { token := .word word scan.escaped, length := scan.length }

/-- A run of digits with separators: its length, and whether a separator does not stand between two
digits. The flag tells that a digit was read last. -/
def digitRun (accepts : Char → Bool) : Bool → List Char → Nat × Bool
  | digitLast, [] => (0, !digitLast)
  | digitLast, c :: rest =>
      if accepts c then
        let (length, misplaced) := digitRun accepts true rest
        (length + 1, misplaced)
      else if c = '_' then
        let (length, misplaced) := digitRun accepts false rest
        (length + 1, misplaced || !digitLast)
      else (0, !digitLast)

def fractionRun : List Char → Nat × Bool
  | '.' :: rest =>
      let (length, misplaced) := digitRun Char.isDigit true rest
      (length + 1, misplaced)
  | _ => (0, false)

/-- The exponent of a decimal number; none if its digits are missing. -/
def exponentRun : List Char → Option (Nat × Bool)
  | e :: rest =>
      if e == 'e' || e == 'E' then
        let signs := match rest with
          | '+' :: _ | '-' :: _ => 1
          | _ => 0
        let (length, misplaced) := digitRun Char.isDigit true (rest.drop signs)
        if length = 0 then none else some (length + signs + 1, misplaced)
      else some (0, false)
  | [] => some (0, false)

/-- Closes a number: a letter or digit right after it makes it broken. -/
def closeNumber (offset length : Nat) (misplaced forbidden : Bool) (text : List Char) : Lexeme :=
  let noted := if misplaced || forbidden then some offset else none
  match text.drop length with
  | c :: _ =>
      if continuesWord c || c == '\\' then { token := .broken offset, length := length + 1 }
      else { token := .number, length, fault := noted }
  | [] => { token := .number, length, fault := noted }

/-- One more character if the text goes on with the suffix of big integers. -/
def bigSuffix (length : Nat) (text : List Char) : Nat :=
  if (text.drop length).head? = some 'n' then length + 1 else length

/-- A number in base two, eight or sixteen, after its two leading characters. -/
def basedNumber (offset : Nat) (accepts : Char → Bool) (text : List Char) : Lexeme :=
  let (length, misplaced) := digitRun accepts true (text.drop 2)
  if length = 0 then { token := .broken offset, length := 2 }
  else closeNumber offset (bigSuffix (length + 2) text) misplaced false text

/-- A decimal number. A leading zero before further digits is the forbidden octal spelling. -/
def decimalNumber (offset : Nat) (text : List Char) : Lexeme :=
  let (whole, wholeMisplaced) := digitRun Char.isDigit false text
  let leadingZero := text.head? = some '0' && 1 < whole
  let (fraction, fractionMisplaced) := fractionRun (text.drop whole)
  match exponentRun (text.drop (whole + fraction)) with
  | none => { token := .broken offset, length := whole + fraction + 1 }
  | some (exponent, exponentMisplaced) =>
      let length := whole + fraction + exponent
      let mayBeBig := fraction = 0 && exponent = 0 && !leadingZero
      let length := if mayBeBig then bigSuffix length text else length
      closeNumber offset length
        ((whole != 0 && wholeMisplaced) || fractionMisplaced || exponentMisplaced) leadingZero text

def isOctalDigit (c : Char) : Bool := '0' ≤ c && c ≤ '7'

def numberLexeme (offset : Nat) (text : List Char) : Lexeme :=
  match text with
  | '0' :: x :: _ =>
      if x == 'x' || x == 'X' then basedNumber offset (fun c => (Text.hexDigit? c).isSome) text
      else if x == 'o' || x == 'O' then basedNumber offset isOctalDigit text
      else if x == 'b' || x == 'B' then basedNumber offset (fun c => c == '0' || c == '1') text
      else decimalNumber offset text
  | _ => decimalNumber offset text

inductive Escape where
  | means (value : List Char) (length : Nat)
  /-- An octal digit: a character in old scripts, refused here. -/
  | octal
  | invalid

/-- Reads an escape, from the character after the backslash. -/
def escapeAt : List Char → Escape
  | [] => .invalid
  | '\r' :: '\n' :: _ => .means [] 2
  | 'x' :: rest =>
      match rest with
      | a :: b :: _ =>
          match Text.hexDigit? a, Text.hexDigit? b with
          | some a, some b => .means [Char.ofNat (a * 16 + b)] 3
          | _, _ => .invalid
      | _ => .invalid
  | 'u' :: rest =>
      match codeEscape? ('u' :: rest) with
      | some (code, length) => .means [Char.ofNat code] length
      | none => .invalid
  | '0' :: rest =>
      match rest with
      | d :: _ => if isOctalDigit d then .octal else .means [Char.ofNat 0] 1
      | [] => .means [Char.ofNat 0] 1
  | 'n' :: _ => .means ['\n'] 1
  | 't' :: _ => .means ['\t'] 1
  | 'r' :: _ => .means ['\r'] 1
  | 'b' :: _ => .means ['\x08'] 1
  | 'v' :: _ => .means ['\x0b'] 1
  | 'f' :: _ => .means ['\x0c'] 1
  | c :: _ => if isOctalDigit c then .octal else if isLineEnd c then .means [] 1 else .means [c] 1

structure StringScan where
  /-- The decoded characters, last first. -/
  value : List Char := []
  length : Nat := 1
  /-- The byte offset reached. -/
  offset : Nat
  closed : Bool := false
  fault : Option Nat := none
  invalid : Option Nat := none

/-- Reads a quoted string after its opening quote. The number counts the characters that belong to
an escape already read. -/
def scanString (quote : Char) : Nat → List Char → StringScan → StringScan
  | _, [], scan => scan
  | skip + 1, c :: rest, scan =>
      scanString quote skip rest
        { scan with length := scan.length + 1, offset := scan.offset + c.utf8Size }
  | 0, c :: rest, scan =>
      let passed := { scan with length := scan.length + 1, offset := scan.offset + c.utf8Size }
      if c = quote then { passed with closed := true }
      else if c == '\n' || c == '\r' then scan
      else if c = '\\' then
        match escapeAt rest with
        | .means value length =>
            scanString quote length rest { passed with value := value.reverse ++ scan.value }
        | .octal =>
            scanString quote 1 rest { passed with fault := scan.fault.or (some scan.offset) }
        | .invalid =>
            scanString quote 0 rest { passed with invalid := scan.invalid.or (some scan.offset) }
      else scanString quote 0 rest { passed with value := c :: scan.value }

def stringLexeme (offset : Nat) (quote : Char) (rest : List Char) : Lexeme :=
  let scan := scanString quote 0 rest { offset := offset + 1 }
  match scan.invalid with
  | some place => { token := .broken place, length := scan.length }
  | none =>
      { token := .string (String.ofList scan.value.reverse), length := scan.length
        fault := if scan.closed then scan.fault else scan.fault.or (some offset) }

/-- Punctuation, longer marks before their beginnings. A `>` is always cut off alone. -/
def marks : List (List Char) :=
  ["...", "===", "!==", "**=", "<<=", "&&=", "||=", "??=",
   "=>", "==", "!=", "++", "--", "+=", "-=", "*=", "/=", "%=", "&=", "|=", "^=", "<=", "<<", "**",
   "&&", "||", "??", "?.",
   "\x7b", "\x7d", "(", ")", "[", "]", ";", ",", "<", ">", "+", "-", "*", "/", "%", "&", "|", "^",
   "!", "~", "?", ":", "=", ".", "@", "#"].map String.toList

/-- The mark at the beginning of a text. `?.` before a digit is the `?` of a conditional. -/
def mark? (text : List Char) : Option (List Char) :=
  match text with
  | '?' :: '.' :: d :: _ => if d.isDigit then some ['?'] else some ['?', '.']
  | _ => marks.find? (Text.startsWith · text)

/-- The token at the beginning of a text that does not begin with blanks or comments. -/
def lexeme (offset : Nat) : List Char → Lexeme
  | [] => { token := .finish, length := 0 }
  | c :: rest =>
      if startsWord c || c == '\\' then wordLexeme offset (c :: rest)
      else if c.isDigit || (c == '.' && (rest.head?.any Char.isDigit)) then
        numberLexeme offset (c :: rest)
      else if c == '"' || c == '\'' then stringLexeme offset c rest
      else if c == '`' then { token := .backquote, length := 1 }
      else
        match mark? (c :: rest) with
        | some text => { token := .mark (String.ofList text), length := text.length }
        | none => { token := .broken offset, length := 1 }

/-- The assignment, shift or comparison a text beginning with `>` goes on with. -/
def greaterMark (text : List Char) : List Char :=
  let longer : List (List Char) := [">>>=", ">>>", ">>=", ">>", ">="].map String.toList
  (longer.find? (Text.startsWith · text)).getD ['>']

structure Gap where
  length : Nat := 0
  offset : Nat
  /-- A line ends inside. -/
  newline : Bool := false
  /-- A comment form that old scripts allow, or one that is never closed. -/
  fault : Option Nat := none

inductive GapMode where
  | blank
  | lineComment
  /-- A block comment, and the offset of its beginning. -/
  | blockComment (start : Nat)

def Gap.skip (gap : Gap) (c : Char) : Gap :=
  { gap with
    length := gap.length + 1
    offset := gap.offset + c.utf8Size
    newline := gap.newline || isLineEnd c }

/-- Adds the offset reached as a fault. -/
def Gap.blame (gap : Gap) : Gap :=
  { gap with fault := gap.fault.or (some gap.offset) }

def skipGap : GapMode → List Char → Gap → Gap
  | .blockComment start, [], gap => { gap with fault := gap.fault.or (some start) }
  | _, [], gap => gap
  | .blockComment _, '*' :: '/' :: rest, gap => skipGap .blank rest ((gap.skip '*').skip '/')
  | .blockComment start, c :: rest, gap => skipGap (.blockComment start) rest (gap.skip c)
  | .lineComment, c :: rest, gap =>
      skipGap (if isLineEnd c then .blank else .lineComment) rest (gap.skip c)
  | .blank, '/' :: '/' :: rest, gap => skipGap .lineComment rest ((gap.skip '/').skip '/')
  | .blank, '/' :: '*' :: rest, gap =>
      skipGap (.blockComment gap.offset) rest ((gap.skip '/').skip '*')
  | .blank, '<' :: '!' :: '-' :: '-' :: rest, gap =>
      skipGap .lineComment rest ((((gap.blame.skip '<').skip '!').skip '-').skip '-')
  | .blank, '-' :: '-' :: '>' :: rest, gap =>
      if gap.newline then skipGap .lineComment rest (((gap.blame.skip '-').skip '-').skip '>')
      else gap
  | .blank, c :: rest, gap =>
      if isSpace c || isLineEnd c then skipGap .blank rest (gap.skip c) else gap

/-- The length of a regular expression after its opening slash, with the closing slash; none if a
line or the text ends first. The flag tells that a character class is open. -/
def regexLength : Bool → List Char → Option Nat
  | _, [] => none
  | inClass, '\\' :: c :: rest =>
      if isLineEnd c then none else (regexLength inClass rest).map (· + 2)
  | inClass, c :: rest =>
      if isLineEnd c then none
      else if c = '/' && !inClass then some 1
      else
        let inClass := if c = '[' then true else if c = ']' then false else inClass
        (regexLength inClass rest).map (· + 1)

/-- The flags of a regular expression are distinct letters of a fixed set. -/
def regexFlagsValid (flags : List Char) : Bool :=
  flags.all ("dgimsuvy".toList.contains ·) && flags.eraseDups.length == flags.length

/-- Markup text up to the next tag or embedded expression: its length, and the offset of the first
closing bracket that stands in it. -/
def markupText : Nat → List Char → Nat × Option Nat
  | _, [] => (0, none)
  | offset, c :: rest =>
      if c == '<' || c == '{' then (0, none)
      else
        let (length, stray) := markupText (offset + c.utf8Size) rest
        (length + 1, if c == '>' || c == '}' then some offset else stray)

/-- The length of a markup name, in which hyphens may stand. -/
def markupNameLength (text : List Char) : Nat :=
  (text.takeWhile fun c => continuesWord c || c == '-').length

/-- The length of a markup string after its opening quote, with the closing quote. Markup strings
have no escapes and may span lines. -/
def markupStringLength (quote : Char) : List Char → Option Nat
  | [] => none
  | c :: rest => if c = quote then some 1 else (markupStringLength quote rest).map (· + 1)

/-- The offset of the first escape in template text that has no meaning, if any. The number counts
the characters that belong to an escape already read. -/
def badEscape? : Nat → Nat → List Char → Option Nat
  | _, _, [] => none
  | skip + 1, offset, c :: rest => badEscape? skip (offset + c.utf8Size) rest
  | 0, offset, c :: rest =>
      if c = '\\' then
        match escapeAt rest with
        | .means _ length => badEscape? length (offset + 1) rest
        | _ => some offset
      else badEscape? 0 (offset + c.utf8Size) rest

end FieldUsage.Host
