import FieldUsage.Text.Hex

/-!
The tokens of GraphQL documents. Commas separate nothing in the grammar, yet a few decisions look at
the very next token without passing over commas, so a token remembers whether one stands before it.
-/

namespace FieldUsage.GraphQL

/-- A token of a document. Of values, only their kind matters. -/
inductive Token where
  | name (text : String)
  /-- One of the marks of one character. -/
  | mark (char : Char)
  /-- Three dots. -/
  | spread
  | number
  | string
deriving DecidableEq, Repr

structure Lexeme where
  token : Token
  /-- A comma stands between the token and the one before it. -/
  afterComma : Bool
deriving DecidableEq, Repr

namespace Token

def startsName (c : Char) : Bool :=
  c.isAlpha || c == '_'

def continuesName (c : Char) : Bool :=
  c.isAlphanum || c == '_'

def marks : List Char :=
  ['{', '}', '!', '$', '&', '(', ')', ':', '[', ']', '=', '@', '|']

/-- Characters that mean nothing anywhere outside strings. -/
def isIgnored (c : Char) : Bool :=
  c == ' ' || c == '\t' || c == '\r' || c == '\n' || c == '\ufeff'

/-- What follows a run of one or more digits. -/
def digits? (text : List Char) : Option (List Char) :=
  match text with
  | c :: _ => if c.isDigit then some (text.dropWhile Char.isDigit) else none
  | [] => none

/-- What follows the digits before the point: a zero stands alone. -/
def integer? (text : List Char) : Option (List Char) :=
  match text with
  | '0' :: rest =>
      match rest with
      | c :: _ => if c.isDigit then none else some rest
      | [] => some rest
  | _ => digits? text

/-- What follows the exponent of a number, which may be missing. -/
def exponent? (text : List Char) : Option (List Char) :=
  match text with
  | c :: rest =>
      if c == 'e' || c == 'E' then
        match rest with
        | '+' :: digits | '-' :: digits => digits? digits
        | digits => digits? digits
      else some text
  | [] => some []

/-- What follows a number. A letter, a digit or a point right behind it spoils it. -/
def number? (text : List Char) : Option (List Char) := do
  let rest := match text with
    | '-' :: rest => rest
    | rest => rest
  let rest ← integer? rest
  let rest ← match rest with
    | '.' :: fraction => digits? fraction
    | rest => some rest
  let rest ← exponent? rest
  match rest with
  | c :: _ => if continuesName c || c == '.' then none else some rest
  | [] => some []

/-- The number of characters of an escape after its backslash. A lead surrogate is followed at once
by an escaped trail surrogate. -/
def escapeLength? (text : List Char) : Option Nat :=
  match text with
  | 'u' :: '{' :: rest => do
      let (value, length) ← Text.bracedHex? rest
      if value ≤ 0x10FFFF && !Text.isSurrogate value then some (length + 3) else none
  | 'u' :: rest => do
      let lead ← Text.hexAt? 4 rest
      if Text.isLeadSurrogate lead then
        match rest.drop 4 with
        | '\\' :: 'u' :: more => do
            let trail ← Text.hexAt? 4 more
            if Text.isTrailSurrogate trail then some 11 else none
        | _ => none
      else if Text.isSurrogate lead then none
      else some 5
  | c :: _ => if ['"', '\\', '/', 'b', 'f', 'n', 'r', 't'].contains c then some 1 else none
  | [] => none

/-- What follows the closing quote of a string. The number counts the characters that belong to an
escape already read. -/
def afterString? : Nat → List Char → Option (List Char)
  | _, [] => none
  | skip + 1, _ :: rest => afterString? skip rest
  | 0, c :: rest =>
      if c = '"' then some rest
      else if c = '\n' ∨ c = '\r' then none
      else if c = '\\' then (escapeLength? rest).bind fun length => afterString? length rest
      else afterString? 0 rest

def afterBlock? : List Char → Option (List Char)
  | [] => none
  | '\\' :: '"' :: '"' :: '"' :: rest => afterBlock? rest
  | '"' :: '"' :: '"' :: rest => some rest
  | _ :: rest => afterBlock? rest

/-- The first token of a text that does not begin with anything ignored, and what follows it. -/
def first? (text : List Char) : Option (Token × List Char) :=
  match text with
  | '"' :: '"' :: '"' :: rest => (afterBlock? rest).map fun rest => (.string, rest)
  | '"' :: rest => (afterString? 0 rest).map fun rest => (.string, rest)
  | '.' :: '.' :: '.' :: rest => some (.spread, rest)
  | c :: rest =>
      if startsName c then
        some (.name (String.ofList (text.takeWhile continuesName)), text.dropWhile continuesName)
      else if marks.contains c then some (.mark c, rest)
      else if c.isDigit || c == '-' then (number? text).map fun rest => (.number, rest)
      else none
  | [] => none

/-- The tokens of a text; none if some of it is no token. The first argument bounds the number of
tokens and gaps, and the flag tells that a comma was passed since the last token. -/
def tokensFrom : Nat → Bool → List Char → Option (List Lexeme)
  | _, _, [] => some []
  | 0, _, _ :: _ => none
  | bound + 1, comma, c :: rest =>
      if isIgnored c then tokensFrom bound comma rest
      else if c = ',' then tokensFrom bound true rest
      else if c = '#' then tokensFrom bound comma (rest.dropWhile fun d => d != '\n' && d != '\r')
      else do
        let (token, rest) ← first? (c :: rest)
        let more ← tokensFrom bound false rest
        return { token, afterComma := comma } :: more

def tokens (text : List Char) : Option (List Lexeme) :=
  tokensFrom text.length false text

end Token

end FieldUsage.GraphQL
