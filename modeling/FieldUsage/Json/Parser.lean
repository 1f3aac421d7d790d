import FieldUsage.Json
import FieldUsage.Text.Hex

/-!
Reading values in JSON notation. Nothing is forgiven: a text with anything but blanks around one
value, with half a surrogate pair in a string or with a number beyond the range of a double is no
value. The recursion is on the depth of nesting that is left.
-/

namespace FieldUsage.Json.Parser

abbrev Reader := StateT (List Char) Option

variable {α : Type}

def nestingLimit : Nat := 127

def peek : Reader (Option Char) :=
  return (← get).head?

def next : Reader Char := do
  match ← get with
  | c :: rest => set rest; return c
  | [] => failure

def eat (char : Char) : Reader Bool := do
  if (← peek) == some char then
    let _ ← next
    return true
  else return false

def expect (text : String) : Reader Unit :=
  text.toList.forM fun char => do unless ← eat char do failure

def isSpace (c : Char) : Bool :=
  c == ' ' || c == '\n' || c == '\t' || c == '\r'

def takeAll (member : Char → Bool) : Reader (List Char) := do
  let text ← get
  set (text.dropWhile member)
  return text.takeWhile member

def spaces : Reader Unit :=
  modify (List.dropWhile isSpace)

def fourDigits : Reader Nat := do
  let text ← get
  match Text.hexAt? 4 text with
  | some value => set (text.drop 4); return value
  | none => failure

/-- What stands behind `\u`: a character, or a pair of surrogates for one. -/
def escapedCode : Reader Char := do
  let code ← fourDigits
  if Text.isLeadSurrogate code then
    expect "\\u"
    let trail ← fourDigits
    if Text.isTrailSurrogate trail then return Char.ofNat (Text.pairedCode code trail)
    else failure
  else if Text.isSurrogate code then failure
  else return Char.ofNat code

def escaped : Reader Char := do
  match ← next with
  | '"' => return '"'
  | '\\' => return '\\'
  | '/' => return '/'
  | 'b' => return '\x08'
  | 'f' => return '\x0c'
  | 'n' => return '\n'
  | 'r' => return '\r'
  | 't' => return '\t'
  | 'u' => escapedCode
  | _ => failure

def character : Reader Char := do
  match ← next with
  | '\\' => escaped
  | c => if c.toNat < 0x20 then failure else return c

def stringRest : (bound : Nat) → Reader (List Char)
  | 0 => failure
  | bound + 1 => do
      if ← eat '"' then return []
      let first ← character
      return first :: (← stringRest bound)

def string (bound : Nat) : Reader String := do
  expect "\""
  return String.ofList (← stringRest bound)

def decimalValue (digits : List Char) : Nat :=
  digits.foldl (fun value c => value * 10 + (c.toNat - '0'.toNat)) 0

def digits : Reader (List Char) := do
  let found ← takeAll Char.isDigit
  if found.isEmpty then failure
  return found

def exponent? : Reader (Option Int) := do
  if (← eat 'e') || (← eat 'E') then
    let negative ← eat '-'
    unless negative do let _ ← eat '+'
    let size : Int := decimalValue (← digits)
    return some (if negative then -size else size)
  else return none

def fraction? : Reader (Option (List Char)) := do
  if ← eat '.' then return some (← digits) else return none

def whole : Reader (List Char) := do
  let found ← digits
  if found.length > 1 ∧ found.head? = some '0' then failure
  return found

/-- The least magnitude that is beyond the range of a double. -/
def overflow : Nat := (Nat.pow 2 54 - 1) * Nat.pow 2 970

/-- Whether `mantissa * 10 ^ exponent` is in the range of a double. A number of very many or very
few places before the point is not multiplied out. -/
def inRange (mantissa : Nat) (exponent : Int) : Bool :=
  let places : Int := (Nat.toDigits 10 mantissa).length + exponent
  if mantissa = 0 ∨ places < 0 then true
  else if 400 < places then false
  else if exponent < 0 then mantissa / Nat.pow 10 exponent.natAbs < overflow
  else mantissa * Nat.pow 10 exponent.natAbs < overflow

def decimal (negative : Bool) (mantissa : Nat) (exponent : Int) : Option Number :=
  if inRange mantissa exponent then
    let exponent := if mantissa = 0 then 0 else exponent
    some (.decimal negative mantissa exponent)
  else none

/-- An integer, which is a double as soon as it does not fit into 64 bits. A zero with a sign is a
double too. -/
def integer (negative : Bool) (magnitude : Nat) : Option Number :=
  if Number.fits negative magnitude && !(negative && magnitude == 0) then
    some (.ofMagnitude negative magnitude)
  else decimal negative magnitude 0

def number : Reader Number := do
  let negative ← eat '-'
  let whole ← whole
  let fraction ← fraction?
  let exponent ← exponent?
  match fraction, exponent with
  | none, none => integer negative (decimalValue whole)
  | _, _ =>
      let places := fraction.getD []
      decimal negative (decimalValue (whole ++ places)) (exponent.getD 0 - places.length)

/-- Items with commas between them, up to a closing mark. -/
def separated (item : Reader α) (close : Char) : (bound : Nat) → Reader (List α)
  | 0 => failure
  | bound + 1 => do
      spaces
      let first ← item
      spaces
      if ← eat ',' then return first :: (← separated item close bound)
      else if ← eat close then return [first]
      else failure

/-- Items between marks, of which there may be none. -/
def enclosed (item : Reader α) (close : Char) (bound : Nat) : Reader (List α) := do
  let _ ← next
  spaces
  if ← eat close then return [] else separated item close bound

def member (inner : Reader Json) (bound : Nat) : Reader (String × Json) := do
  let key ← string bound
  spaces
  expect ":"
  spaces
  return (key, ← inner)

/-- A value, given how to read the values inside it. -/
def valueWith (inner : Reader Json) (bound : Nat) : Reader Json := do
  match ← peek with
  | some '"' => return .string (← string bound)
  | some '[' => return .array (← enclosed inner ']' bound)
  | some '{' => return .object (← enclosed (member inner bound) '}' bound)
  | some 't' => expect "true"; return .boolean true
  | some 'f' => expect "false"; return .boolean false
  | some 'n' => expect "null"; return .null
  | _ => return .number (← number)

/-- A value that nests no deeper than a limit. Every item and character of it takes a character of
the text, so their number is bounded. -/
def value : (depth : Nat) → (bound : Nat) → Reader Json
  | 0, bound => do
      if (← peek) == some '[' || (← peek) == some '{' then failure
      valueWith failure bound
  | depth + 1, bound => valueWith (value depth bound) bound

end Parser

/-- The value that a text is written as. -/
def parse? (text : List Char) : Option Json := do
  let reader : Parser.Reader Json := do
    Parser.spaces
    let found ← Parser.value Parser.nestingLimit (text.length + 1)
    Parser.spaces
    return found
  match ← reader.run text with
  | (found, []) => return found
  | _ => none

end FieldUsage.Json
