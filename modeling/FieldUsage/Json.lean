import FieldUsage.Dict

/-!
Values of the data formats that schemas and configurations are written in. Both formats give the
same kind of value: numbers are kept as the decimal they were written as, and an object keeps its
members in order, repeated keys included, so that it is up to the reader of an object what a
repetition means.
-/

namespace FieldUsage

/-- A number as it was written. Decimals are exact: one that no 64-bit floating point number holds
is kept with all its digits, and is not rounded to the next one that can be held. -/
inductive Json.Number where
  | integer (value : Int)
  /-- A number with a point or an exponent: `mantissa * 10 ^ exponent` with a sign, which zero has
  too. -/
  | decimal (negative : Bool) (mantissa : Nat) (exponent : Int)
deriving DecidableEq, Repr

inductive Json where
  | null
  | boolean (value : Bool)
  | number (value : Json.Number)
  | string (text : String)
  | array (items : List Json)
  | object (members : List (String × Json))
deriving Repr, Inhabited

namespace Json

/-- Whether an integer of a sign and a magnitude fits into 64 bits; only a negative one needs a bit
for its sign. -/
def Number.fits (negative : Bool) (magnitude : Nat) : Bool :=
  if negative then magnitude ≤ 0x8000000000000000 else magnitude < 0x10000000000000000

def Number.ofMagnitude (negative : Bool) (magnitude : Nat) : Number :=
  .integer (if negative then -magnitude else magnitude)

def Number.normalize : Nat → Nat → Int → Nat × Int
  | 0, mantissa, exponent => (mantissa, exponent)
  | bound + 1, mantissa, exponent =>
      if mantissa ≠ 0 ∧ mantissa % 10 = 0 then normalize bound (mantissa / 10) (exponent + 1)
      else (mantissa, exponent)

/-- A decimal in positional form, with at least one digit on either side of the point. -/
def Number.positional (negative : Bool) (mantissa : Nat) (exponent : Int) : String :=
  let digits := toString mantissa
  let (significant, exponent) := Number.normalize digits.length mantissa exponent
  let digits := (toString significant).toList
  let sign := if negative then "-" else ""
  if significant = 0 then sign ++ "0.0"
  else if 0 ≤ exponent then
    sign ++ String.ofList (digits ++ List.replicate exponent.toNat '0') ++ ".0"
  else
    let places := (-exponent).toNat
    let padded := List.replicate (places + 1 - digits.length) '0' ++ digits
    let whole := padded.length - places
    sign ++ String.ofList (padded.take whole ++ ['.'] ++ padded.drop whole)

def Number.text : Number → String
  | .integer value => toString value
  | .decimal negative mantissa exponent => Number.positional negative mantissa exponent

/-- A string between quotes, with the characters escaped that a reader would not see. -/
def quoted (text : String) : String :=
  let escape (c : Char) : List Char :=
    if c = '"' then ['\\', '"']
    else if c = '\\' then ['\\', '\\']
    else if c = '\n' then ['\\', 'n']
    else if c = '\r' then ['\\', 'r']
    else if c = '\t' then ['\\', 't']
    else if c.toNat = 0 then ['\\', '0']
    else if c.toNat < 0x20 ∨ (0x7f ≤ c.toNat ∧ c.toNat < 0xa0) then
      ['\\', 'u', '\x7b'] ++ Nat.toDigits 16 c.toNat ++ ['\x7d']
    else [c]
  "\"" ++ String.ofList (text.toList.flatMap escape) ++ "\""

def kind : Json → String
  | .null => "null"
  | .boolean value => "boolean `" ++ toString value ++ "`"
  | .number (.integer value) => "integer `" ++ toString value ++ "`"
  | .number value => "floating point `" ++ value.text ++ "`"
  | .string text => "string " ++ quoted text
  | .array _ => "sequence"
  | .object _ => "map"

/-- The last value of a key in the members of an object. -/
def lastOf (key : String) (members : List (String × Json)) : Option Json :=
  members.reverse.lookup key

def valuesOf (keys : List String) (members : List (String × Json)) : List Json :=
  (members.filter fun member => keys.contains member.1).map (·.2)

mutual

/-- How deep the arrays and objects of a value are nested. -/
def depth : Json → Nat
  | .array items => itemsDepth items + 1
  | .object members => membersDepth members + 1
  | _ => 0

def itemsDepth : List Json → Nat
  | [] => 0
  | item :: rest => max item.depth (itemsDepth rest)

def membersDepth : List (String × Json) → Nat
  | [] => 0
  | (_, value) :: rest => max value.depth (membersDepth rest)

end

/-- The values of an object with known keys, in the order of the keys. Other keys do not count,
and a known key may be given once. An array stands for the object with its items as the values of
the keys; it may leave out keys from the end, as long as it has the required number. -/
def record? (keys : List String) (required : Nat) : Json → Option (List (Option Json))
  | .object members => keys.mapM fun key =>
      match valuesOf [key] members with
      | [] => some none
      | [value] => some (some value)
      | _ => none
  | .array items =>
      if required ≤ items.length ∧ items.length ≤ keys.length then
        some (keys.mapIdx fun index _ => items[index]?)
      else none
  | _ => none

def respelled (spellings : List (String × String)) : Json → Json
  | .object members =>
      .object (members.map fun (key, value) => ((spellings.lookup key).getD key, value))
  | value => value

/-- Reads a value that may be missing or null. -/
def optional? {α : Type} (read : Json → Option α) : Option Json → Option (Option α)
  | none | some .null => some none
  | some value => (read value).map some

def text? : Json → Option String
  | .string text => some text
  | _ => none

/-- Reads an object with arbitrary keys. -/
def dict? {α : Type} (read : Json → Option α) : Json → Option (Dict α)
  | .object members =>
      (members.mapM fun member => (read member.2).map (member.1, ·)).map Dict.ofList
  | _ => none

def list? {α : Type} (read : Json → Option α) : Json → Option (List α)
  | .array items => items.mapM read
  | _ => none

end Json

end FieldUsage
