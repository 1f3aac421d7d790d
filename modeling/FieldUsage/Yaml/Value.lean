import FieldUsage.Json.Parser
import FieldUsage.Yaml.Node

/-!
Documents as values. A plain scalar that looks like nothing, a truth value or a number is one; every
other scalar is a text. The keys of a mapping are texts and may not repeat. A mapping can take over
the entries of others under the key `<<`, where it does not have them itself.
-/

namespace FieldUsage.Yaml

def lowerCase (text : List Char) : List Char := text.map Char.toLower

def truthValue? (text : List Char) : Option Bool :=
  match String.ofList (lowerCase text) with
  | "true" | "yes" | "y" | "on" => some true
  | "false" | "no" | "n" | "off" => some false
  | _ => none

def baseAndDigits : List Char → Nat × List Char
  | '0' :: 'x' :: digits | '0' :: 'X' :: digits => (16, digits)
  | '0' :: 'o' :: digits | '0' :: 'O' :: digits => (8, digits)
  | '0' :: 'b' :: digits | '0' :: 'B' :: digits => (2, digits)
  | digits => (10, digits)

/-- The number of digits in a base, with underscores between them. -/
def digitsValue? (base : Nat) (text : List Char) : Option Nat :=
  let digits := text.filter (· != '_')
  if digits.isEmpty then none
  else
    digits.foldlM
      (fun value c => do
        let digit ← Text.hexDigit? c
        if digit < base then some (value * base + digit) else none)
      0

def signed : List Char → Bool × List Char
  | '-' :: text => (true, text)
  | '+' :: text => (false, text)
  | text => (false, text)

/-- The integer of a text, if it fits into 64 bits. -/
def integer? (text : List Char) : Option Json.Number := do
  let (negative, text) := signed text
  let (base, digits) := baseAndDigits text
  let magnitude ← digitsValue? base digits
  if Json.Number.fits negative magnitude then some (.ofMagnitude negative magnitude) else none

def exponent? : List Char → Option Int
  | [] => some 0
  | c :: text =>
      if c == 'e' || c == 'E' then
        let (negative, digits) := signed text
        if digits.isEmpty || !digits.all Char.isDigit then none
        else
          let size : Int := Json.Parser.decimalValue digits
          some (if negative then -size else size)
      else none

def isNotFinite (text : List Char) : Bool :=
  [".inf", ".nan", "inf", "infinity", "nan"].contains (String.ofList (lowerCase text))

/-- The value of a text with a point or an exponent. A number that is not finite has no value. -/
def decimal? (text : List Char) : Option Json := do
  let (negative, text) := signed text
  if isNotFinite text then return .null
  let whole := text.takeWhile Char.isDigit
  let text := text.drop whole.length
  let (places, text) := match text with
    | '.' :: text => (text.takeWhile Char.isDigit, text.dropWhile Char.isDigit)
    | text => ([], text)
  if whole.isEmpty && places.isEmpty then none
  let exponent ← exponent? text
  let mantissa := Json.Parser.decimalValue (whole ++ places)
  match Json.Parser.decimal negative mantissa (exponent - places.length) with
  | some number => return .number number
  | none => return .null

def plainValue (text : String) : Json :=
  let characters := text.toList
  if characters.isEmpty || text == "~" || lowerCase characters == "null".toList then .null
  else
    match truthValue? characters with
    | some truth => .boolean truth
    | none =>
        match integer? characters with
        | some number => .number number
        | none => (decimal? characters).getD (.string text)

/-- The value of a scalar. A tag can make a text of one that looks like something else. -/
def scalarValue (tag : Option String) (plain : Bool) (text : String) : Json :=
  if tag == some "tag:yaml.org,2002:null" then .null
  else if !plain || tag == some "tag:yaml.org,2002:str" || tag == some "!" then .string text
  else plainValue text

/-- The key under which a mapping takes over entries. -/
def mergeKey : String := "<<"

/-- The entries that a value brings into a mapping. -/
def mergedMembers? : Json → Option (List (String × Json))
  | .object members => some members
  | .array items =>
      let membersOf (item : Json) := match item with
        | .object members => some members
        | _ => none
      (items.mapM membersOf).map List.flatten
  | .null => some []
  | _ => none

/-- Adds entries whose keys are not there yet. -/
def addMissing (members more : List (String × Json)) : List (String × Json) :=
  more.foldl
    (fun members member =>
      if members.any (·.1 == member.1) then members else members ++ [member])
    members

mutual

/-- The value of a node, unless a key repeats or is no text. -/
def Node.toJson? : Node → Option Json
  | .scalar tag plain text => some (scalarValue tag plain text)
  | .sequence items => (itemsToJson? items).map .array
  | .mapping entries => do
      let (own, merged) ← entriesToJson? entries
      if (own.map (·.1)).eraseDups.length < own.length then none
      else some (.object (addMissing own merged))

def itemsToJson? : List Node → Option (List Json)
  | [] => some []
  | first :: rest => do
      let first ← first.toJson?
      let rest ← itemsToJson? rest
      some (first :: rest)

/-- The values of entries: those of the mapping itself, and those it takes over. -/
def entriesToJson? :
    List (Node × Node) → Option (List (String × Json) × List (String × Json))
  | [] => some ([], [])
  | (key, value) :: rest => do
      let value ← value.toJson?
      let (own, merged) ← entriesToJson? rest
      match key with
      | .scalar tag plain text =>
          if plain && tag.isNone && text == mergeKey then
            let more ← mergedMembers? value
            some (own, more ++ merged)
          else
            match scalarValue tag plain text with
            | .string name => some ((name, value) :: own, merged)
            | _ => none
      | _ => none

end

def parse? (text : List Char) : Option Json := do
  (← Node.ofText? text).toJson?

end FieldUsage.Yaml
