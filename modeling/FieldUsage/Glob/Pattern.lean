/-!
Patterns for paths. `?` stands for a character, `*` for any characters of one path component, a
bracket for one of some characters, and `**` for any number of whole components.
-/

namespace FieldUsage.Glob

inductive Member where
  | char (c : Char)
  | range (first last : Char)
deriving DecidableEq, Repr

inductive Part where
  | char (c : Char)
  /-- `?` -/
  | anyChar
  /-- `*` -/
  | anyText
  /-- `**` with the separator after it. -/
  | anyComponents
  | oneOf (members : List Member)
  | noneOf (members : List Member)
deriving DecidableEq, Repr

abbrev Pattern := List Part

inductive PatternFault where
  /-- More than two stars in a row. -/
  | tooManyStars
  /-- Two stars beside something else in a component. -/
  | notWholeComponent
  /-- A bracket that is empty or not closed. -/
  | badBracket
deriving DecidableEq, Repr

/-- A fault and the number of the character at which it was found. -/
structure PatternError where
  place : Nat
  fault : PatternFault
deriving DecidableEq, Repr

def PatternError.message (error : PatternError) : String :=
  "Pattern syntax error near position " ++ toString error.place ++ ": " ++
    match error.fault with
    | .tooManyStars => "wildcards are either regular `*` or recursive `**`"
    | .notWholeComponent => "recursive wildcards must form a single path component"
    | .badBracket => "invalid range pattern"

def separator : Char := '/'

/-- The members of a bracket. A hyphen that has no character on either side is itself. -/
def members : List Char → List Member
  | first :: '-' :: last :: rest => .range first last :: members rest
  | c :: rest => .char c :: members rest
  | [] => []

/-- What stands in a bracket and how many characters follow its opening, up to its end. The first
character is a member even if it is a closing bracket. -/
def bracketBody? : List Char → Option (List Char × Nat)
  | first :: rest =>
      let more := rest.takeWhile (· != ']')
      if more.length < rest.length then some (first :: more, more.length + 2) else none
  | [] => none

/-- The bracket after an opening, and how many characters it takes. -/
def bracket? : List Char → Option (Part × Nat)
  | '!' :: rest =>
      (bracketBody? rest).map fun (body, length) => (.noneOf (members body), length + 1)
  | text => (bracketBody? text).map fun (body, length) => (.oneOf (members body), length)

/-- The part that stars stand for, and whether they take the separator behind them. `place` is the
number of the first star, `before` the character in front of it. -/
def stars (place count : Nat) (before : Option Char) (after : List Char) :
    Except PatternError (Part × Bool) :=
  if count = 1 then .ok (.anyText, false)
  else if count > 2 then .error ⟨place + 2, .tooManyStars⟩
  else if before.any (· != separator) then .error ⟨place - 1, .notWholeComponent⟩
  else
    match after with
    | [] => .ok (.anyComponents, false)
    | c :: _ =>
        if c = separator then .ok (.anyComponents, true)
        else .error ⟨place + 2, .notWholeComponent⟩

/-- Puts a part before the ones behind it. Of several `**` in a row all but the first are dropped,
unless they stand at the very beginning. -/
def prepend (opening : Bool) (part : Part) (rest : Pattern) : Pattern :=
  match part, rest with
  | .anyComponents, .anyComponents :: more =>
      if opening then .anyComponents :: .anyComponents :: more else .anyComponents :: more
  | part, rest => part :: rest

/-- Reads the parts of a pattern. `skip` characters belong to a part that has been read already. -/
def parts (place : Nat) (before : Option Char) (skip : Nat) :
    List Char → Except PatternError Pattern
  | [] => .ok []
  | c :: rest =>
      match skip with
      | skip + 1 => parts (place + 1) (some c) skip rest
      | 0 =>
          match c with
          | '?' => return .anyChar :: (← parts (place + 1) (some c) 0 rest)
          | '*' => do
              let more := (rest.takeWhile (· == '*')).length
              let (part, takesSeparator) ← stars place (more + 1) before (rest.drop more)
              let taken := if takesSeparator then more + 1 else more
              let found ← parts (place + 1) (some c) taken rest
              return prepend (place = 0) part found
          | '[' =>
              match bracket? rest with
              | some (part, length) => return part :: (← parts (place + 1) (some c) length rest)
              | none => .error ⟨place, .badBracket⟩
          | c => return .char c :: (← parts (place + 1) (some c) 0 rest)

def Pattern.parse (text : String) : Except PatternError Pattern :=
  parts 0 none 0 text.toList

def Member.holds (c : Char) : Member → Bool
  | .char member => c == member
  | .range first last => first ≤ c && c ≤ last

/-- Whether a part that stands for one character stands for this one. Only a separator itself stands
for a separator. -/
def Part.accepts (c : Char) : Part → Bool
  | .char own => c == own
  | .anyChar => c != separator
  | .oneOf members => c != separator && members.any (·.holds c)
  | .noneOf members => c != separator && !members.any (·.holds c)
  | .anyText | .anyComponents => false

/-- The outcome of an attempt. When the text was used up, no longer attempt can do better. -/
inductive Outcome where
  | matched
  | failed
  | usedUp
deriving DecidableEq, Repr

/-- Another attempt for every longer piece of the text that a part with stars may take. -/
def longer (components : Bool) (next : List Char → Outcome) : List Char → Outcome
  | [] => next []
  | c :: rest =>
      if components && c != separator then longer components next rest
      else if !components && c == separator then .failed
      else
        match next rest with
        | .failed => longer components next rest
        | outcome => outcome

def attempt : Pattern → List Char → Outcome
  | [], text => if text.isEmpty then .matched else .failed
  | part :: parts, text =>
      let spread (components : Bool) :=
        match attempt parts text with
        | .failed => longer components (attempt parts) text
        | outcome => outcome
      match part with
      | .anyText => spread false
      | .anyComponents => spread true
      | part =>
          match text with
          | [] => .usedUp
          | c :: rest => if part.accepts c then attempt parts rest else .failed

def Pattern.accepts (pattern : Pattern) (path : String) : Bool :=
  attempt pattern path.toList = .matched

end FieldUsage.Glob
