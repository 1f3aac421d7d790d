/-!
How much two words are alike, to suggest a name for one that is not known. The choice among
candidates is the same for every measure: of those that are alike enough, the one most alike, and
the last one if several are. The measure in use counts common characters at nearby places and
favours a common beginning.
-/

namespace FieldUsage.Text

/-- A measure of likeness, and from which score on words are alike enough. -/
structure Similarity where
  Score : Type
  score : String → String → Score
  le : Score → Score → Bool
  threshold : Score

namespace Similarity

/-- The candidate to keep after one more has been looked at. -/
def better (measure : Similarity) (best : Option (String × measure.Score))
    (candidate : String × measure.Score) : Option (String × measure.Score) :=
  match best with
  | none => some candidate
  | some kept => if measure.le kept.2 candidate.2 then some candidate else some kept

/-- The candidate most like a name, if one is alike enough. Nothing is like the empty name. -/
def closest? (measure : Similarity) (name : String) (candidates : List String) : Option String :=
  if name = "" then none
  else
    let scored := candidates.map fun candidate => (candidate, measure.score name candidate)
    let near := scored.filter fun candidate => measure.le measure.threshold candidate.2
    (near.foldl measure.better none).map (·.1)

/-- Marks the first free place with a character, among the places from `low` on and before `high`.
The last argument but one is the number of the first place. -/
def claim? (char : Char) (low high : Nat) :
    (place : Nat) → List (Char × Bool) → Option (List (Char × Bool))
  | _, [] => none
  | place, (c, taken) :: rest =>
      if place < high ∧ low ≤ place ∧ c = char ∧ !taken then some ((c, true) :: rest)
      else (claim? char low high (place + 1) rest).map ((c, taken) :: ·)

/-- Claims a place in a word for each character of another one, no further away than a range. Gives
the characters that found a place, and the word with its marks. -/
def claims (range : Nat) :
    (place : Nat) → List Char → List (Char × Bool) → List Char × List (Char × Bool)
  | _, [], marked => ([], marked)
  | place, c :: rest, marked =>
      match claim? c (place - range) (place + range + 1) 0 marked with
      | some marked =>
          let (found, marked) := claims range (place + 1) rest marked
          (c :: found, marked)
      | none => claims range (place + 1) rest marked

/-- The share of common characters in two words, less where they are in a different order. -/
def common (first second : List Char) : Float :=
  if first.isEmpty && second.isEmpty then 1.0
  else if first.isEmpty || second.isEmpty then 0.0
  else
    let range := max first.length second.length / 2 - 1
    let (found, marked) := claims range 0 first (second.map (·, false))
    let places := (marked.filter (·.2)).map (·.1)
    let moved := ((found.zip places).filter fun pair => pair.1 != pair.2).length / 2
    if found.isEmpty then 0.0
    else
      let count := found.length.toFloat
      ((count / first.length.toFloat + count / second.length.toFloat) +
        (found.length - moved).toFloat / count) / 3.0

def commonStart : List Char → List Char → Nat
  | c :: first, d :: second => if c = d then commonStart first second + 1 else 0
  | _, _ => 0

/-- The share of common characters, raised for words that begin alike. -/
def likeness (first second : List Char) : Float :=
  let share := common first second
  if share > 0.7 then
    share + 0.1 * (min 4 (commonStart first second)).toFloat * (1.0 - share)
  else share

def standard : Similarity where
  Score := Float
  score first second := likeness first.toList second.toList
  le first second := first ≤ second
  threshold := 0.8

end Similarity

end FieldUsage.Text
