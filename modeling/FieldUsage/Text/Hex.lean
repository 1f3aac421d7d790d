/-!
Hexadecimal digits, as escapes in several text formats use them.
-/

namespace FieldUsage.Text

def hexDigit? (c : Char) : Option Nat :=
  if c.isDigit then some (c.toNat - '0'.toNat)
  else if 'a' ≤ c ∧ c ≤ 'f' then some (c.toNat - 'a'.toNat + 10)
  else if 'A' ≤ c ∧ c ≤ 'F' then some (c.toNat - 'A'.toNat + 10)
  else none

/-- The value of a text of hexadecimal digits, read from the left. -/
def hexValue? (digits : List Char) : Option Nat :=
  digits.foldlM (fun value c => (hexDigit? c).map (value * 16 + ·)) 0

/-- The value of exactly so many hexadecimal digits at the beginning of a text. -/
def hexAt? (count : Nat) (text : List Char) : Option Nat :=
  if (text.take count).length = count then hexValue? (text.take count) else none

/-- The value of the hexadecimal digits before a closing brace, at least one, and how many there
are. -/
def bracedHex? (text : List Char) : Option (Nat × Nat) :=
  let digits := text.takeWhile (· != '}')
  if digits.isEmpty || digits.length = text.length then none
  else (hexValue? digits).map fun value => (value, digits.length)

/-- Digits that are read at the beginning of a text can be cut off it. -/
theorem hexAt?_take {count value : Nat} {text : List Char} (h : hexAt? count text = some value) :
    count ≤ text.length ∧ hexAt? count (text.take count) = some value := by
  unfold hexAt? at h ⊢
  rw [List.take_take, Nat.min_self]
  split at h
  case isTrue whole =>
    rw [List.length_take] at whole
    exact ⟨by omega, by simpa [whole] using h⟩
  case isFalse => cases h

/-- Digits before a brace can be cut off their text together with the brace. -/
theorem bracedHex?_take {value length : Nat} {text : List Char}
    (h : bracedHex? text = some (value, length)) :
    length + 1 ≤ text.length ∧ bracedHex? (text.take (length + 1)) = some (value, length) := by
  have whole := List.takeWhile_append_dropWhile (p := (· != '}')) (l := text)
  have inside : ∀ c ∈ text.takeWhile (· != '}'), (c != '}') = true :=
    List.all_eq_true.1 List.all_takeWhile
  have outside := List.head?_dropWhile_not (· != '}') text
  unfold bracedHex? at h
  generalize text.takeWhile (· != '}') = digits at h whole inside
  generalize text.dropWhile (· != '}') = rest at whole outside
  subst whole
  simp only [List.length_append] at h
  split at h
  case isTrue => cases h
  case isFalse closed =>
    obtain ⟨read, found, same⟩ := Option.map_eq_some_iff.1 h
    obtain ⟨rfl, rfl⟩ := by simpa using same
    cases rest with
    | nil => simp at closed
    | cons c more =>
        obtain rfl : c = '}' := by simpa using outside
        have cut : (digits ++ '}' :: more).take (digits.length + 1) = digits ++ ['}'] := by
          simp [List.take_append, List.take_of_length_le]
        have again : (digits ++ ['}']).takeWhile (· != '}') = digits := by
          rw [List.takeWhile_append_of_pos inside]
          simp
        refine ⟨by simp, ?_⟩
        rw [cut, bracedHex?, again]
        simp_all

def isSurrogate (code : Nat) : Bool := 0xD800 ≤ code && code ≤ 0xDFFF

def isLeadSurrogate (code : Nat) : Bool := 0xD800 ≤ code && code ≤ 0xDBFF

def isTrailSurrogate (code : Nat) : Bool := 0xDC00 ≤ code && code ≤ 0xDFFF

/-- The character that a pair of surrogates stands for. -/
def pairedCode (lead trail : Nat) : Nat :=
  0x10000 + (lead - 0xD800) * 0x400 + (trail - 0xDC00)

end FieldUsage.Text
