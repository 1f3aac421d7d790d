/-!
Texts are measured in bytes of their UTF-8 form. Everything that counts an offset, a length or a
column counts these bytes, so the measure is defined once, over lists of characters, where it can be
reasoned about by induction. Texts are cut at characters and trimmed of the blanks at their ends.
-/

namespace FieldUsage.Text

def bytes (text : List Char) : List UInt8 :=
  text.flatMap String.utf8EncodeChar

def size : List Char → Nat
  | [] => 0
  | c :: rest => c.utf8Size + size rest

@[simp] theorem size_nil : size [] = 0 := rfl

@[simp] theorem size_cons (c : Char) (rest : List Char) :
    size (c :: rest) = c.utf8Size + size rest := rfl

@[simp] theorem size_append (first second : List Char) :
    size (first ++ second) = size first + size second := by
  induction first with
  | nil => simp
  | cons c rest ih => simp [ih, Nat.add_assoc]

@[simp] theorem size_reverse (text : List Char) : size text.reverse = size text := by
  induction text with
  | nil => rfl
  | cons c rest ih => simp [ih, Nat.add_comm]

/-- A text takes as many bytes as its size says. -/
theorem length_bytes (text : List Char) : (bytes text).length = size text := by
  induction text with
  | nil => rfl
  | cons c rest ih => simp_all [bytes]

/-- Cutting a list at every occurrence of a separator; the separators are dropped. -/
def splitAtEvery {α : Type} [DecidableEq α] (separator : α) : List α → List (List α)
  | [] => [[]]
  | c :: rest =>
      if c = separator then [] :: splitAtEvery separator rest
      else
        match splitAtEvery separator rest with
        | [] => [[c]]
        | piece :: pieces => (c :: piece) :: pieces

/-- The text before the first separator and the text after it, if there is one. -/
def splitAtFirst (separator : Char) : List Char → Option (List Char × List Char)
  | [] => none
  | c :: rest =>
      if c = separator then some ([], rest)
      else (splitAtFirst separator rest).map fun (before, after) => (c :: before, after)

def splitAtLast (separator : Char) (text : List Char) : Option (List Char × List Char) :=
  (splitAtFirst separator text.reverse).map fun (after, before) => (before.reverse, after.reverse)

/-- The characters of the Unicode property `White_Space`. -/
def isBlank (c : Char) : Bool :=
  let n := c.toNat
  (0x09 ≤ n && n ≤ 0x0D) || n == 0x20 || n == 0x85 || n == 0xA0 || n == 0x1680 ||
    (0x2000 ≤ n && n ≤ 0x200A) || n == 0x2028 || n == 0x2029 || n == 0x202F || n == 0x205F ||
    n == 0x3000

def trimStart (text : List Char) : List Char :=
  text.dropWhile isBlank

def trim (text : List Char) : List Char :=
  (trimStart (trimStart text).reverse).reverse

def trimmed (text : String) : String :=
  String.ofList (trim text.toList)

def startsWith : List Char → List Char → Bool
  | [], _ => true
  | _ :: _, [] => false
  | c :: pattern, d :: text => c == d && startsWith pattern text

/-- Whether a text contains another one somewhere. The empty text is everywhere. -/
def occursIn (pattern : List Char) : List Char → Bool
  | [] => pattern.isEmpty
  | c :: rest => startsWith pattern (c :: rest) || occursIn pattern rest

theorem startsWith_iff (pattern text : List Char) :
    startsWith pattern text = true ↔ pattern <+: text := by
  induction pattern generalizing text with
  | nil => simp [startsWith]
  | cons c pattern ih =>
      cases text with
      | nil => simp [startsWith]
      | cons d text => simp [startsWith, ih, List.cons_prefix_cons]

theorem occursIn_iff (pattern text : List Char) :
    occursIn pattern text = true ↔ pattern <:+: text := by
  induction text with
  | nil => simp [occursIn]
  | cons c rest ih => rw [occursIn, Bool.or_eq_true, startsWith_iff, ih, List.infix_cons_iff]

/-- The order of texts by their bytes, which is also the order by code points. -/
def precedes (first second : String) : Bool :=
  decide (first < second)

end FieldUsage.Text
