import FieldUsage.Text.Position
import Mathlib.Algebra.Group.Nat.Defs
import Mathlib.Data.List.DropRight

/-!
Positions are offsets in another form. The line is counted and the column is measured from the last
line feed, in two scans of the text before the offset; together they give the offset back, since a
line begins behind the line feed that ends the one before it. Going on in a text raises the line, or
keeps it and raises the column, so positions are ordered as the offsets are.
-/

namespace FieldUsage.Text

namespace Position

/-- Where a line begins: the first one with the text, any other one behind the line feed that ends
the line before it. -/
def lineStart? (text : List UInt8) : (line : Nat) → Option Nat
  | 0 => some 0
  | line + 1 => ((text.findIdxs (· == lineFeed))[line]?).map (· + 1)

/-- The numbers of a position fit into words of 32 bits: they are kept when they are cut to such a
word, and the number of the line is still one more than the line. -/
structure FitsWords (position : Position) : Prop where
  line : (UInt32.ofNat position.line).toNat = position.line
  character : (UInt32.ofNat position.character).toNat = position.character
  lineNumber : (UInt32.ofNat position.line + 1).toNat = position.lineNumber

/-- The position behind a text. -/
def behind (text : List UInt8) : Position :=
  { line := text.count lineFeed
    character := (text.reverse.takeWhile (· != lineFeed)).length }

theorem ofOffset_eq (text : List UInt8) (offset : Nat) :
    ofOffset text offset = behind (text.take offset) := rfl

/-- A text is what comes before its last line, which is nothing or ends with a line feed, and its
last line. -/
theorem exists_lastLine (text : List UInt8) :
    ∃ front last, text = front ++ last ∧ lineFeed ∉ last ∧
      (front = [] ∨ ∃ earlier, front = earlier ++ [lineFeed]) := by
  refine ⟨text.rdropWhile (· != lineFeed), text.rtakeWhile (· != lineFeed), ?_, ?_, ?_⟩
  · exact List.rdropWhile_append_rtakeWhile.symm
  · intro member
    have other := List.mem_rtakeWhile_imp member
    simp at other
  · by_cases empty : text.rdropWhile (· != lineFeed) = []
    · exact .inl empty
    · have ends := List.rdropWhile_last_not (· != lineFeed) text empty
      have feed : (text.rdropWhile (· != lineFeed)).getLast empty = lineFeed := by simpa using ends
      have joined := List.dropLast_append_getLast empty
      rw [feed] at joined
      exact .inr ⟨_, joined.symm⟩

/-- Line feeds add up. -/
theorem line_append (first second : List UInt8) :
    (behind (first ++ second)).line = (behind first).line + second.count lineFeed :=
  List.count_append

/-- Going on within a line raises the column. -/
theorem character_append (first : List UInt8) {second : List UInt8} (within : lineFeed ∉ second) :
    (behind (first ++ second)).character = (behind first).character + second.length := by
  have whole : ∀ byte ∈ second.reverse, (byte != lineFeed) = true := by
    intro byte member
    have inside : byte ∈ second := List.mem_reverse.mp member
    have other : byte ≠ lineFeed := fun same => within (same ▸ inside)
    simpa using other
  simp only [behind, List.reverse_append]
  rw [List.takeWhile_append_of_pos whole, List.length_append, List.length_reverse]
  omega

/-- Behind the last line feed, bytes are columns. -/
theorem behind_lastLine {front last : List UInt8} (within : lineFeed ∉ last)
    (ended : front = [] ∨ ∃ earlier, front = earlier ++ [lineFeed]) :
    behind (front ++ last) = { line := front.count lineFeed, character := last.length } := by
  have none : last.count lineFeed = 0 := List.count_eq_zero.mpr within
  have start : (behind front).character = 0 := by
    rcases ended with rfl | ⟨earlier, rfl⟩
    · rfl
    · simp [behind]
  have line : (behind (front ++ last)).line = front.count lineFeed := by
    rw [line_append, none]
    rfl
  have character : (behind (front ++ last)).character = last.length := by
    rw [character_append front within, start, Nat.zero_add]
  rw [← line, ← character]

/-- The line behind some lines of a text begins where they end. -/
theorem lineStart?_count {front : List UInt8}
    (ended : front = [] ∨ ∃ earlier, front = earlier ++ [lineFeed]) (rest : List UInt8) :
    lineStart? (front ++ rest) (front.count lineFeed) = some front.length := by
  rcases ended with rfl | ⟨earlier, rfl⟩
  · rfl
  · have lines : (earlier ++ [lineFeed]).count lineFeed = earlier.count lineFeed + 1 := by simp
    have found : (earlier.findIdxs (· == lineFeed)).length = earlier.count lineFeed := by
      simp [List.count_eq_countP]
    rw [lines, lineStart?, List.append_assoc, List.findIdxs_append,
      List.getElem?_append_right (by omega), found, Nat.sub_self]
    simp

/-- The offset is where the line begins, and as many bytes further on as the column says. -/
theorem exists_lineStart (text : List UInt8) (offset : Nat) :
    ∃ start, lineStart? text (ofOffset text offset).line = some start ∧
      start + (ofOffset text offset).character = min offset text.length := by
  obtain ⟨front, last, split, within, ended⟩ := exists_lastLine (text.take offset)
  have whole : text = front ++ (last ++ text.drop offset) := by
    rw [← List.append_assoc, ← split, List.take_append_drop]
  have length : front.length + last.length = min offset text.length := by
    rw [← List.length_append, ← split, List.length_take]
  have position : ofOffset text offset =
      { line := front.count lineFeed, character := last.length } := by
    rw [ofOffset_eq, split, behind_lastLine within ended]
  refine ⟨front.length, ?_, ?_⟩
  · rw [position]
    nth_rewrite 1 [whole]
    exact lineStart?_count ended _
  · rw [position]
    exact length

theorem ofOffset_min (text : List UInt8) (offset : Nat) :
    ofOffset text offset = ofOffset text (min offset text.length) := by
  have same : text.take offset = text.take (min offset text.length) := by
    rw [List.take_eq_take_iff]
    omega
  rw [ofOffset_eq, same, ofOffset_eq]

theorem lt_iff {first second : Position} : first.lt second = true ↔
    first.line < second.line ∨
      first.line = second.line ∧ first.character < second.character := by
  simp [lt]

theorem le_eq_not_lt (first second : Position) : first.le second = !second.lt first := by
  rw [Bool.eq_iff_iff, Bool.not_eq_true', ← Bool.not_eq_true, lt_iff]
  simp only [le, Bool.or_eq_true, Bool.and_eq_true, decide_eq_true_eq, beq_iff_eq]
  omega

/-- Going on in a text leads to a later position. -/
theorem behind_lt_append (first : List UInt8) {second : List UInt8} (further : second ≠ []) :
    (behind first).lt (behind (first ++ second)) = true := by
  rw [lt_iff, line_append]
  by_cases feed : lineFeed ∈ second
  · have raised : 0 < second.count lineFeed := List.count_pos_iff.mpr feed
    omega
  · have same : second.count lineFeed = 0 := List.count_eq_zero.mpr feed
    have raised : 0 < second.length := List.length_pos_iff.mpr further
    rw [character_append first feed]
    omega

theorem ofOffset_lt_of_lt {text : List UInt8} {first second : Nat} (below : first < second)
    (inside : second ≤ text.length) :
    (ofOffset text first).lt (ofOffset text second) = true := by
  have split : text.take second = text.take first ++ (text.take second).drop first := by
    nth_rewrite 1 [← List.take_append_drop first (text.take second)]
    rw [List.take_take, Nat.min_eq_left (by omega)]
  have further : (text.take second).drop first ≠ [] := by
    rw [← List.length_pos_iff, List.length_drop, List.length_take]
    omega
  rw [ofOffset_eq, ofOffset_eq, split]
  exact behind_lt_append _ further

/-- Offsets and positions are in the same order, up to the end of the text. -/
theorem ofOffset_lt_iff (text : List UInt8) (first second : Nat) :
    (ofOffset text first).lt (ofOffset text second) = true ↔
      min first text.length < min second text.length := by
  rw [ofOffset_min text first, ofOffset_min text second]
  rcases Nat.lt_trichotomy (min first text.length) (min second text.length)
    with below | same | above
  · have later := ofOffset_lt_of_lt below (Nat.min_le_right second text.length)
    simp [later, below]
  · rw [same, lt_iff]
    omega
  · have earlier := ofOffset_lt_of_lt above (Nat.min_le_right first text.length)
    rw [lt_iff] at earlier ⊢
    omega

/-- Two offsets have one position only if they are the same, up to the end of the text. -/
theorem ofOffset_eq_iff (text : List UInt8) (first second : Nat) :
    ofOffset text first = ofOffset text second ↔
      min first text.length = min second text.length := by
  constructor
  · intro same
    have below := ofOffset_lt_iff text first second
    have above := ofOffset_lt_iff text second first
    rw [same, lt_iff] at below above
    omega
  · intro same
    rw [ofOffset_min text first, ofOffset_min text second, same]

/-- In short texts no number is cut. -/
theorem ofOffset_fitsWords {text : List UInt8} (short : text.length < 2 ^ 32 - 1) (offset : Nat) :
    (ofOffset text offset).FitsWords := by
  obtain ⟨start, -, whole⟩ := exists_lineStart text offset
  have line : (ofOffset text offset).line ≤ text.length :=
    List.count_le_length.trans (List.length_take_le' offset text)
  have character : (ofOffset text offset).character ≤ text.length := by omega
  have one : (1 : UInt32).toNat = 1 := rfl
  constructor
  · rw [UInt32.toNat_ofNat']
    omega
  · rw [UInt32.toNat_ofNat']
    omega
  · rw [UInt32.toNat_add, UInt32.toNat_ofNat', one, lineNumber]
    omega

end Position

open Position (ofOffset lineStart?)

/-- Positions are the offsets in their order. In a text of fewer than `2 ^ 32 - 1` bytes they fit
into words of 32 bits, the offset is what the column adds to the start of the line, and positions
are compared as the offsets are; so a range holds the positions of the offsets between its ends. -/
theorem Position.ofOffset_embeds {text : List UInt8} (short : text.length < 2 ^ 32 - 1) :
    (∀ offset, (ofOffset text offset).FitsWords) ∧
    (∀ offset, ∃ start, lineStart? text (ofOffset text offset).line = some start ∧
      start + (ofOffset text offset).character = min offset text.length) ∧
    (∀ first second, (ofOffset text first).lt (ofOffset text second) = true ↔
      min first text.length < min second text.length) ∧
    (∀ first second offset,
      (Range.ofOffsets text first second).contains (ofOffset text offset) = true ↔
        min first text.length ≤ min offset text.length ∧
          min offset text.length < min second text.length) ∧
    ∀ first second, (Range.ofOffsets text first second).isEmpty = true ↔
      min first text.length = min second text.length := by
  refine ⟨ofOffset_fitsWords short, exists_lineStart text, ofOffset_lt_iff text, ?_, ?_⟩
  · intro first second offset
    simp only [Range.contains, Range.ofOffsets, le_eq_not_lt, Bool.and_eq_true, Bool.not_eq_true',
      ← Bool.not_eq_true, ofOffset_lt_iff, Nat.not_lt]
  · intro first second
    simp only [Range.isEmpty, Range.ofOffsets, beq_iff_eq, ofOffset_eq_iff]

/-- The offset behind the first of two line feeds is the start of an empty line. -/
theorem Position.ofOffset_embeds_emptyLine :
    [97, lineFeed, lineFeed, 98].length < 2 ^ 32 - 1 ∧
      (ofOffset [97, lineFeed, lineFeed, 98] 2).FitsWords ∧
      (Range.ofOffsets [97, lineFeed, lineFeed, 98] 1 9).contains
        (ofOffset [97, lineFeed, lineFeed, 98] 2) = true := by
  have short : [97, lineFeed, lineFeed, 98].length < 2 ^ 32 - 1 := by decide
  obtain ⟨fits, -, -, contains, -⟩ := ofOffset_embeds short
  exact ⟨short, fits 2, (contains 1 9 2).mpr (by decide)⟩

end FieldUsage.Text
