import FieldUsage.Text.Bytes

/-!
Where something stands in a text. A position counts lines by the line feeds before it and columns in
bytes from the start of its line; both count from zero. Positions are ordered by line and then by
column, which is the order of the offsets they come from.
-/

namespace FieldUsage.Text

/-- A line and a byte column, both counted from zero. -/
structure Position where
  line : Nat
  character : Nat
deriving DecidableEq, Repr

namespace Position

/-- The byte that ends a line. Carriage returns and other separators do not. -/
def lineFeed : UInt8 := 10

/-- The position of a byte offset. An offset past the end stands for the end. -/
def ofOffset (text : List UInt8) (offset : Nat) : Position :=
  let before := text.take offset
  { line := before.count lineFeed
    character := (before.reverse.takeWhile (· != lineFeed)).length }

/-- The line number as readers count it, from one. -/
def lineNumber (position : Position) : Nat :=
  position.line + 1

def le (first second : Position) : Bool :=
  first.line < second.line || (first.line == second.line && first.character ≤ second.character)

def lt (first second : Position) : Bool :=
  first.line < second.line || (first.line == second.line && first.character < second.character)

/-- Positions in ascending order; repeated ones stay. -/
def sort (positions : List Position) : List Position :=
  positions.mergeSort le

end Position

/-- A stretch of text from its start up to, and not including, its end. -/
structure Range where
  start : Position
  stop : Position
deriving DecidableEq, Repr

namespace Range

/-- The range between two byte offsets of a text. -/
def ofOffsets (text : List UInt8) (start stop : Nat) : Range :=
  { start := Position.ofOffset text start, stop := Position.ofOffset text stop }

/-- A range is empty when its two ends coincide. A reversed range is not empty, yet holds nothing.
-/
def isEmpty (range : Range) : Bool :=
  range.start == range.stop

def contains (range : Range) (position : Position) : Bool :=
  range.start.le position && position.lt range.stop

end Range

end FieldUsage.Text
