import FieldUsage.Text.Bytes

/-!
A cursor is a place in a text that knows both sides of itself. Reading moves it forward only, and it
carries the fact that its two sides make up the text, so whatever is cut out at a cursor is a piece
of that text.
-/

namespace FieldUsage.Host

/-- A place in `text`: what stands before it, backwards, and what follows. -/
structure Cursor (text : List Char) where
  before : List Char
  rest : List Char
  /-- The number of bytes before the place. -/
  offset : Nat
  whole : before.reverse ++ rest = text
  offset_eq : offset = Text.size before

namespace Cursor

def start (text : List Char) : Cursor text :=
  { before := [], rest := text, offset := 0, whole := rfl, offset_eq := rfl }

/-- One character further; the end stays where it is. -/
def next {text : List Char} (cursor : Cursor text) : Cursor text :=
  match h : cursor.rest with
  | [] => cursor
  | c :: rest =>
      { before := c :: cursor.before
        rest := rest
        offset := c.utf8Size + cursor.offset
        whole := by simpa [h] using cursor.whole
        offset_eq := by simp [cursor.offset_eq] }

def advance {text : List Char} (cursor : Cursor text) : Nat → Cursor text
  | 0 => cursor
  | n + 1 => cursor.next.advance n

/-- Moving over the first character puts it right before the cursor. -/
theorem before_next {text : List Char} (cursor : Cursor text) {c : Char} {rest : List Char}
    (h : cursor.rest = c :: rest) : cursor.next.before = c :: cursor.before := by
  unfold next
  split
  · simp_all
  · simp_all

/-- Moving over the first character leaves the others. -/
theorem rest_next {text : List Char} (cursor : Cursor text) {c : Char} {rest : List Char}
    (h : cursor.rest = c :: rest) : cursor.next.rest = rest := by
  unfold next
  split
  · simp_all
  · simp_all

end Cursor

end FieldUsage.Host
