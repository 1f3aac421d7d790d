import FieldUsage.Host.Word

/-!
Tagged templates found in host text. A template that is kept knows where its text is: the characters
before the first hole, or before the closing backquote, are a piece of the source right after a
backquote. Its tag is a word of the source.
-/

namespace FieldUsage.Host

/-- The text of a template up to the first hole or the closing backquote, and whether a hole ends
it; none if the text ends before. A backslash keeps the character after it from ending anything. -/
def segment? : List Char → Option (List Char × Bool)
  | [] => none
  | '`' :: _ => some ([], false)
  | '$' :: '{' :: _ => some ([], true)
  | '\\' :: c :: rest => (segment? rest).map fun (raw, hole) => ('\\' :: c :: raw, hole)
  | c :: rest => (segment? rest).map fun (raw, hole) => (c :: raw, hole)

def segmentEnd (hole : Bool) : List Char :=
  if hole then ['$', '{'] else ['`']

/-- A segment is cut off the text right before what ends it. -/
theorem eq_append_of_segment? {text raw : List Char} {hole : Bool}
    (h : segment? text = some (raw, hole)) : ∃ more, text = raw ++ segmentEnd hole ++ more := by
  fun_induction segment? text generalizing raw hole with
  | case1 => simp at h
  | case2 rest =>
      obtain ⟨rfl, rfl⟩ := by simpa using h
      exact ⟨rest, by simp [segmentEnd]⟩
  | case3 rest =>
      obtain ⟨rfl, rfl⟩ := by simpa using h
      exact ⟨rest, by simp [segmentEnd]⟩
  | case4 c rest ih =>
      obtain ⟨⟨inner, hole'⟩, found, same⟩ := Option.map_eq_some_iff.1 h
      obtain ⟨rfl, rfl⟩ := by simpa using same
      obtain ⟨more, rfl⟩ := ih found
      exact ⟨more, by simp⟩
  | case5 c rest _ _ _ ih =>
      obtain ⟨⟨inner, hole'⟩, found, same⟩ := Option.map_eq_some_iff.1 h
      obtain ⟨rfl, rfl⟩ := by simpa using same
      obtain ⟨more, rfl⟩ := ih found
      exact ⟨more, by simp⟩

/-- A template whose tag is a bare identifier. -/
structure Template (text : List Char) where
  /-- The tag, with its escapes decoded. -/
  tag : Word text
  /-- Where the first segment begins. -/
  start : Cursor text
  /-- The first segment as written. -/
  raw : List Char
  /-- Whether there are holes. -/
  interpolated : Bool
  opened : start.before.head? = some '`'
  closed : ∃ more, start.rest = raw ++ segmentEnd interpolated ++ more

/-- The template that opens at a cursor, under a tag. -/
def Template.at? {text : List Char} (tag : Word text) (cursor : Cursor text) :
    Option (Template text) :=
  match h : cursor.rest with
  | '`' :: _ =>
      match found : segment? cursor.next.rest with
      | some (raw, hole) =>
          some
            { tag := tag
              start := cursor.next
              raw := raw
              interpolated := hole
              opened := by rw [cursor.before_next h]; rfl
              closed := eq_append_of_segment? found }
      | none => none
  | _ => none

end FieldUsage.Host
