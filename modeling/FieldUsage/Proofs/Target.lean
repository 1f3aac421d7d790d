import FieldUsage.Proofs.GraphQL.Name
import FieldUsage.Target

/-!
Targets as they are written. A text of two names with a point between them has no blanks to trim
and no earlier point to be split at, so it stands for the field of the second name on the type of
the first one, and is a target exactly if the schema has this field.
-/

namespace FieldUsage

open GraphQL (IsName)

namespace Text

theorem trimStart_eq_self {text : List Char} (solid : ∀ c ∈ text, isBlank c = false) :
    trimStart text = text := by
  unfold trimStart
  cases text with
  | nil => rfl
  | cons first rest => rw [List.dropWhile_cons_of_neg (by simp [solid first])]

theorem trim_eq_self {text : List Char} (solid : ∀ c ∈ text, isBlank c = false) :
    trim text = text := by
  unfold trim
  rw [trimStart_eq_self solid, trimStart_eq_self, List.reverse_reverse]
  intro c member
  exact solid c (List.mem_reverse.1 member)

theorem splitAtFirst_append {separator : Char} {before : List Char} (absent : separator ∉ before)
    (after : List Char) :
    splitAtFirst separator (before ++ separator :: after) = some (before, after) := by
  induction before with
  | nil => simp [splitAtFirst]
  | cons c rest ih =>
      rw [List.mem_cons, not_or] at absent
      simp [splitAtFirst, Ne.symm absent.1, ih absent.2]

end Text

namespace Target

variable {type field : String}

/-- A target that is written with names of the grammar is split into these names. -/
theorem split_names (typeName : IsName type) :
    split (type ++ "." ++ field).toList = { typeName := type, fieldName := field } := by
  have shape : (type ++ "." ++ field).toList = type.toList ++ '.' :: field.toList := by simp
  have absent : '.' ∉ type.toList := typeName.notMem rfl
  unfold split
  rw [shape, Text.splitAtFirst_append absent]
  simp

/-- Names of the grammar have no blanks that could be trimmed. -/
theorem trim_names (typeName : IsName type) (fieldName : IsName field) :
    Text.trim (type ++ "." ++ field).toList = (type ++ "." ++ field).toList := by
  apply Text.trim_eq_self
  intro c member
  rw [String.toList_append, String.toList_append, List.mem_append, List.mem_append] at member
  rcases member with (member | member) | member
  · exact GraphQL.Token.isBlank_of_continuesName (typeName.continuesName c member)
  · obtain rfl : c = '.' := by simpa using member
    rfl
  · exact GraphQL.Token.isBlank_of_continuesName (fieldName.continuesName c member)

/-- A text is a target exactly if it is not blank and the type before its point has the field behind
it. -/
theorem validate_eq_ok_iff {schema : Schema} {raw : Option String} {measure : Text.Similarity}
    {target : Target} :
    validate schema raw measure = .ok target ↔
      Text.trim (raw.getD "").toList ≠ [] ∧
        target = split (Text.trim (raw.getD "").toList) ∧
        ∃ found, schema.type? target.typeName = some found ∧
          (found.field? target.fieldName).isSome = true := by
  unfold validate
  cases trimmed : Text.trim (raw.getD "").toList with
  | nil => simp
  | cons first rest =>
      cases known : schema.type? (split (first :: rest)).typeName with
      | none =>
          simp only [known]
          constructor
          · nofun
          · rintro ⟨-, rfl, found, stored, -⟩
            simp [known] at stored
      | some type =>
          cases declared : (type.field? (split (first :: rest)).fieldName).isSome with
          | false =>
              simp only [known, declared]
              constructor
              · nofun
              · rintro ⟨-, rfl, found, stored, field⟩
                obtain rfl := Option.some.inj (known.symm.trans stored)
                simp [declared] at field
          | true =>
              simp only [known, declared, if_true, Except.ok.injEq]
              constructor
              · rintro rfl
                exact ⟨by simp, rfl, type, known, declared⟩
              · rintro ⟨-, rfl, -⟩
                rfl

/-- Two names with a point between them are a target exactly if the type has the field. -/
theorem validate_names_iff (typeName : IsName type) (fieldName : IsName field) (schema : Schema)
    (measure : Text.Similarity) (target : Target) :
    validate schema (some (type ++ "." ++ field)) measure = .ok target ↔
      target = { typeName := type, fieldName := field } ∧
        ∃ found, schema.type? type = some found ∧ (found.field? field).isSome = true := by
  rw [validate_eq_ok_iff, Option.getD_some, trim_names typeName fieldName, split_names typeName]
  constructor
  · rintro ⟨-, rfl, declared⟩
    exact ⟨rfl, declared⟩
  · rintro ⟨rfl, declared⟩
    exact ⟨by simp, rfl, declared⟩

end Target

end FieldUsage
