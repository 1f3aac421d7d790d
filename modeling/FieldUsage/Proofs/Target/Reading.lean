import FieldUsage.Proofs.Target
import FieldUsage.Schema.Builder
import Mathlib.Data.List.DropRight

/-!
How a text names a target. The blanks around a text do not count. What stands between them is the
type and the field with a point between them, or the type alone, and the type is what comes before
the first point. So every text that is not blank names exactly one target, and a target is named by
the way it is written, whatever points and blanks its two parts contain.
-/

namespace FieldUsage

namespace Text

/-- A text of nothing but blanks. -/
def AllBlank (text : List Char) : Prop := ∀ c ∈ text, isBlank c = true

instance (text : List Char) : Decidable (AllBlank text) :=
  inferInstanceAs (Decidable (∀ c ∈ text, isBlank c = true))

/-- What is left of a text between the blanks around it. -/
structure IsCore (text core : List Char) : Prop where
  around : ∃ before after, text = before ++ core ++ after ∧ AllBlank before ∧ AllBlank after
  starts : ∀ c ∈ core.head?, isBlank c = false
  ends : ∀ c ∈ core.getLast?, isBlank c = false

theorem trimStart_blank_append {before : List Char} (blank : AllBlank before) (text : List Char) :
    trimStart (before ++ text) = trimStart text :=
  List.dropWhile_append_of_pos blank

theorem trimStart_of_starts {text : List Char} (starts : ∀ c ∈ text.head?, isBlank c = false) :
    trimStart text = text := by
  cases text with
  | nil => rfl
  | cons first rest =>
      have solid : isBlank first = false := starts first rfl
      simp [trimStart, solid]

theorem trimStart_eq_nil_iff {text : List Char} : trimStart text = [] ↔ AllBlank text := by
  simp [trimStart, AllBlank]

theorem AllBlank.reverse {text : List Char} (blank : AllBlank text) : AllBlank text.reverse := by
  intro c member
  exact blank c (List.mem_reverse.mp member)

/-- Blanks around a text do not change what is left of it. -/
theorem trim_around {before after : List Char} (blank : AllBlank before) (blank' : AllBlank after)
    (text : List Char) : trim (before ++ text ++ after) = trim text := by
  have front : trimStart (before ++ text ++ after) = trimStart (text ++ after) := by
    rw [List.append_assoc, trimStart_blank_append blank]
  by_cases nothing : AllBlank text
  · have whole : AllBlank (text ++ after) := by
      intro c member
      rcases List.mem_append.mp member with inside | behind
      · exact nothing c inside
      · exact blank' c behind
    rw [trim, trim, front, trimStart_eq_nil_iff.mpr whole, trimStart_eq_nil_iff.mpr nothing]
  · have left : trimStart text ≠ [] := fun empty => nothing (trimStart_eq_nil_iff.mp empty)
    have kept : trimStart (text ++ after) = trimStart text ++ after := by
      have split : (text ++ after).dropWhile isBlank = _ := List.dropWhile_append
      rwa [if_neg (by simpa [trimStart] using left)] at split
    rw [trim, trim, front, kept, List.reverse_append, trimStart_blank_append blank'.reverse]

theorem trim_of_isCore {text core : List Char} (isCore : IsCore text core) : trim text = core := by
  obtain ⟨⟨before, after, rfl, blank, blank'⟩, starts, ends⟩ := isCore
  have back : trimStart core.reverse = core.reverse := by
    apply trimStart_of_starts
    simpa using ends
  rw [trim_around blank blank']
  simp [trim, trimStart_of_starts starts, back]

theorem isCore_trim (text : List Char) : IsCore text (trim text) := by
  have front := List.takeWhile_append_dropWhile (p := isBlank) (l := text)
  have back := List.rdropWhile_append_rtakeWhile (p := isBlank) (l := text.dropWhile isBlank)
  have left : trim text = (text.dropWhile isBlank).rdropWhile isBlank := rfl
  have ends : ∀ c ∈ (trim text).getLast?, isBlank c = false := by
    intro c last
    obtain ⟨solid, rfl⟩ := List.mem_getLast?_eq_getLast last
    simpa [left] using List.rdropWhile_last_not isBlank (text.dropWhile isBlank) solid
  have starts : ∀ c ∈ (trim text).head?, isBlank c = false := by
    intro c first
    obtain ⟨rest, shape⟩ : ∃ rest, trim text = c :: rest := List.head?_eq_some_iff.mp first
    have kept : (text.dropWhile isBlank).head? = some c := by
      rw [← back, ← left, shape]
      rfl
    have solid := List.head?_dropWhile_not isBlank text
    rwa [kept] at solid
  refine ⟨⟨text.takeWhile isBlank, (text.dropWhile isBlank).rtakeWhile isBlank, ?_, ?_, ?_⟩,
    starts, ends⟩
  · rw [left, List.append_assoc, back, front]
  · intro c member
    exact List.mem_takeWhile_imp member
  · intro c member
    exact List.mem_rtakeWhile_imp member

/-- Trimming finds what is left between the blanks around a text. -/
theorem isCore_iff {text core : List Char} : IsCore text core ↔ trim text = core :=
  ⟨trim_of_isCore, fun same => same ▸ isCore_trim text⟩

theorem trim_eq_nil_iff {text : List Char} : trim text = [] ↔ AllBlank text := by
  constructor
  · intro empty
    obtain ⟨⟨before, after, whole, blank, blank'⟩, -, -⟩ := isCore_iff.mpr empty
    intro c member
    rw [whole, List.append_nil] at member
    rcases List.mem_append.mp member with inside | behind
    · exact blank c inside
    · exact blank' c behind
  · intro blank
    rw [trim, trimStart_eq_nil_iff.mpr blank]
    rfl

theorem splitAtFirst_eq_none {separator : Char} {text : List Char} (absent : separator ∉ text) :
    splitAtFirst separator text = none := by
  induction text with
  | nil => rfl
  | cons c rest ih =>
      rw [List.mem_cons, not_or] at absent
      simp [splitAtFirst, Ne.symm absent.1, ih absent.2]

end Text

namespace Target

open Text (AllBlank IsCore)

/-- A text names a target: between the blanks around the text, the type stands before a point and
the field, or alone if the field is empty. No point belongs to the type. -/
structure NamedBy (target : Target) (text : String) : Prop where
  undotted : '.' ∉ target.typeName.toList
  written : ∃ core, IsCore text.toList core ∧ core ≠ [] ∧
    (core = target.typeName.toList ++ '.' :: target.fieldName.toList ∨
      core = target.typeName.toList ∧ target.fieldName = "")

theorem split_of_point {target : Target} (undotted : '.' ∉ target.typeName.toList) :
    split (target.typeName.toList ++ '.' :: target.fieldName.toList) = target := by
  simp [split, Text.splitAtFirst_append undotted]

/-- A text without a point names a type alone. -/
theorem split_of_notMem {text : List Char} (undotted : '.' ∉ text) :
    split text = { typeName := String.ofList text, fieldName := "" } := by
  simp [split, Text.splitAtFirst_eq_none undotted]

/-- The parts of a text are a target that the text names. -/
theorem namedBy_split {text : String} (solid : ¬AllBlank text.toList) :
    (split (Text.trim text.toList)).NamedBy text := by
  have isCore := Text.isCore_trim text.toList
  have left : Text.trim text.toList ≠ [] := fun empty => solid (Text.trim_eq_nil_iff.mp empty)
  generalize Text.trim text.toList = core at isCore left
  by_cases dotted : '.' ∈ core
  · obtain ⟨before, after, rfl, first⟩ := List.eq_append_cons_of_mem dotted
    have parts : split (before ++ '.' :: after) =
        { typeName := String.ofList before, fieldName := String.ofList after } := by
      simp [split, Text.splitAtFirst_append first]
    rw [parts]
    exact ⟨by simpa using first, _, isCore, left, .inl (by simp)⟩
  · rw [split_of_notMem dotted]
    exact ⟨by simpa using dotted, _, isCore, left, .inr (by simp)⟩

theorem NamedBy.trim_ne_nil {target : Target} {text : String} (named : target.NamedBy text) :
    Text.trim text.toList ≠ [] := by
  obtain ⟨-, core, isCore, solid, -⟩ := named
  rwa [Text.isCore_iff.mp isCore]

/-- The target that a text names is what the text is split into. -/
theorem NamedBy.split_eq {target : Target} {text : String} (named : target.NamedBy text) :
    split (Text.trim text.toList) = target := by
  obtain ⟨undotted, core, isCore, -, shape⟩ := named
  rw [Text.isCore_iff.mp isCore]
  rcases shape with rfl | ⟨rfl, unnamed⟩
  · exact split_of_point undotted
  · rw [split_of_notMem undotted, ← unnamed]
    simp

/-- A target is named by the way it is written. -/
theorem NamedBy.display {target : Target} {text : String} (named : target.NamedBy text) :
    target.NamedBy target.display := by
  obtain ⟨undotted, core, isCore, solid, shape⟩ := named
  have written : target.display.toList =
      target.typeName.toList ++ '.' :: target.fieldName.toList := by
    simp [Target.display]
  have alone {core : List Char} (starts : ∀ c ∈ core.head?, Text.isBlank c = false)
      (ends : ∀ c ∈ core.getLast?, Text.isBlank c = false) : IsCore core core :=
    ⟨⟨[], [], by simp, nofun, nofun⟩, starts, ends⟩
  refine ⟨undotted, _, ?_, ?_, .inl written⟩
  · rw [written]
    rcases shape with rfl | ⟨rfl, unnamed⟩
    · exact alone isCore.starts isCore.ends
    · -- the point that is written behind a type alone is not a blank
      obtain ⟨first, rest, begins⟩ := List.exists_cons_of_ne_nil solid
      have starts := isCore.starts
      rw [begins] at starts
      apply alone
      · simpa [begins] using starts
      · simp [unnamed, Text.isBlank]
  · simp [written]

/-- What is made of a text, by the target that it names. -/
theorem NamedBy.validate_eq {target : Target} {text : String} (named : target.NamedBy text)
    (schema : Schema) (measure : Text.Similarity) :
    validate schema (some text) measure =
      match schema.type? target.typeName with
      | none =>
          .error (.unknownType target.typeName
            (measure.closest? target.typeName schema.typeNames))
      | some type =>
          if (type.field? target.fieldName).isSome then .ok target
          else
            .error (.unknownField target.typeName target.fieldName
              (measure.closest? target.fieldName (type.fields.values.map (·.name)))) := by
  have same := named.split_eq
  obtain ⟨first, rest, left⟩ := List.exists_cons_of_ne_nil named.trim_ne_nil
  rw [left] at same
  cases found : schema.type? target.typeName with
  | none => simp [validate, left, same, found]
  | some type => simp [validate, left, same, found]

/-- Blanks around a text do not count. -/
theorem validate_around {before after : String} (blank : AllBlank before.toList)
    (blank' : AllBlank after.toList) (schema : Schema) (text : String)
    (measure : Text.Similarity) :
    validate schema (some (before ++ text ++ after)) measure =
      validate schema (some text) measure := by
  have same : Text.trim (before ++ text ++ after).toList = Text.trim text.toList := by
    rw [String.toList_append, String.toList_append]
    exact Text.trim_around blank blank' text.toList
  simp only [validate, Option.getD_some, same]

/-- A target is missing if nothing or nothing but blanks is given. -/
theorem validate_eq_missing_iff {schema : Schema} {raw : Option String}
    {measure : Text.Similarity} :
    validate schema raw measure = .error .missing ↔ ∀ text ∈ raw, AllBlank text.toList := by
  cases raw with
  | none => simp [validate, Text.trim, Text.trimStart]
  | some text =>
      by_cases blank : AllBlank text.toList
      · simp [validate, Text.trim_eq_nil_iff.mpr blank, blank]
      · have outcome := (namedBy_split blank).validate_eq schema measure
        have other : validate schema (some text) measure ≠ .error .missing := by
          rw [outcome]
          split
          · simp
          · split <;> simp
        simp [other, blank]

/-- The complete outcome of a text. It is missing exactly if it is absent or blank. Otherwise it
names one target, and this is unknown by its type, unknown by its field, or found, as the schema
says. Blanks around the text do not count, and a target that is found is found again by the way it
is written. -/
theorem validate_described (schema : Schema) (raw : Option String) (measure : Text.Similarity) :
    (validate schema raw measure = .error .missing ↔
      raw = none ∨ ∃ text, raw = some text ∧ AllBlank text.toList) ∧
    (∀ text, raw = some text → ¬AllBlank text.toList →
      ∃ target : Target, target.NamedBy text ∧
        (∀ other : Target, other.NamedBy text → other = target) ∧
        ((∃ suggestion, validate schema raw measure =
            .error (.unknownType target.typeName suggestion)) ↔
          schema.type? target.typeName = none) ∧
        ((∃ suggestion, validate schema raw measure =
            .error (.unknownField target.typeName target.fieldName suggestion)) ↔
          ∃ type, schema.type? target.typeName = some type ∧
            type.field? target.fieldName = none) ∧
        (validate schema raw measure = .ok target ↔
          ∃ type field, schema.type? target.typeName = some type ∧
            type.field? target.fieldName = some field)) ∧
    (∀ text before after, raw = some text → AllBlank before.toList → AllBlank after.toList →
      validate schema (some (before ++ text ++ after)) measure = validate schema raw measure) ∧
    ∀ target, validate schema raw measure = .ok target →
      validate schema (some target.display) measure = .ok target := by
  refine ⟨?_, ?_, ?_, ?_⟩
  · rw [validate_eq_missing_iff]
    cases raw <;> simp
  · rintro text rfl solid
    have named := namedBy_split solid
    refine ⟨_, named, fun other also => also.split_eq.symm, ?_⟩
    rw [named.validate_eq schema measure]
    cases known : schema.type? (split (Text.trim text.toList)).typeName with
    | none => simp
    | some type =>
        cases declared : type.field? (split (Text.trim text.toList)).fieldName <;> simp [declared]
  · rintro text before after rfl blank blank'
    exact validate_around blank blank' schema text measure
  · intro target found
    cases raw with
    | none =>
        have missing : validate schema none measure = .error .missing :=
          validate_eq_missing_iff.mpr nofun
        rw [missing] at found
        cases found
    | some text =>
        obtain ⟨left, parts, -⟩ := validate_eq_ok_iff.mp found
        rw [Option.getD_some] at left parts
        have solid : ¬AllBlank text.toList := fun blank => left (Text.trim_eq_nil_iff.mpr blank)
        have named : target.NamedBy text := parts ▸ namedBy_split solid
        rw [named.display.validate_eq, ← named.validate_eq]
        exact found

/-- A type whose name ends with a blank, with a field whose name has a point. -/
def oddSchema : Schema :=
  .ofSteps [.define "A " .object, .field "A " { name := "b.c", type := { name := "Int" } }]

theorem validate_described_odd :
    validate oddSchema (some "\u3000A .b.c\n") = .ok { typeName := "A ", fieldName := "b.c" } ∧
      validate oddSchema (some "A .b.c") = .ok { typeName := "A ", fieldName := "b.c" } := by
  have found : validate oddSchema (some "\u3000A .b.c\n") =
      .ok { typeName := "A ", fieldName := "b.c" } := by decide +kernel
  obtain ⟨-, -, -, again⟩ := validate_described oddSchema (some "\u3000A .b.c\n") .standard
  exact ⟨found, again _ found⟩

end Target

end FieldUsage
