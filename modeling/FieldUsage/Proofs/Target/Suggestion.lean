import FieldUsage.Proofs.Dict
import FieldUsage.Proofs.Schema.Listing
import FieldUsage.Proofs.Target.Reading
import FieldUsage.Proofs.Text.Similarity

/-!
Suggestions can be followed. A suggested type is a type of the schema, so the text with this type in
place of the unknown one names a field that is found or unknown on that type; a suggested field is
found. Which name is suggested depends on the names in the schema alone, not on the order in which
they came into it.
-/

namespace FieldUsage

open GraphQL (IsName)

theorem GraphQL.IsName.solid {name : String} (isName : IsName name) :
    ∀ c ∈ name.toList, Text.isBlank c = false := by
  intro c member
  exact Token.isBlank_of_continuesName (isName.continuesName c member)

namespace Schema

/-- All types and all their fields bear names of the grammar. -/
structure WellNamed (schema : Schema) : Prop where
  types : ∀ name ∈ schema.typeNames, IsName name
  fields : ∀ type ∈ schema.types.values, ∀ field ∈ type.fields.keys, IsName field

/-- A schema has a type with a field. -/
def HasField (schema : Schema) (type field : String) : Prop :=
  ∃ found, schema.type? type = some found ∧ (found.field? field).isSome = true

/-- Two schemas have types and fields of the same names. -/
structure SameNames (first second : Schema) : Prop where
  types : ∀ name, (first.type? name).isSome = (second.type? name).isSome
  fields : ∀ type field, first.HasField type field ↔ second.HasField type field

/-- The order of declarations does not count for the names, as long as no field comes before its
type. -/
theorem sameNames_of_perm {steps order : List Step} (same : steps.Perm order)
    (introduced : Introduced steps) (introduced' : Introduced order) :
    (ofSteps steps).SameNames (ofSteps order) where
  types name := by
    rw [Bool.eq_iff_iff, ← mem_typeNames_iff, ← mem_typeNames_iff, mem_typeNames_ofSteps,
      mem_typeNames_ofSteps]
    simp only [same.mem_iff]
  fields type field := by
    unfold HasField
    rw [introduced.field_iff, introduced'.field_iff]
    simp only [same.mem_iff]

/-- The names of types come in one order, whatever order they were declared in. -/
theorem SameNames.typeNames_eq {first second : Schema} (same : first.SameNames second) :
    first.typeNames = second.typeNames :=
  Dict.keys_eq_of_isSome same.types

theorem SameNames.field?_isSome {first second : Schema} (same : first.SameNames second)
    {name : String} {type type' : TypeDef} (found : first.type? name = some type)
    (found' : second.type? name = some type') (field : String) :
    (type.field? field).isSome = (type'.field? field).isSome := by
  have fields := same.fields name field
  simpa [HasField, found, found', ← Bool.eq_iff_iff] using fields

theorem WellNamed.isName_field {schema : Schema} (named : schema.WellNamed) {name : String}
    {type : TypeDef} (found : schema.type? name = some type) {field : String}
    (declared : field ∈ type.fields.keys) : IsName field :=
  named.fields type (Dict.mem_values_iff.mpr ⟨name, found⟩) field declared

end Schema

namespace Target

open Text (AllBlank IsCore)

variable {schema : Schema} {raw : Option String} {measure : Text.Similarity}

theorem fieldNames_eq (type : TypeDef) : type.fields.values.map (·.name) = type.fields.keys :=
  Dict.map_values_of_keyed type.keyed

theorem exists_namedBy {outcome : Except TargetError Target}
    (given : validate schema raw measure = outcome) (other : outcome ≠ .error .missing) :
    ∃ text target, raw = some text ∧ NamedBy target text := by
  rw [← given, Ne, validate_eq_missing_iff] at other
  push Not at other
  obtain ⟨text, rfl, solid⟩ := other
  exact ⟨text, _, rfl, namedBy_split solid⟩

theorem of_unknownType {type : String} {suggestion : Option String}
    (unknown : validate schema raw measure = .error (.unknownType type suggestion)) :
    ∃ text field, raw = some text ∧ NamedBy { typeName := type, fieldName := field } text ∧
      suggestion = measure.closest? type schema.typeNames := by
  obtain ⟨text, ⟨name, field⟩, rfl, named⟩ := exists_namedBy unknown (by simp)
  rw [named.validate_eq] at unknown
  split at unknown
  · cases unknown
    exact ⟨text, field, rfl, named, rfl⟩
  · split at unknown <;> cases unknown

/-- The suggestion for a field is the closest field of its type. -/
theorem of_unknownField {type field : String} {suggestion : Option String}
    (unknown : validate schema raw measure = .error (.unknownField type field suggestion)) :
    ∃ found, schema.type? type = some found ∧
      suggestion = measure.closest? field found.fields.keys := by
  obtain ⟨text, ⟨name, part⟩, rfl, named⟩ := exists_namedBy unknown (by simp)
  rw [named.validate_eq] at unknown
  split at unknown
  · cases unknown
  case h_2 found known =>
    split at unknown
    · cases unknown
    · cases unknown
      exact ⟨found, known, by rw [fieldNames_eq]⟩

/-- A text names another target after its type is replaced by a name. -/
theorem NamedBy.replace {type field best text : String}
    (named : NamedBy { typeName := type, fieldName := field } text) (isName : IsName best) :
    ∃ before after, text = before ++ type ++ after ∧ AllBlank before.toList ∧
      NamedBy { typeName := best, fieldName := field } (before ++ best ++ after) := by
  obtain ⟨-, core, isCore, -, shape⟩ := named
  -- what follows the type inside the text: a point and the field, or nothing
  obtain ⟨rest, whole, form⟩ : ∃ rest, core = type.toList ++ rest ∧
      (rest = '.' :: field.toList ∨ rest = [] ∧ field = "") := by
    rcases shape with whole | ⟨whole, unnamed⟩
    · exact ⟨_, whole, .inl rfl⟩
    · exact ⟨[], by simpa using whole, .inr ⟨rfl, unnamed⟩⟩
  obtain ⟨⟨before, after, split, blank, blank'⟩, -, ends⟩ := isCore
  have starts : ∀ c ∈ (best.toList ++ rest).head?, Text.isBlank c = false := by
    intro c first
    rw [List.head?_append_of_ne_nil _ isName.toList_ne_nil] at first
    exact isName.solid c (List.mem_of_head? first)
  have ends' : ∀ c ∈ (best.toList ++ rest).getLast?, Text.isBlank c = false := by
    rcases form with solid | ⟨empty, -⟩
    · have behind : rest ≠ [] := by simp [solid]
      rw [whole, List.getLast?_append_of_ne_nil _ behind] at ends
      rwa [List.getLast?_append_of_ne_nil _ behind]
    · intro c last
      rw [empty, List.append_nil] at last
      exact isName.solid c (List.mem_of_getLast? last)
  refine ⟨String.ofList before, String.ofList (rest ++ after), ?_, by simpa using blank, ?_⟩
  · rw [← String.toList_inj, split, whole]
    simp
  · have isCore : IsCore (String.ofList before ++ best ++ String.ofList (rest ++ after)).toList
        (best.toList ++ rest) :=
      ⟨⟨before, after, by simp, blank, blank'⟩, starts, ends'⟩
    refine ⟨isName.notMem rfl, _, isCore, by simp [isName.toList_ne_nil], ?_⟩
    rcases form with rfl | ⟨rfl, unnamed⟩
    · exact .inl rfl
    · exact .inr ⟨by simp, unnamed⟩

/-- On a type of the schema, a field is found or unknown. -/
theorem NamedBy.found_or_unknownField {target : Target} {text : String}
    (named : target.NamedBy text) (known : target.typeName ∈ schema.typeNames) :
    validate schema (some text) measure = .ok target ∨
      ∃ other, validate schema (some text) measure =
        .error (.unknownField target.typeName target.fieldName other) := by
  obtain ⟨found, stored⟩ := Option.isSome_iff_exists.mp ((schema.mem_typeNames_iff _).mp known)
  rw [named.validate_eq, stored]
  by_cases declared : (found.field? target.fieldName).isSome = true
  · exact .inl (by simp [declared])
  · exact .inr ⟨_, by simp only [declared]; rfl⟩

/-- Of a schema, only the names of its types and fields count. -/
theorem validate_congr {other : Schema} (same : schema.SameNames other) (raw : Option String)
    (measure : Text.Similarity) : validate other raw measure = validate schema raw measure := by
  by_cases blank : ∀ text ∈ raw, AllBlank text.toList
  · rw [validate_eq_missing_iff.mpr blank, validate_eq_missing_iff.mpr blank]
  · push Not at blank
    obtain ⟨text, rfl, solid⟩ := blank
    have named := namedBy_split solid
    generalize split (Text.trim text.toList) = target at named
    rw [named.validate_eq, named.validate_eq, same.typeNames_eq]
    have types := same.types target.typeName
    cases found : schema.type? target.typeName with
    | none =>
        have absent : other.type? target.typeName = none := by simpa [found] using types
        rw [absent]
    | some type =>
        have present : (other.type? target.typeName).isSome = true := by simpa [found] using types
        obtain ⟨type', found'⟩ := Option.isSome_iff_exists.mp present
        have fields := same.field?_isSome found found'
        have keys : type.fields.keys = type'.fields.keys := Dict.keys_eq_of_isSome fields
        rw [found']
        simp only [fieldNames_eq, keys, fields]

/-- Suggestions can be followed. A suggested type is the closest among the types and is a type, so
that the text with it in place of the unknown type names a field that is found, or unknown on this
type; a suggested field is the closest among the fields of the type, and is found. Nothing is
suggested for an empty name and where no name is alike enough. The outcome depends on the names in
the schema, and not on the order in which types and fields were declared. -/
theorem suggestions_usable (named : schema.WellNamed) (ordered : measure.Ordered)
    (raw : Option String) :
    (∀ type suggestion, validate schema raw measure = .error (.unknownType type suggestion) →
      (suggestion = none ↔
        type = "" ∨ ∀ candidate ∈ schema.typeNames, ¬measure.Near type candidate) ∧
      ∀ best, suggestion = some best →
        measure.IsClosest type schema.typeNames best ∧
        ∃ before after field, raw = some (before ++ type ++ after) ∧ AllBlank before.toList ∧
          NamedBy { typeName := type, fieldName := field } (before ++ type ++ after) ∧
          (validate schema (some (before ++ best ++ after)) measure =
              .ok { typeName := best, fieldName := field } ∨
            ∃ other, validate schema (some (before ++ best ++ after)) measure =
              .error (.unknownField best field other))) ∧
    (∀ type field suggestion,
      validate schema raw measure = .error (.unknownField type field suggestion) →
      ∃ found, schema.type? type = some found ∧
        (suggestion = none ↔
          field = "" ∨ ∀ candidate ∈ found.fields.keys, ¬measure.Near field candidate) ∧
        ∀ best, suggestion = some best →
          measure.IsClosest field found.fields.keys best ∧
          validate schema (some (type ++ "." ++ best)) measure =
            .ok { typeName := type, fieldName := best }) ∧
    (∀ other, schema.SameNames other →
      validate other raw measure = validate schema raw measure) ∧
    ∀ steps order : List Schema.Step, steps.Perm order → Schema.Introduced steps →
      Schema.Introduced order →
      validate (.ofSteps order) raw measure = validate (.ofSteps steps) raw measure := by
  refine ⟨?_, ?_, fun other same => validate_congr same raw measure, ?_⟩
  · intro type suggestion unknown
    obtain ⟨text, field, rfl, reading, rfl⟩ := of_unknownType unknown
    refine ⟨Text.Similarity.closest?_eq_none_iff ordered, ?_⟩
    intro best chosen
    have closest := Text.Similarity.isClosest_of_closest? ordered schema.types.keys_pairwise chosen
    obtain ⟨before, after, rfl, blank, replaced⟩ :=
      reading.replace (named.types best closest.among)
    exact ⟨closest, before, after, field, rfl, blank, reading,
      replaced.found_or_unknownField closest.among⟩
  · intro type field suggestion unknown
    obtain ⟨found, known, rfl⟩ := of_unknownField unknown
    refine ⟨found, known, Text.Similarity.closest?_eq_none_iff ordered, ?_⟩
    intro best chosen
    have closest := Text.Similarity.isClosest_of_closest? ordered found.fields.keys_pairwise chosen
    have isType : IsName type := by
      apply named.types
      rw [Schema.mem_typeNames_iff, known]
      rfl
    have declared := (found.fields.mem_keys_iff best).mp closest.among
    exact ⟨closest, (validate_names_iff isType (named.isName_field known closest.among) schema
      measure _).mpr ⟨rfl, found, known, declared⟩⟩
  · intro steps order same introduced introduced'
    exact validate_congr (Schema.sameNames_of_perm same introduced introduced') raw measure

section People

/-- Scores count the characters that two names have in common at their beginning. -/
def commonBeginning : Text.Similarity where
  Score := Nat
  score first second := Text.Similarity.commonStart first.toList second.toList
  le first second := decide (first ≤ second)
  threshold := 2

/-- Numbers are ordered scores. -/
theorem commonBeginning_ordered : commonBeginning.Ordered where
  total first second := by simpa [commonBeginning] using Nat.le_total first second
  trans := by
    intro first second third below above
    simp only [commonBeginning, decide_eq_true_eq] at below above ⊢
    exact Nat.le_trans below above

/-- Two types that are equally like a third name. -/
def peopleSchema : Schema :=
  .ofSteps [.define "User" .object, .field "User" { name := "name", type := { name := "String" } },
    .define "Usage" .object]

theorem peopleSchema_wellNamed : peopleSchema.WellNamed :=
  ⟨by decide +kernel, by decide +kernel⟩

theorem suggestions_usable_people :
    validate peopleSchema (some "  Usr.name") commonBeginning =
        .error (.unknownType "Usr" (some "User")) ∧
      commonBeginning.IsClosest "Usr" peopleSchema.typeNames "User" ∧
      validate peopleSchema (some "User.nam") commonBeginning =
        .error (.unknownField "User" "nam" (some "name")) ∧
      validate peopleSchema (some "User.name") commonBeginning =
        .ok { typeName := "User", fieldName := "name" } := by
  have type : validate peopleSchema (some "  Usr.name") commonBeginning =
      .error (.unknownType "Usr" (some "User")) := by decide +kernel
  have field : validate peopleSchema (some "User.nam") commonBeginning =
      .error (.unknownField "User" "nam" (some "name")) := by decide +kernel
  obtain ⟨types, -⟩ := suggestions_usable peopleSchema_wellNamed commonBeginning_ordered
    (some "  Usr.name")
  obtain ⟨-, fields, -⟩ := suggestions_usable peopleSchema_wellNamed commonBeginning_ordered
    (some "User.nam")
  obtain ⟨closest, -⟩ := (types _ _ type).2 _ rfl
  obtain ⟨found, -, -, follow⟩ := fields _ _ _ field
  exact ⟨type, closest, field, (follow _ rfl).2⟩

end People

end Target

end FieldUsage
