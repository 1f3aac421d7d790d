import FieldUsage.Proofs.GraphQL.Definition
import FieldUsage.Proofs.Schema.Source
import FieldUsage.Proofs.Target
import Mathlib

/-!
No field that a source lists is lost, and none is invented. Sources may define a type twice, extend
it as another kind and declare a field again and again: what they list are the fields that targets
may name, in whatever order the sources come.
-/

namespace FieldUsage.Schema

open GraphQL (IsName)

/-- A chain of references ends in a name: wrappers lead on to what they hold, and everything else
is an end. -/
inductive Introspection.Reference.EndsIn : Reference → String → Prop where
  | plain {kind : GraphQL.TypeKind} {name : String} : EndsIn (.plain (.type kind) (some name)) name
  | around {kind : GraphQL.TypeKind} {name : String} {inner : Reference} :
      EndsIn (.around (.type kind) (some name) inner) name
  | list {own : Option String} {inner : Reference} {name : String} :
      EndsIn inner name → EndsIn (.around .list own inner) name
  | nonNull {own : Option String} {inner : Reference} {name : String} :
      EndsIn inner name → EndsIn (.around .nonNull own inner) name

/-- A source lists a field of a type. -/
inductive Source.Lists : Source → String → String → Prop where
  /-- In a definition or extension of an object, interface or input. -/
  | definition {definitions : GraphQL.Document} {extends_ : Bool} {kind : GraphQL.TypeKind}
      {type : String} {fields : List GraphQL.FieldDef} {field : GraphQL.FieldDef} :
      .type extends_ kind type fields ∈ definitions →
      kind = .object ∨ kind = .interface ∨ kind = .inputObject →
      field ∈ fields → Lists (.document definitions) type field.name
  /-- In an entry that is no wrapper, among its fields or input fields. -/
  | entry {result : Introspection.Result} {entry : Introspection.TypeEntry}
      {kind : GraphQL.TypeKind} {field : Introspection.FieldEntry} {name : String} :
      entry ∈ result.types → entry.kind = .type kind →
      field ∈ entry.fields ∨ field ∈ entry.inputFields → field.type.EndsIn name →
      Lists (.introspection result) entry.name field.name

/-! Steps that add a field. -/

/-- A step adds a field of a name to a type. -/
def Step.Adds (type name : String) (step : Step) : Prop :=
  ∃ field, step = .field type field ∧ field.name = name

theorem Step.addedField?_isSome_iff {type name : String} {step : Step} :
    (step.addedField? type name).isSome = true ↔ step.Adds type name := by
  unfold Adds
  cases step with
  | define | extend | roots | root => simp
  | field other added =>
      constructor
      · intro found
        simp only [addedField?, Option.isSome_ite] at found
        obtain ⟨rfl, rfl⟩ := found
        exact ⟨added, rfl, rfl⟩
      · rintro ⟨field, same, rfl⟩
        obtain ⟨rfl, rfl⟩ := Step.field.inj same
        simp

theorem Step.not_adds_of_declaresRoots {step : Step} (roots : step.declaresRoots = true)
    {type name : String} : ¬step.Adds type name := by
  rintro ⟨field, rfl, -⟩
  cases roots

/-- Where no field comes too early, a type has the fields that some step adds to it. -/
theorem Introduced.field_iff {steps : List Step} (introduced : Introduced steps)
    (type name : String) :
    (∃ found, (ofSteps steps).type? type = some found ∧ (found.field? name).isSome = true) ↔
      ∃ step ∈ steps, step.Adds type name := by
  have declared : (declaredField? steps type name).isSome = true ↔
      ∃ step ∈ steps, step.Adds type name := by
    rw [introduced.declaredField?_eq, List.getLast?_isSome, ne_eq, List.filterMap_eq_nil_iff]
    simp [← Step.addedField?_isSome_iff, Option.isSome_iff_ne_none, -Step.addedField?]
  rw [← declared]
  constructor
  · rintro ⟨found, stored, added⟩
    rwa [field?_ofSteps steps stored] at added
  · intro added
    obtain ⟨field, known⟩ := Option.isSome_iff_exists.1 added
    rw [← Builder.field?_run, Builder.field?] at known
    obtain ⟨pending, there, -⟩ := Option.bind_eq_some_iff.1 known
    have stored : (ofSteps steps).type? type = some (pending.named type) := by
      rw [ofSteps, Builder.type?_build, there]
      rfl
    exact ⟨_, stored, (field?_ofSteps steps stored name).symm ▸ added⟩

/-! What the steps of a source add is what the source lists. -/

/-- A reference gives a type if its chain ends in a name. -/
theorem Introspection.Reference.type?_isSome_iff (reference : Reference) :
    reference.type?.isSome = true ↔ ∃ name, reference.EndsIn name := by
  induction reference with
  | plain kind name =>
      cases kind with
      | type kind =>
          cases name with
          | none => exact ⟨nofun, nofun⟩
          | some name => exact ⟨fun _ => ⟨name, .plain⟩, fun _ => rfl⟩
      | list | nonNull => exact ⟨nofun, nofun⟩
  | around kind name inner ih =>
      cases kind with
      | type kind =>
          cases name with
          | none => exact ⟨nofun, nofun⟩
          | some name => exact ⟨fun _ => ⟨name, .around⟩, fun _ => rfl⟩
      | list =>
          rw [type?, Option.isSome_map, ih]
          constructor
          · rintro ⟨name, ends⟩
            exact ⟨name, .list ends⟩
          · rintro ⟨name, ends⟩
            cases ends with
            | list ends => exact ⟨name, ends⟩
      | nonNull =>
          rw [type?, Option.isSome_map, ih]
          constructor
          · rintro ⟨name, ends⟩
            exact ⟨name, .nonNull ends⟩
          · rintro ⟨name, ends⟩
            cases ends with
            | nonNull ends => exact ⟨name, ends⟩

/-- The steps of an entry add the fields whose references end in a name. -/
theorem entry_adds_iff (entry : Introspection.TypeEntry) (type name : String) :
    (∃ step ∈ entry.steps, step.Adds type name) ↔
      ∃ kind field ending, entry.kind = .type kind ∧
        (field ∈ entry.fields ∨ field ∈ entry.inputFields) ∧ field.type.EndsIn ending ∧
        entry.name = type ∧ field.name = name := by
  unfold Introspection.TypeEntry.steps
  constructor
  · rintro ⟨step, member, added, rfl, rfl⟩
    split at member
    case h_2 => cases member
    case h_1 kind same =>
      rcases List.mem_cons.1 member with impossible | member
      · cases impossible
      · obtain ⟨field, listed, found⟩ := List.mem_filterMap.1 member
        obtain ⟨reference, ended, step⟩ := Option.map_eq_some_iff.1 found
        obtain ⟨rfl, rfl⟩ := Step.field.inj step
        obtain ⟨ending, ends⟩ :=
          field.type.type?_isSome_iff.1 (Option.isSome_iff_exists.2 ⟨reference, ended⟩)
        exact ⟨kind, field, ending, same, List.mem_append.1 listed, ends, rfl, rfl⟩
  · rintro ⟨kind, field, ending, same, listed, ends, rfl, rfl⟩
    obtain ⟨reference, ended⟩ :=
      Option.isSome_iff_exists.1 (field.type.type?_isSome_iff.2 ⟨ending, ends⟩)
    refine ⟨.field entry.name { name := field.name, type := reference }, ?_, _, rfl, rfl⟩
    rw [same]
    refine List.mem_cons_of_mem _ (List.mem_filterMap.2 ⟨field, List.mem_append.2 listed, ?_⟩)
    rw [ended]
    rfl

theorem hasFields_iff (kind : GraphQL.TypeKind) :
    kind.hasFields = true ↔ kind = .object ∨ kind = .interface ∨ kind = .inputObject := by
  cases kind <;> simp [GraphQL.TypeKind.hasFields]

/-- A step that a type definition makes for one of its fields. -/
theorem adds_of_mem_typeSteps {extends_ : Bool} {kind : GraphQL.TypeKind} {own type name : String}
    {fields : List GraphQL.FieldDef} {step : Step}
    (member : step ∈ (GraphQL.Definition.type extends_ kind own fields).steps)
    (adds : step.Adds type name) :
    own = type ∧ ∃ field ∈ fields, field.name = name := by
  obtain ⟨added, rfl, rfl⟩ := adds
  unfold GraphQL.Definition.steps at member
  split at member
  case h_1 => cases member
  case h_2 same =>
    obtain ⟨rfl, rfl, rfl, rfl⟩ := GraphQL.Definition.type.inj same
    rcases List.mem_cons.1 member with impossible | member
    · cases extends_ <;> cases impossible
    · obtain ⟨field, listed, step⟩ := List.mem_map.1 member
      obtain ⟨rfl, rfl⟩ := Step.field.inj step
      exact ⟨rfl, field, listed, rfl⟩
  all_goals rename_i same; cases same

theorem mem_typeSteps {kind : GraphQL.TypeKind} (hasFields : kind.hasFields = true)
    (extends_ : Bool) (type : String) {fields : List GraphQL.FieldDef} {field : GraphQL.FieldDef}
    (listed : field ∈ fields) :
    Step.field type { name := field.name, type := .ofExpr field.type } ∈
      (GraphQL.Definition.type extends_ kind type fields).steps := by
  have among := List.mem_map_of_mem
    (f := fun field : GraphQL.FieldDef =>
      Step.field type { name := field.name, type := .ofExpr field.type }) listed
  cases kind with
  | object | interface | inputObject => cases extends_ <;> exact List.mem_cons_of_mem _ among
  | scalar | union | enum => cases hasFields

/-- The steps of a definition add the fields that it has. -/
theorem definition_adds_iff {definition : GraphQL.Definition} (fit : definition.FieldsFit)
    (type name : String) :
    (∃ step ∈ definition.steps, step.Adds type name) ↔
      ∃ extends_ kind fields field, definition = .type extends_ kind type fields ∧
        (kind = .object ∨ kind = .interface ∨ kind = .inputObject) ∧
        field ∈ fields ∧ field.name = name := by
  constructor
  · rintro ⟨step, member, adds⟩
    cases definition with
    | operation | fragment | directive => cases member
    | schema extends_ roots =>
        exact absurd adds (Step.not_adds_of_declaresRoots (declaresRoots_of_mem member))
    | type extends_ kind own fields =>
        obtain ⟨rfl, field, listed, rfl⟩ := adds_of_mem_typeSteps member adds
        refine ⟨extends_, kind, fields, field, rfl, (hasFields_iff kind).1 ?_, listed, rfl⟩
        by_contra without
        rw [fit (eq_false_of_ne_true without)] at listed
        cases listed
  · rintro ⟨extends_, kind, fields, field, rfl, hasFields, listed, rfl⟩
    exact ⟨_, mem_typeSteps ((hasFields_iff kind).2 hasFields) extends_ type listed, _, rfl, rfl⟩

/-- A source whose definitions have fields only where they may. -/
def Source.FieldsFit (source : Source) : Prop :=
  ∀ definitions, source = .document definitions →
    ∀ definition ∈ definitions, definition.FieldsFit

/-- A source that can be read has fields only where it may. -/
theorem fieldsFit_of_read? {text : SourceText} {source : Source}
    (read : text.read? = some source) : source.FieldsFit := by
  rintro definitions rfl
  obtain ⟨format, text⟩ := text
  unfold SourceText.read? at read
  cases format with
  | document =>
      obtain ⟨found, parsed, same⟩ := Option.map_eq_some_iff.1 read
      obtain rfl := Source.document.inj same
      exact GraphQL.Document.fieldsFit_of_parse? parsed
  | introspection =>
      obtain ⟨result, -, impossible⟩ := Option.map_eq_some_iff.1 read
      cases impossible

/-- A source adds the fields that it lists. -/
theorem source_adds_iff {source : Source} (fit : source.FieldsFit) (type name : String) :
    (∃ step ∈ source.steps, step.Adds type name) ↔ source.Lists type name := by
  cases source with
  | document definitions =>
      constructor
      · rintro ⟨step, member, adds⟩
        obtain ⟨definition, among, member⟩ := List.mem_flatMap.1 member
        obtain ⟨extends_, kind, fields, field, rfl, hasFields, listed, rfl⟩ :=
          (definition_adds_iff (fit _ rfl definition among) type name).1 ⟨step, member, adds⟩
        exact .definition among hasFields listed
      · intro lists
        cases lists with
        | definition among hasFields listed =>
            obtain ⟨step, member, adds⟩ := (definition_adds_iff (fit _ rfl _ among) _ _).2
              ⟨_, _, _, _, rfl, hasFields, listed, rfl⟩
            exact ⟨step, List.mem_flatMap.2 ⟨_, among, member⟩, adds⟩
  | introspection result =>
      constructor
      · rintro ⟨step, member, adds⟩
        rcases List.mem_append.1 member with member | member
        · obtain ⟨entry, among, member⟩ := List.mem_flatMap.1 member
          obtain ⟨kind, field, ending, same, listed, ends, rfl, rfl⟩ :=
            (entry_adds_iff entry type name).1 ⟨step, member, adds⟩
          exact .entry among same listed ends
        · exact absurd adds (Step.not_adds_of_declaresRoots (declaresRoots_of_mem member))
      · intro lists
        cases lists with
        | entry among same listed ends =>
            obtain ⟨step, member, adds⟩ := (entry_adds_iff _ _ _).2
              ⟨_, _, _, same, listed, ends, rfl, rfl⟩
            exact ⟨step, List.mem_append_left _ (List.mem_flatMap.2 ⟨_, among, member⟩), adds⟩

theorem sources_adds_iff {texts : List SourceText} {sources : List Source}
    (read : texts.mapM SourceText.read? = some sources) (type name : String) :
    (∃ step ∈ sources.flatMap Source.steps, step.Adds type name) ↔
      ∃ source ∈ sources, source.Lists type name := by
  have fit : ∀ source ∈ sources, source.FieldsFit := by
    intro source among
    obtain ⟨text, -, read⟩ := exists_read_of_mem read among
    exact fieldsFit_of_read? read
  constructor
  · rintro ⟨step, member, adds⟩
    obtain ⟨source, among, member⟩ := List.mem_flatMap.1 member
    exact ⟨source, among, (source_adds_iff (fit source among) type name).1 ⟨step, member, adds⟩⟩
  · rintro ⟨source, among, lists⟩
    obtain ⟨step, member, adds⟩ := (source_adds_iff (fit source among) type name).2 lists
    exact ⟨step, List.mem_flatMap.2 ⟨source, among, member⟩, adds⟩

/-- The targets of sources are the fields that they list. -/
theorem validate_ok_iff_lists {texts : List SourceText} {sources : List Source}
    (read : texts.mapM SourceText.read? = some sources) {type field : String}
    (typeName : IsName type) (fieldName : IsName field) (measure : Text.Similarity) :
    ∃ schema, ofTexts? texts = some schema ∧
      ((∃ target, Target.validate schema (some (type ++ "." ++ field)) measure = .ok target) ↔
        ∃ source ∈ sources, source.Lists type field) := by
  refine ⟨Source.build sources, ofTexts?_of_read read, ?_⟩
  simp only [Target.validate_names_iff typeName fieldName, exists_eq_left]
  rw [← sources_adds_iff read]
  exact (introduced_sources sources).field_iff type field

/-- A type that is an object with a field, and then a union. -/
def redefinedType : SourceText :=
  { format := .document, text := "type A\x7bf:[Int]\x7dunion A=B".toList }

def redefinedDocument : GraphQL.Document :=
  [.type false .object "A" [{ name := "f", type := .list (.named "Int") }],
    .type false .union "A" []]

set_option maxRecDepth 4000 in
theorem read?_redefinedType : redefinedType.read? = some (.document redefinedDocument) := by cbv

theorem validate_redefinedType :
    ∃ schema, ofTexts? [redefinedType] = some schema ∧
      ∃ target, Target.validate schema (some ("A" ++ "." ++ "f")) = .ok target := by
  have read : [redefinedType].mapM SourceText.read? = some [.document redefinedDocument] := by
    simp [read?_redefinedType]
  have name : IsName "A" ∧ IsName "f" := by decide
  obtain ⟨schema, built, valid⟩ := validate_ok_iff_lists read name.1 name.2 .standard
  refine ⟨schema, built, valid.2 ⟨_, List.mem_cons_self, ?_⟩⟩
  exact .definition List.mem_cons_self (.inl rfl) List.mem_cons_self

end FieldUsage.Schema
