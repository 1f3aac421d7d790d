import FieldUsage.Proofs.Dict
import FieldUsage.Proofs.Resolution
import FieldUsage.Proofs.Target

/-!
Searching with a larger schema. A schema that keeps what another one has, and adds types, fields or
roots, leads every way in a document to the same type as before, if it led to one. So each selection
of a target is still one, and a search finds what it found before and possibly more.
-/

namespace FieldUsage

open GraphQL (Document OperationKind)

namespace Schema

/-- A schema keeps the kinds, the types of fields and the roots of another one. -/
structure ExtendedBy (small large : Schema) : Prop where
  kinds : ∀ name type, small.type? name = some type →
    ∃ other, large.type? name = some other ∧ other.kind = type.kind
  fields : ∀ name type field found, small.type? name = some type →
    type.field? field = some found →
    ∃ other found', large.type? name = some other ∧ other.field? field = some found' ∧
      found'.type.name = found.type.name
  roots : ∀ kind type, small.root? kind = some type →
    ∃ other, large.root? kind = some other ∧ other.name = type.name

variable {small large : Schema} (extended : small.ExtendedBy large)
include extended

/-- Each relation on schemas that ways are made of is kept by a schema with more in it. -/
theorem ExtendedBy.composite {name : String} (composite : small.Composite name) :
    large.Composite name := by
  obtain ⟨type, stored, kind⟩ := composite
  obtain ⟨other, stored', same⟩ := extended.kinds name type stored
  exact ⟨other, stored', same ▸ kind⟩

theorem ExtendedBy.declares {parent field result : String}
    (declares : small.Declares parent field result) : large.Declares parent field result := by
  obtain ⟨type, found, stored, declared, rfl⟩ := declares
  obtain ⟨other, found', stored', declared', same⟩ :=
    extended.fields parent type field found stored declared
  exact ⟨other, found', stored', declared', same⟩

theorem ExtendedBy.starts {origin : Origin} {name : String} (starts : small.Starts origin name) :
    large.Starts origin name := by
  cases starts with
  | @operation kind name recorded composite =>
      obtain ⟨type, stored, -⟩ := id composite
      have root : small.root? kind = some type := Option.bind_eq_some_iff.2 ⟨name, recorded, stored⟩
      obtain ⟨other, root', same⟩ := extended.roots kind type root
      obtain ⟨name', recorded', stored'⟩ := Option.bind_eq_some_iff.1 root'
      have named : name' = name := by
        calc name'
          _ = other.name := (large.keyed name' other stored').symm
          _ = type.name := same
          _ = name := small.keyed name type stored
      exact .operation (named ▸ recorded') (extended.composite composite)
  | fragment composite => exact .fragment (extended.composite composite)

theorem ExtendedBy.enters {parent next : String} {step : Enclosing}
    (enters : small.Enters parent step next) : large.Enters parent step next := by
  cases enters with
  | typename composite => exact .typename (extended.composite composite)
  | field other declares composite =>
      exact .field other (extended.declares declares) (extended.composite composite)
  | condition composite => exact .condition (extended.composite composite)
  | noCondition => exact .noCondition

/-- A way that leads to a type leads to it in the larger schema too. Where it led nowhere, it may
now lead somewhere. -/
theorem ExtendedBy.leads {first last : String} {path : List Enclosing}
    (leads : small.Leads first path last) : large.Leads first path last := by
  induction leads with
  | here => exact .here
  | enter enters _ ih => exact .enter (extended.enters enters) ih

theorem ExtendedBy.isSelection {target : Target} {node : FieldNode}
    (selection : node.IsSelection small target) : node.IsSelection large target := by
  obtain ⟨named, first, starts, leads⟩ := selection
  exact ⟨named, first, extended.starts starts, extended.leads leads⟩

/-- A target of the smaller schema is one of the larger schema. -/
theorem ExtendedBy.validate {raw : Option String} {measure : Text.Similarity} {target : Target}
    (valid : Target.validate small raw measure = .ok target) :
    Target.validate large raw measure = .ok target := by
  obtain ⟨solid, same, type, stored, declared⟩ := Target.validate_eq_ok_iff.1 valid
  obtain ⟨found, declared⟩ := Option.isSome_iff_exists.1 declared
  obtain ⟨other, found', stored', declared', -⟩ := extended.fields _ type _ found stored declared
  exact Target.validate_eq_ok_iff.2
    ⟨solid, same, other, stored', Option.isSome_iff_exists.2 ⟨found', declared'⟩⟩

end Schema

namespace Schema

variable {small large : Schema}

/-- Whether a schema keeps what another one has, over the entries of the smaller one. -/
def isExtendedBy (small large : Schema) : Bool :=
  (small.types.entries.all fun (name, type) => (large.type? name).any fun other =>
    other.kind = type.kind ∧ type.fields.entries.all fun (field, found) =>
      (other.field? field).any (·.type.name = found.type.name)) &&
  [OperationKind.query, .mutation, .subscription].all fun kind =>
    (small.root? kind).all fun type => (large.root? kind).any (·.name = type.name)

/-- Over the entries of the smaller schema it can be checked that the larger one keeps them. -/
theorem ExtendedBy.of_isExtendedBy (checked : small.isExtendedBy large = true) :
    small.ExtendedBy large := by
  simp only [isExtendedBy, Bool.and_eq_true, List.all_eq_true, Option.any_eq_true,
    Option.all_eq_true, decide_eq_true_eq, Prod.forall] at checked
  obtain ⟨types, roots⟩ := checked
  constructor
  · intro name type stored
    obtain ⟨other, stored', same, -⟩ := types name type ((small.types.mem_entries_iff ..).2 stored)
    exact ⟨other, stored', same⟩
  · intro name type field found stored declared
    obtain ⟨other, stored', -, kept⟩ :=
      types name type ((small.types.mem_entries_iff ..).2 stored)
    obtain ⟨found', declared', same⟩ :=
      kept field found ((type.fields.mem_entries_iff ..).2 declared)
    exact ⟨other, found', stored', declared', same⟩
  · intro kind type root
    obtain ⟨other, root', same⟩ := roots kind (by cases kind <;> simp) type root
    exact ⟨other, root', same⟩

end Schema

namespace Literal

/-- With a larger schema, a search finds the usages that it finds with the smaller one, and
possibly more behind them: every selection of the target is still one. What names a target in the
smaller schema names the same target in the larger one. -/
theorem search_prefix_of_extendedBy {small large : Schema} (extended : small.ExtendedBy large)
    (target : Target) (literal : Literal) {document : Document}
    (parsed : Document.parse? literal.raw = some document) :
    (∀ raw measure, Target.validate small raw measure = .ok target →
      Target.validate large raw measure = .ok target) ∧
    (∀ node : FieldNode, node.IsSelection small target → node.IsSelection large target) ∧
    ∃ usages usages', literal.search small target = .ok usages ∧
      literal.search large target = .ok usages' ∧ usages <+: usages' := by
  refine ⟨fun raw measure valid => extended.validate valid,
    fun node selection => extended.isSelection selection, _, _,
    literal.search_eq_replicate small target parsed,
    literal.search_eq_replicate large target parsed, ?_⟩
  rw [List.prefix_replicate_iff, List.length_replicate]
  refine ⟨?_, rfl⟩
  apply List.countP_mono_left
  intro node _ selection
  rw [decide_eq_true_iff] at selection ⊢
  exact extended.isSelection selection

/-- The schema in which users lead to users, with one more field that does. -/
def widerSocialSchema : Schema :=
  .ofSteps
    [.define "Query" .object, .field "Query" { name := "user", type := { name := "User" } },
     .define "User" .object, .field "User" { name := "id", type := { name := "ID" } },
     .field "User" { name := "friends", type := { name := "User", isList := true } },
     .field "User" { name := "pets", type := { name := "User" } }]

theorem search_prefix_socialLiteral :
    let usage : Usage := { path := "a.ts", line := 3, operation := none }
    let target : Target := { typeName := "User", fieldName := "id" }
    socialSchema.ExtendedBy widerSocialSchema ∧
      socialLiteral.search socialSchema target = .ok [usage, usage] ∧
      socialLiteral.search widerSocialSchema target = .ok [usage, usage, usage] ∧
      [usage, usage] <+: [usage, usage, usage] := by
  intro usage target
  have extended : socialSchema.ExtendedBy widerSocialSchema :=
    .of_isExtendedBy (by decide +kernel)
  have parsed := (Option.some_get socialLiteral_parses).symm
  have fewer : socialLiteral.search socialSchema target = .ok [usage, usage] := by
    rw [search_eq_replicate _ _ _ parsed]
    exact congrArg Except.ok (by decide +kernel)
  have more : socialLiteral.search widerSocialSchema target = .ok [usage, usage, usage] := by
    rw [search_eq_replicate _ _ _ parsed]
    exact congrArg Except.ok (by decide +kernel)
  obtain ⟨-, -, usages, usages', found, found', kept⟩ :=
    search_prefix_of_extendedBy extended target socialLiteral parsed
  obtain rfl : [usage, usage] = usages := Except.ok.inj (fewer.symm.trans found)
  obtain rfl : [usage, usage, usage] = usages' := Except.ok.inj (more.symm.trans found')
  exact ⟨extended, fewer, more, kept⟩

end Literal

end FieldUsage
