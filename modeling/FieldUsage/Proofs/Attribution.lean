import FieldUsage.Proofs.Dict
import FieldUsage.Proofs.Resolution
import Mathlib

/-!
Each field of a document counts for one target. Searching a document for every field that a schema
declares, one after the other, finds each field of the document that is selected on a type that
declares it, and finds it once: types and fields are stored once, under their own names, and a field
of a document is selected on one type at most.
-/

namespace FieldUsage

open GraphQL (Document)

namespace Dict

variable {α : Type}

theorem values_pairwise_of_keyed {nameOf : α → String} {dict : Dict α}
    (keyed : dict.Keyed nameOf) :
    dict.values.Pairwise fun first second => nameOf first ≠ nameOf second := by
  have distinct := dict.keys_nodup
  rw [← map_values_of_keyed keyed] at distinct
  exact List.pairwise_map.1 distinct

end Dict

namespace TypeDef

/-- The targets that name the fields of a type. -/
def targets (type : TypeDef) : List Target :=
  type.fields.values.map fun field => { typeName := type.name, fieldName := field.name }

theorem targets_eq (type : TypeDef) :
    type.targets =
      type.fields.keys.map fun field => { typeName := type.name, fieldName := field } := by
  unfold targets
  rw [← Dict.map_values_of_keyed type.keyed, List.map_map]
  rfl

theorem mem_targets_iff {type : TypeDef} {target : Target} :
    target ∈ type.targets ↔
      target.typeName = type.name ∧ (type.field? target.fieldName).isSome = true := by
  rw [targets_eq, List.mem_map]
  constructor
  · rintro ⟨field, member, rfl⟩
    exact ⟨rfl, (type.fields.mem_keys_iff field).1 member⟩
  · rintro ⟨same, declared⟩
    refine ⟨target.fieldName, (type.fields.mem_keys_iff _).2 declared, ?_⟩
    rw [← same]

theorem targets_nodup (type : TypeDef) : type.targets.Nodup := by
  rw [targets_eq]
  apply type.fields.keys_nodup.map
  intro first second same
  exact congrArg Target.fieldName same

end TypeDef

namespace Schema

/-- All targets of a schema: the fields that its types declare. -/
def targets (schema : Schema) : List Target :=
  schema.types.values.flatMap TypeDef.targets

/-- The targets are the fields that are declared. -/
theorem mem_targets_iff {schema : Schema} {target : Target} :
    target ∈ schema.targets ↔
      ∃ result, schema.Declares target.typeName target.fieldName result := by
  unfold targets Declares
  rw [List.mem_flatMap]
  constructor
  · rintro ⟨type, member, among⟩
    obtain ⟨key, stored⟩ := Dict.mem_values_iff.1 member
    obtain ⟨same, declared⟩ := TypeDef.mem_targets_iff.1 among
    obtain ⟨field, found⟩ := Option.isSome_iff_exists.1 declared
    have named : type.name = key := schema.keyed key type stored
    exact ⟨field.type.name, type, field, by rw [same, named]; exact stored, found, rfl⟩
  · rintro ⟨result, type, field, stored, found, -⟩
    have named : type.name = target.typeName := schema.keyed _ type stored
    exact ⟨type, Dict.mem_values_iff.2 ⟨_, stored⟩,
      TypeDef.mem_targets_iff.2 ⟨named.symm, Option.isSome_iff_exists.2 ⟨field, found⟩⟩⟩

theorem targets_nodup (schema : Schema) : schema.targets.Nodup := by
  rw [targets, List.nodup_flatMap]
  refine ⟨fun type _ => type.targets_nodup, ?_⟩
  refine (Dict.values_pairwise_of_keyed schema.keyed).imp ?_
  intro first second differ target here there
  exact differ ((TypeDef.mem_targets_iff.1 here).1.symm.trans (TypeDef.mem_targets_iff.1 there).1)

end Schema

namespace FieldNode

variable {schema : Schema} {node : FieldNode}

/-- A field is selected on a type that declares it. -/
def IsResolved (schema : Schema) (node : FieldNode) : Prop :=
  ∃ parent result, node.HasParent schema parent ∧ schema.Declares parent node.name result

/-- A field is selected on one type at most. -/
theorem hasParent_unique {first second : String} (here : node.HasParent schema first)
    (there : node.HasParent schema second) : first = second :=
  Option.some.inj ((name_scope_iff.2 here).symm.trans (name_scope_iff.2 there))

/-- A field is selected on one type at most, so it is a selection of one target at most. -/
theorem isSelection_unique {first second : Target} (here : node.IsSelection schema first)
    (there : node.IsSelection schema second) : first = second := by
  obtain ⟨firstType, firstField⟩ := first
  obtain ⟨secondType, secondField⟩ := second
  obtain ⟨rfl, parent⟩ := here
  obtain ⟨rfl, other⟩ := there
  obtain rfl := hasParent_unique parent other
  rfl

/-- The fields that are resolved are the selections of the targets of the schema. -/
theorem isResolved_iff :
    node.IsResolved schema ↔ ∃ target ∈ schema.targets, node.IsSelection schema target := by
  constructor
  · rintro ⟨parent, result, here, declares⟩
    exact ⟨{ typeName := parent, fieldName := node.name },
      Schema.mem_targets_iff.2 ⟨result, declares⟩, rfl, here⟩
  · rintro ⟨target, among, same, here⟩
    obtain ⟨result, declares⟩ := Schema.mem_targets_iff.1 among
    exact ⟨target.typeName, result, here, same ▸ declares⟩

instance (schema : Schema) (node : FieldNode) : Decidable (node.IsResolved schema) :=
  decidable_of_iff _ isResolved_iff.symm

/-- A selection is one of exactly one target if it is resolved, and of none otherwise. -/
theorem countP_targets (schema : Schema) (node : FieldNode) :
    schema.targets.countP (node.IsSelection schema ·) =
      if node.IsResolved schema then 1 else 0 := by
  split
  case isTrue resolved =>
    obtain ⟨target, among, selects⟩ := isResolved_iff.1 resolved
    have only (other : Target) :
        decide (node.IsSelection schema other) = (other == target) := by
      rw [Bool.eq_iff_iff, decide_eq_true_iff, beq_iff_eq]
      exact ⟨fun also => isSelection_unique also selects, fun same => same ▸ selects⟩
    rw [funext only, ← List.count_eq_countP]
    exact List.count_eq_one_of_mem schema.targets_nodup among
  case isFalse unresolved =>
    rw [List.countP_eq_zero]
    intro target among selects
    exact unresolved (isResolved_iff.2 ⟨target, among, of_decide_eq_true selects⟩)

end FieldNode

theorem sum_indicators {α : Type} (test : α → Bool) (items : List α) :
    (items.map fun item => if test item = true then 1 else 0).sum = items.countP test := by
  induction items with
  | nil => rfl
  | cons item rest ih => rw [List.map_cons, List.sum_cons, ih, List.countP_cons, Nat.add_comm]

/-- Counting the selections of every target counts the resolved fields. -/
theorem sum_selections (schema : Schema) (nodes : List FieldNode) :
    (schema.targets.map fun target => nodes.countP (·.IsSelection schema target)).sum =
      nodes.countP (·.IsResolved schema) := by
  induction nodes with
  | nil => simp
  | cons node rest ih =>
      have here : (schema.targets.map fun target =>
          if node.IsSelection schema target then 1 else 0).sum =
            if node.IsResolved schema then 1 else 0 := by
        rw [← FieldNode.countP_targets, ← sum_indicators]
        simp only [decide_eq_true_eq]
      simp only [List.countP_cons, List.sum_map_add, ih, here, decide_eq_true_eq]

namespace Literal

/-- A literal that is a document has as many usages of a target as there are selections of it. -/
theorem exists_usages (literal : Literal) (schema : Schema) (target : Target)
    {document : Document} (parsed : Document.parse? literal.raw = some document) :
    ∃ usages, literal.search schema target = .ok usages ∧
      usages.length = document.fieldNodes.countP (·.IsSelection schema target) := by
  refine ⟨_, literal.search_eq_replicate schema target parsed, ?_⟩
  rw [List.length_replicate]

/-- The usages of all targets of a schema, taken together, are as many as the fields of the document
that are selected on a type that declares them. Each of these fields is a selection of exactly one
target of the schema, and no other field is a selection of any. -/
theorem sum_usages_eq_resolved (literal : Literal) (schema : Schema) {document : Document}
    (parsed : Document.parse? literal.raw = some document) :
    ∃ usages : Target → List Usage,
      (∀ target, literal.search schema target = .ok (usages target)) ∧
      (schema.targets.map fun target => (usages target).length).sum =
        (document.fieldNodes.filter (·.IsResolved schema)).length ∧
      ∀ node : FieldNode, node.IsResolved schema ↔
        ∃! target, target ∈ schema.targets ∧ node.IsSelection schema target := by
  choose usages searched counted using
    fun target => literal.exists_usages schema target parsed
  refine ⟨usages, searched, ?_, ?_⟩
  · simp only [counted]
    rw [sum_selections, List.countP_eq_length_filter]
  · intro node
    rw [FieldNode.isResolved_iff]
    constructor
    · rintro ⟨target, among, selects⟩
      exact ⟨target, ⟨among, selects⟩, fun other also =>
        FieldNode.isSelection_unique also.2 selects⟩
    · rintro ⟨target, ⟨among, selects⟩, -⟩
      exact ⟨target, among, selects⟩

/-- Two fields of the document are below an unknown field or are one: the other four are found. -/
theorem sum_usages_socialLiteral :
    ∃ usages : Target → List Usage,
      (∀ target, socialLiteral.search socialSchema target = .ok (usages target)) ∧
      (socialSchema.targets.map fun target => (usages target).length).sum = 4 := by
  have parsed := (Option.some_get socialLiteral_parses).symm
  obtain ⟨usages, searched, counted, -⟩ :=
    sum_usages_eq_resolved socialLiteral socialSchema parsed
  refine ⟨usages, searched, counted.trans ?_⟩
  decide +kernel

end Literal

end FieldUsage
