import FieldUsage.Proofs.GraphQL.Print
import FieldUsage.Proofs.Schema.Encoding
import FieldUsage.Proofs.Schema.Source
import Mathlib.Data.List.Nodup

/-!
One schema in two notations. A description of types and roots can be written as a document with a
block for the roots, or as the result of an introspection query. Both sources declare the same, so
a builder ends up with the same schema from either of them.
-/

namespace FieldUsage.Schema

open GraphQL (OperationKind TypeKind TypeExpr FieldDef IsName)
open Introspection (Reference FieldEntry TypeEntry Result Form)

/-! Root types are independent of everything else. -/

namespace Builder

/-- Declarations of roots and of types do not touch each other. -/
theorem apply_comm (builder : Builder) {root step : Step} (declares : root.declaresRoots = true)
    (other : step.declaresRoots = false) :
    (builder.apply root).apply step = (builder.apply step).apply root := by
  cases root with
  | define | extend | field => cases declares
  | roots | root =>
      cases step with
      | roots | root => cases other
      | define | extend => rfl
      | field type field =>
          simp only [apply]
          split <;> rfl

theorem run_apply_comm (builder : Builder) {root : Step} {steps : List Step}
    (declares : root.declaresRoots = true)
    (other : ∀ step ∈ steps, step.declaresRoots = false) :
    (builder.apply root).run steps = (builder.run steps).apply root := by
  induction steps generalizing builder with
  | nil => rfl
  | cons step rest ih =>
      obtain ⟨here, there⟩ := List.forall_mem_cons.1 other
      change ((builder.apply root).apply step).run rest = _
      rw [apply_comm builder declares here]
      exact ih (builder.apply step) there

/-- Declarations of roots may be put behind declarations of anything else. -/
theorem run_comm (builder : Builder) {roots steps : List Step}
    (declare : ∀ root ∈ roots, root.declaresRoots = true)
    (other : ∀ step ∈ steps, step.declaresRoots = false) :
    (builder.run roots).run steps = (builder.run steps).run roots := by
  induction roots generalizing builder with
  | nil => rfl
  | cons root rest ih =>
      obtain ⟨here, there⟩ := List.forall_mem_cons.1 declare
      change ((builder.apply root).run rest).run steps = _
      rw [ih (builder.apply root) there, run_apply_comm builder here other]
      rfl

/-- Roots of different operations may be named in any order. -/
theorem run_roots_perm (builder : Builder) {roots others : List (OperationKind × String)}
    (perm : roots.Perm others) (distinct : (roots.map (·.1)).Nodup) :
    builder.run (.roots :: roots.map fun (kind, name) => .root kind name) =
      builder.run (.roots :: others.map fun (kind, name) => .root kind name) := by
  change List.foldl _ (builder.apply .roots) _ = List.foldl _ (builder.apply .roots) _
  rw [List.foldl_map, List.foldl_map]
  refine perm.foldl_eq' (fun one first two second current => ?_) _
  by_cases same : one.1 = two.1
  · rw [List.inj_on_of_nodup_map distinct first second same]
  · simp only [apply, Builder.mk.injEq, true_and, and_true]
    funext kind
    by_cases here : kind = two.1
    · have other : two.1 ≠ one.1 := Ne.symm same
      simp [here, other]
    · simp [here]

end Builder

/-! References to types. -/

namespace Introspection.Reference

/-- The reference that stands for a type, given the kind of the type inside. -/
def ofExpr (kinds : String → TypeKind) : TypeExpr → Reference
  | .named name => .plain (.type (kinds name)) (some name)
  | .list item => .around .list none (ofExpr kinds item)
  | .nonNull inner => .around .nonNull none (ofExpr kinds inner)

/-- A reference leads to the type it stands for. The wrappers of the type are looked at from the
outside and those of the reference from the inside. -/
theorem type?_ofExpr (kinds : String → TypeKind) {type : TypeExpr} (writable : type.IsWritable) :
    (ofExpr kinds type).type? = some (TypeRef.ofExpr type) := by
  induction type with
  | named name => rfl
  | list item ih =>
      rw [ofExpr, type?, ih writable]
      rfl
  | nonNull inner ih =>
      obtain ⟨once, inside⟩ := writable
      rw [ofExpr, type?, ih inside]
      cases inner with
      | named | list => rfl
      | nonNull => cases once

end Introspection.Reference

/-! Descriptions. -/

/-- A type with its fields, which only objects, interfaces and inputs have. -/
structure TypeDescription where
  kind : TypeKind
  name : String
  fields : List FieldDef := []
  isName : IsName name := by decide
  writable : ∀ field ∈ fields, IsName field.name ∧ field.type.IsWritable := by decide
  fit : kind.hasFields = false → fields = [] := by decide

namespace TypeDescription

/-- The definition of a type in a document. -/
def definition (type : TypeDescription) : GraphQL.Definition :=
  .type false type.kind type.name type.fields

def fieldEntry (kinds : String → TypeKind) (field : FieldDef) : FieldEntry :=
  { name := field.name, type := .ofExpr kinds field.type }

/-- The entry of a type in a result. The fields of an input are listed apart. -/
def entry (kinds : String → TypeKind) (type : TypeDescription) : TypeEntry :=
  let fields := type.fields.map (fieldEntry kinds)
  { kind := .type type.kind
    name := type.name
    fields := if type.kind = .inputObject then [] else fields
    inputFields := if type.kind = .inputObject then fields else [] }

/-- A type declares the same as an entry and as a definition. -/
theorem steps_entry (kinds : String → TypeKind) (type : TypeDescription) :
    (type.entry kinds).steps = type.definition.steps := by
  have listed : (type.entry kinds).fields ++ (type.entry kinds).inputFields =
      type.fields.map (fieldEntry kinds) := by
    unfold entry
    split <;> simp
  change Step.define type.name type.kind :: _ = Step.define type.name type.kind :: _
  rw [listed, List.filterMap_map, ← List.filterMap_eq_map]
  refine congrArg _ (List.filterMap_congr fun field member => ?_)
  have leads := Reference.type?_ofExpr kinds (type.writable field member).2
  simp only [Function.comp_apply, fieldEntry, leads]
  rfl

theorem not_declaresRoots {type : TypeDescription} {step : Step}
    (member : step ∈ type.definition.steps) : step.declaresRoots = false := by
  rcases List.mem_cons.1 member with rfl | member
  · rfl
  · obtain ⟨field, -, rfl⟩ := List.mem_map.1 member
    rfl

end TypeDescription

/-- The types of a schema and its roots, of which the one for queries is never missing. -/
structure Description where
  types : List TypeDescription
  query : String
  mutation : Option String := none
  subscription : Option String := none
  named : ∀ root ∈ Result.rootList (some query) mutation subscription, IsName root.2 := by decide

namespace Description

variable (description : Description)

def roots : List (OperationKind × String) :=
  Result.rootList (some description.query) description.mutation description.subscription

theorem roots_distinct : (description.roots.map (·.1)).Nodup := by
  unfold roots Result.rootList
  cases description.mutation <;> cases description.subscription <;> simp

/-- A document that describes the schema: the definitions of its types, and anywhere between them a
block with the roots. -/
def Documents (document : GraphQL.Document) : Prop :=
  ∃ before after roots, before ++ after = description.types ∧ roots.Perm description.roots ∧
    document = before.map TypeDescription.definition ++
      .schema false roots :: after.map TypeDescription.definition

/-- The result of an introspection query that describes the schema. -/
def result (kinds : String → TypeKind) : Result :=
  { roots := description.roots, types := description.types.map (·.entry kinds) }

def encode (kinds : String → TypeKind) (form : Form) : Json :=
  form.around (Result.encodeSchema (some description.query) description.mutation
    description.subscription (description.result kinds).types)

/-- A result in any form is read back. -/
theorem decode?_encode (kinds : String → TypeKind) (form : Form) :
    Result.decode? (description.encode kinds form) = some (description.result kinds) := by
  rw [encode, Result.decode?_around, Result.ofSchema?_encodeSchema]
  rfl

theorem steps_result (kinds : String → TypeKind) :
    (description.result kinds).steps = description.types.flatMap (·.definition.steps) ++
      .roots :: description.roots.map fun (operation, name) => .root operation name := by
  simp only [result, Result.steps, List.flatMap_map, TypeDescription.steps_entry]

variable {description}

theorem steps_document {before after : List TypeDescription}
    (roots : List (OperationKind × String)) :
    GraphQL.Document.steps (before.map TypeDescription.definition ++
        .schema false roots :: after.map TypeDescription.definition) =
      before.flatMap (·.definition.steps) ++
        ((.roots :: roots.map fun (operation, name) => .root operation name) ++
          after.flatMap (·.definition.steps)) := by
  simp [GraphQL.Document.steps, GraphQL.Definition.steps, List.flatMap_map]

/-- A document and a result of one description take every builder to the same state. -/
theorem run_document_eq_run_result {document : GraphQL.Document}
    (documents : description.Documents document) (kinds : String → TypeKind) (builder : Builder) :
    builder.run document.steps = builder.run (description.result kinds).steps := by
  obtain ⟨before, after, roots, types, perm, rfl⟩ := documents
  have declare : ∀ step ∈ Step.roots :: roots.map fun (operation, name) => .root operation name,
      step.declaresRoots = true := fun _ member => declaresRoots_of_mem member
  have other : ∀ step ∈ after.flatMap (·.definition.steps), step.declaresRoots = false := by
    intro step member
    obtain ⟨type, -, member⟩ := List.mem_flatMap.1 member
    exact TypeDescription.not_declaresRoots member
  have distinct : (roots.map (·.1)).Nodup :=
    (perm.map _).nodup_iff.2 description.roots_distinct
  have append (first second : List Step) (builder : Builder) :
      builder.run (first ++ second) = (builder.run first).run second := List.foldl_append
  calc builder.run (GraphQL.Document.steps _)
      = ((builder.run (before.flatMap (·.definition.steps))).run
          (.roots :: roots.map fun (operation, name) => .root operation name)).run
            (after.flatMap (·.definition.steps)) := by rw [steps_document, append, append]
    _ = (builder.run (description.types.flatMap (·.definition.steps))).run
          (.roots :: roots.map fun (operation, name) => .root operation name) := by
        rw [Builder.run_comm _ declare other, ← types, List.flatMap_append, append]
    _ = builder.run (description.result kinds).steps := by
        rw [Builder.run_roots_perm _ perm distinct, ← append, ← steps_result]

end Description

end FieldUsage.Schema
