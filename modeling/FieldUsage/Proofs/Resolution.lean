import FieldUsage.Proofs.Scope
import FieldUsage.Search

/-!
What a search of a literal finds. The fields of a document are listed in the order of the text, each
with the way that leads to it, and without a schema; the rules for types along a way then tell on
which type a field is selected. A literal that is a document has exactly one usage for each field
that has the name of the target and is selected on its type.
-/

namespace FieldUsage

/-- A field among selections: the selections around it, from the outermost one on, and its name. -/
structure FieldPath where
  path : List Enclosing
  name : String
deriving DecidableEq, Repr

/-- A field of a document, with the definition it stands in. -/
structure FieldNode extends FieldPath where
  origin : Origin
deriving DecidableEq, Repr

/-- A field with one more selection around everything. -/
def FieldPath.inside (step : Enclosing) (field : FieldPath) : FieldPath :=
  { field with path := step :: field.path }

namespace GraphQL

mutual

/-- The fields in a selection, each before the ones inside it. -/
def Selection.fieldPaths : Selection → List FieldPath
  | .field name inner =>
      { path := [], name } :: (Selection.fieldPathsIn inner).map (.inside (.field name))
  | .inline condition inner => (Selection.fieldPathsIn inner).map (.inside (.inline condition))
  | .spread _ => []

def Selection.fieldPathsIn : List Selection → List FieldPath
  | [] => []
  | first :: rest => first.fieldPaths ++ Selection.fieldPathsIn rest

end

/-- The fields in a definition. Only operations and fragments have any. -/
def Definition.fieldNodes : Definition → List FieldNode
  | .operation kind _ selections =>
      (Selection.fieldPathsIn selections).map fun field => { field with origin := .operation kind }
  | .fragment _ condition selections =>
      (Selection.fieldPathsIn selections).map fun field =>
        { field with origin := .fragment condition }
  | _ => []

def Document.fieldNodes (document : Document) : List FieldNode :=
  document.flatMap Definition.fieldNodes

end GraphQL

namespace FieldNode

/-- The type on which a field is selected. -/
def HasParent (schema : Schema) (node : FieldNode) (parent : String) : Prop :=
  ∃ first, schema.Starts node.origin first ∧ schema.Leads first node.path parent

/-- A field is a selection of the target. -/
def IsSelection (schema : Schema) (target : Target) (node : FieldNode) : Prop :=
  node.name = target.fieldName ∧ node.HasParent schema target.typeName

/-- The scope in which a field stands. -/
def scope (schema : Schema) (node : FieldNode) : Scope :=
  Scope.follow schema (.start schema node.origin) node.path

/-- The walk knows the type of a field exactly where the relation gives one. -/
theorem name_scope_iff {schema : Schema} {node : FieldNode} {parent : String} :
    (node.scope schema).map (·.name) = some parent ↔ node.HasParent schema parent :=
  Scope.name_follow_start_iff

instance (schema : Schema) (node : FieldNode) (parent : String) :
    Decidable (node.HasParent schema parent) :=
  decidable_of_iff _ name_scope_iff

instance (schema : Schema) (target : Target) (node : FieldNode) :
    Decidable (node.IsSelection schema target) :=
  inferInstanceAs (Decidable (_ ∧ _))

def occurrence (schema : Schema) (node : FieldNode) : Occurrence :=
  { parent := (node.scope schema).map (·.name), field := node.name }

/-- An occurrence is the target exactly if its field is a selection of it by the rules. -/
theorem isTarget_occurrence_iff (schema : Schema) (target : Target) (node : FieldNode) :
    (node.occurrence schema).isTarget target = true ↔ node.IsSelection schema target := by
  unfold Occurrence.isTarget occurrence Target.selects IsSelection
  rw [← name_scope_iff]
  simp only [Option.any_eq_true, Bool.and_eq_true, beq_iff_eq]
  constructor
  · rintro ⟨name, found, rfl, same⟩
    exact ⟨same.symm, found⟩
  · rintro ⟨same, found⟩
    exact ⟨target.typeName, found, rfl, same.symm⟩

end FieldNode

/-- A field that is reached from a scope, as an occurrence. -/
def FieldPath.occurrenceIn (schema : Schema) (scope : Scope) (field : FieldPath) : Occurrence :=
  { parent := (scope.follow schema field.path).map (·.name), field := field.name }

/-- A selection around a field changes the scope in which the field is looked at. -/
theorem FieldPath.occurrenceIn_inside (schema : Schema) (scope : Scope) (step : Enclosing) :
    occurrenceIn schema scope ∘ inside step = occurrenceIn schema (scope.enter schema step) := rfl

namespace GraphQL

mutual

/-- Walking with a scope meets the fields in the order of the text, each in the scope that its path
leads to. -/
theorem Selection.occurrences_eq (schema : Schema) (scope : Scope) :
    (selection : Selection) →
      selection.occurrences schema scope =
        selection.fieldPaths.map (FieldPath.occurrenceIn schema scope)
  | .field name inner => by
      rw [Selection.occurrences, Selection.fieldPaths, List.map_cons, List.map_map,
        FieldPath.occurrenceIn_inside, Selection.occurrencesIn_eq schema _ inner]
      rfl
  | .inline condition inner => by
      rw [Selection.occurrences, Selection.fieldPaths, List.map_map,
        FieldPath.occurrenceIn_inside, Selection.occurrencesIn_eq schema _ inner]
      rfl
  | .spread _ => by rw [Selection.occurrences, Selection.fieldPaths, List.map_nil]

theorem Selection.occurrencesIn_eq (schema : Schema) (scope : Scope) :
    (selections : List Selection) →
      Selection.occurrencesIn schema scope selections =
        (Selection.fieldPathsIn selections).map (FieldPath.occurrenceIn schema scope)
  | [] => by rw [Selection.occurrencesIn, Selection.fieldPathsIn, List.map_nil]
  | first :: rest => by
      rw [Selection.occurrencesIn, Selection.fieldPathsIn, List.map_append,
        Selection.occurrences_eq schema scope first, Selection.occurrencesIn_eq schema scope rest]

end

/-- The occurrences of a definition are its fields, each with the scope it stands in. -/
theorem Definition.occurrences_eq (schema : Schema) (definition : Definition) :
    definition.occurrences schema = definition.fieldNodes.map (FieldNode.occurrence schema) := by
  cases definition with
  | operation kind name selections =>
      rw [Definition.occurrences, Definition.fieldNodes, Selection.occurrencesIn_eq, List.map_map]
      rfl
  | fragment name condition selections =>
      rw [Definition.occurrences, Definition.fieldNodes, Selection.occurrencesIn_eq, List.map_map]
      rfl
  | type | schema | directive => rfl

/-- The occurrences of a document are its fields with the types that the rules give them. -/
theorem Document.occurrences_eq (schema : Schema) (document : Document) :
    document.occurrences schema = document.fieldNodes.map (FieldNode.occurrence schema) := by
  unfold Document.occurrences Document.fieldNodes
  rw [List.map_flatMap]
  exact congrArg (document.flatMap ·) (funext (Definition.occurrences_eq schema))

end GraphQL

namespace Literal

open GraphQL (Document)

/-- The usages in a document are all alike, one for each selection of the target. -/
theorem search_eq_replicate (literal : Literal) (schema : Schema) (target : Target)
    {document : Document} (parsed : Document.parse? literal.raw = some document) :
    literal.search schema target =
      .ok (List.replicate (document.fieldNodes.countP (·.IsSelection schema target))
        (literal.usage document)) := by
  have count : (document.occurrences schema).countP (·.isTarget target) =
      document.fieldNodes.countP (·.IsSelection schema target) := by
    rw [Document.occurrences_eq, List.countP_map]
    apply List.countP_congr
    intro node _
    rw [Function.comp_apply, node.isTarget_occurrence_iff schema target, decide_eq_true_iff]
  unfold search usages?
  rw [parsed, Option.map_some, List.map_const', ← List.countP_eq_length_filter, count]

/-- The search of a document finds one usage for each of its fields that is selected as the target,
in the order of the text. Every usage names the place of the document and its first definition. -/
theorem search_eq_selections (literal : Literal) (schema : Schema) (target : Target)
    {document : Document} (parsed : Document.parse? literal.raw = some document) :
    literal.search schema target =
      .ok ((document.fieldNodes.filter (·.IsSelection schema target)).map fun _ =>
        { path := literal.path, line := literal.line, operation := document.firstName }) := by
  have targets (node : FieldNode) :
      ((·.isTarget target) ∘ FieldNode.occurrence schema) node =
        decide (node.IsSelection schema target) :=
    Bool.eq_iff_iff.2 ((node.isTarget_occurrence_iff schema target).trans decide_eq_true_iff.symm)
  unfold search usages?
  rw [parsed, Option.map_some, Document.occurrences_eq, List.filter_map, List.map_map,
    List.filter_congr fun node _ => targets node]
  rfl

/-- A schema in which users lead to users. -/
def socialSchema : Schema :=
  .ofSteps
    [.define "Query" .object, .field "Query" { name := "user", type := { name := "User" } },
     .define "User" .object, .field "User" { name := "id", type := { name := "ID" } },
     .field "User" { name := "friends", type := { name := "User", isList := true } }]

/-- A document with an alias, a field behind an inline fragment, one below an unknown field, and a
fragment. -/
def socialLiteral : Literal :=
  { path := "a.ts"
    line := 3
    raw :=
      ("\x7buser\x7bfriends\x7b...\x7bid\x7dpets\x7bid\x7d\x7d\x7d\x7d" ++
        "fragment F on User\x7bkey:id\x7d").toList }

theorem socialLiteral_parses : (Document.parse? socialLiteral.raw).isSome = true := by
  decide +kernel

theorem search_socialLiteral :
    ∃ document, Document.parse? socialLiteral.raw = some document ∧
      socialLiteral.search socialSchema { typeName := "User", fieldName := "id" } =
        .ok (List.replicate 2 { path := "a.ts", line := 3, operation := none }) := by
  have parsed := (Option.some_get socialLiteral_parses).symm
  refine ⟨_, parsed, ?_⟩
  rw [search_eq_selections socialLiteral socialSchema _ parsed]
  exact congrArg Except.ok (by decide +kernel)

end Literal

end FieldUsage
