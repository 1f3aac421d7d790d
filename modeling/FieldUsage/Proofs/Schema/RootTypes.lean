import FieldUsage.Proofs.GraphQL.Definition
import FieldUsage.Proofs.Schema.Source
import Mathlib

/-!
Root types under extensions of the schema. A document that only extends the schema declares no type
and no field, so the root types are all that it can change. It names some of them anew. The others
stay as they are if an earlier source has declared root types; if none has, they were the types with
the standard names, and these count no longer.
-/

namespace FieldUsage

namespace GraphQL

open FieldUsage.Schema (Step namedRoot?)

def Definition.isSchema : Definition → Bool
  | .schema _ _ => true
  | _ => false

def Definition.extendsSchema : Definition → Bool
  | .schema true _ => true
  | _ => false

def Definition.roots : Definition → List (OperationKind × String)
  | .schema _ roots => roots
  | _ => []

/-- The root type that a document names for a kind of operation, the last one if it names several. -/
def Document.root? (document : Document) (operation : OperationKind) : Option String :=
  ((document.flatMap Definition.roots).filterMap fun root =>
    if root.1 = operation then some root.2 else none).getLast?

theorem Definition.rootName?_steps (definition : Definition) (operation : OperationKind) :
    definition.steps.filterMap (·.rootName? operation) =
      definition.roots.filterMap fun root => if root.1 = operation then some root.2 else none := by
  cases definition with
  | operation | fragment | directive => rfl
  | schema extends_ roots =>
      simp only [steps, Definition.roots, List.filterMap_cons, Step.rootName?, List.filterMap_map]
      rfl
  | type extends_ kind name fields =>
      cases extends_ <;> cases kind <;> simp [steps, Definition.roots]

/-- The roots that are named by the steps are those that the document names. -/
theorem Document.namedRoot?_steps (document : Document) (operation : OperationKind) :
    namedRoot? document.steps operation = document.root? operation := by
  have named : document.steps.filterMap (·.rootName? operation) =
      (document.flatMap Definition.roots).filterMap fun root =>
        if root.1 = operation then some root.2 else none := by
    simp only [Document.steps, List.filterMap_flatMap, Definition.rootName?_steps]
  rw [namedRoot?, named, Document.root?]

theorem Definition.any_declaresRoots (definition : Definition) :
    definition.steps.any Step.declaresRoots = definition.isSchema := by
  cases definition with
  | operation | fragment | directive => rfl
  | schema extends_ roots => simp [steps, isSchema]
  | type extends_ kind name fields =>
      cases extends_ <;> cases kind <;> simp [steps, isSchema]

theorem Definition.declaresRoots_of_extendsSchema {definition : Definition}
    (extending : definition.extendsSchema = true) :
    ∀ step ∈ definition.steps, step.declaresRoots = true := by
  intro step member
  cases definition with
  | schema extends_ roots => exact Schema.declaresRoots_of_mem member
  | operation | fragment | directive | type => cases extending

/-- There is something in every document. -/
theorem Document.ne_nil_of_parse? {text : List Char} {document : Document}
    (parsed : Document.parse? text = some document) : document ≠ [] := by
  have nonempty : Parser.Gives Parser.document (· ≠ []) := by
    refine .after fun found => ?_
    cases found with
    | nil => exact .failure
    | cons => exact .pure (List.cons_ne_nil _ _)
  obtain ⟨tokens, -, parsed⟩ := Option.bind_eq_some_iff.1 parsed
  obtain ⟨⟨found, rest⟩, ran, same⟩ := Option.bind_eq_some_iff.1 parsed
  obtain rfl : found = document := Option.some.inj same
  exact nonempty tokens found rest ran

end GraphQL

namespace Schema

open GraphQL (OperationKind)

/-- Introspection results declare root types even if they name none. -/
def Source.declaresRoots : Source → Bool
  | .document definitions => definitions.any GraphQL.Definition.isSchema
  | .introspection _ => true

theorem Source.any_declaresRoots (sources : List Source) :
    (sources.flatMap Source.steps).any Step.declaresRoots = sources.any Source.declaresRoots := by
  have each (source : Source) : source.steps.any Step.declaresRoots = source.declaresRoots := by
    cases source with
    | document definitions =>
        simp [Source.steps, GraphQL.Document.steps, Source.declaresRoots, List.any_flatMap,
          GraphQL.Definition.any_declaresRoots]
    | introspection result =>
        simp [Source.steps, Introspection.Result.steps, Source.declaresRoots]
  simp [List.any_flatMap, each]

section Quiet

variable {steps : List Step} (quiet : ∀ step ∈ steps, step.declaresRoots = true)
include quiet

/-- Declarations of roots leave the types as they are. -/
theorem Builder.types_run_of_declaresRoots (builder : Builder) :
    (builder.run steps).types = builder.types := by
  induction steps generalizing builder with
  | nil => rfl
  | cons step rest ih =>
      obtain ⟨here, others⟩ := List.forall_mem_cons.1 quiet
      have kept : (builder.apply step).types = builder.types := by
        cases step with
        | roots | root => rfl
        | define | extend | field => cases here
      exact (ih others (builder.apply step)).trans kept

theorem type?_append_of_declaresRoots (history : List Step) (name : String) :
    (ofSteps (history ++ steps)).type? name = (ofSteps history).type? name := by
  have types : (Builder.run {} (history ++ steps)).types = (Builder.run {} history).types := by
    rw [Builder.run, List.foldl_append]
    exact Builder.types_run_of_declaresRoots quiet (Builder.run {} history)
  rw [ofSteps, ofSteps, Builder.type?_build, Builder.type?_build, types]

/-- Roots that are not named anew stay if roots have been declared before. -/
theorem roots_append_of_declaresRoots (solid : steps ≠ []) (history : List Step)
    (operation : OperationKind) :
    (ofSteps (history ++ steps)).roots operation =
      (namedRoot? steps operation).or
        (if history.any Step.declaresRoots then (ofSteps history).roots operation else none) := by
  have declared : steps.any Step.declaresRoots = true := by
    obtain ⟨step, rest, rfl⟩ := List.exists_cons_of_ne_nil solid
    exact List.any_eq_true.2 ⟨step, List.mem_cons_self, quiet step List.mem_cons_self⟩
  have named : namedRoot? (history ++ steps) operation =
      (namedRoot? steps operation).or (namedRoot? history operation) := by
    simp [namedRoot?, List.getLast?_append]
  have whole : (history ++ steps).any Step.declaresRoots = true := by
    simp [declared]
  rw [roots_ofSteps, if_pos whole, named]
  cases before : history.any Step.declaresRoots with
  | true => rw [roots_ofSteps, before, if_pos rfl, if_pos rfl]
  | false => rw [namedRoot?_eq_none before, if_neg Bool.false_ne_true]

end Quiet

/-- A document that only extends the schema changes no type. A root type that it names is the type of
this name, if there is one. A root type that it does not name stays if an earlier source has declared
root types; otherwise there is none, since the standard names count no longer. -/
theorem root?_after_schemaExtensions {texts : List SourceText} {sources : List Source}
    (read : texts.mapM SourceText.read? = some sources) {text : List Char}
    {document : GraphQL.Document} (parsed : GraphQL.Document.parse? text = some document)
    (extending : ∀ definition ∈ document, definition.extendsSchema = true) :
    ∃ before after, ofTexts? texts = some before ∧
      ofTexts? (texts ++ [{ format := .document, text }]) = some after ∧
      (∀ name, after.type? name = before.type? name) ∧
      ∀ operation,
        (∀ name, document.root? operation = some name →
          after.root? operation = before.type? name) ∧
        (document.root? operation = none →
          after.root? operation =
            if sources.any Source.declaresRoots then before.root? operation else none) := by
  have readAll : (texts ++ [({ format := .document, text } : SourceText)]).mapM SourceText.read? =
      some (sources ++ [.document document]) := by
    simp [List.mapM_append, read, SourceText.read?, parsed]
  have quiet : ∀ step ∈ document.steps, step.declaresRoots = true := by
    intro step member
    obtain ⟨definition, among, member⟩ := List.mem_flatMap.1 member
    exact GraphQL.Definition.declaresRoots_of_extendsSchema (extending definition among) step member
  have solid : document.steps ≠ [] := by
    obtain ⟨first, rest, rfl⟩ := List.exists_cons_of_ne_nil (GraphQL.Document.ne_nil_of_parse? parsed)
    have extends_ := extending first List.mem_cons_self
    cases first with
    | schema => simp [GraphQL.Document.steps, GraphQL.Definition.steps]
    | operation | fragment | directive | type => cases extends_
  have steps : Source.build (sources ++ [.document document]) =
      ofSteps (sources.flatMap Source.steps ++ document.steps) := by
    simp [Source.build, Source.steps]
  have types (name : String) : (Source.build (sources ++ [.document document])).type? name =
      (Source.build sources).type? name := by
    rw [steps]
    exact type?_append_of_declaresRoots quiet _ name
  have roots (operation : OperationKind) :
      (Source.build (sources ++ [.document document])).roots operation =
        (document.root? operation).or
          (if sources.any Source.declaresRoots then (Source.build sources).roots operation
          else none) := by
    rw [steps, roots_append_of_declaresRoots quiet solid, GraphQL.Document.namedRoot?_steps,
      Source.any_declaresRoots]
    rfl
  refine ⟨_, _, ofTexts?_of_read read, ofTexts?_of_read readAll, types, fun operation => ⟨?_, ?_⟩⟩
  · intro name named
    rw [root?, roots, named, Option.some_or, Option.bind_some, types]
  · intro unnamed
    rw [root?, roots, unnamed, Option.none_or, funext types]
    split <;> rfl

section Link

set_option maxRecDepth 4000

/-- Types under standard names, of which one is a root type by its name alone. -/
def standardTypes : SourceText :=
  { format := .document, text := "type Query\x7ba:Int\x7dtype Mutation\x7bb:Int\x7d".toList }

/-- The same types with a root type that is declared. -/
def rootedTypes : SourceText :=
  { format := .document
    text := "schema\x7bquery:Query\x7dtype Query\x7ba:Int\x7dtype Mutation\x7bb:Int\x7d".toList }

def linkedMutation : List Char := "extend schema@link\x7bmutation:Mutation\x7d".toList

def linkAlone : List Char := "extend schema@link".toList

def standardDefinitions : GraphQL.Document :=
  [.type false .object "Query" [{ name := "a", type := .named "Int" }],
    .type false .object "Mutation" [{ name := "b", type := .named "Int" }]]

theorem read?_standardTypes : standardTypes.read? = some (.document standardDefinitions) := by cbv

theorem read?_rootedTypes : rootedTypes.read? =
    some (.document (.schema false [(.query, "Query")] :: standardDefinitions)) := by cbv

theorem parse?_linkedMutation :
    GraphQL.Document.parse? linkedMutation = some [.schema true [(.mutation, "Mutation")]] := by cbv

theorem parse?_linkAlone : GraphQL.Document.parse? linkAlone = some [.schema true []] := by cbv

theorem root?_after_linkedMutation :
    ∃ before after, ofTexts? [rootedTypes] = some before ∧
      ofTexts? [rootedTypes, { format := .document, text := linkedMutation }] = some after ∧
      after.root? .query = before.root? .query ∧
      after.root? .mutation = before.type? "Mutation" := by
  have read : [rootedTypes].mapM SourceText.read? =
      some [.document (.schema false [(.query, "Query")] :: standardDefinitions)] := by
    simp [read?_rootedTypes]
  obtain ⟨before, after, built, extended, -, roots⟩ :=
    root?_after_schemaExtensions read parse?_linkedMutation (by simp [GraphQL.Definition.extendsSchema])
  exact ⟨before, after, built, extended, (roots .query).2 rfl, (roots .mutation).1 "Mutation" rfl⟩

theorem root?_lost_to_linkAlone :
    GraphQL.Document.parse? linkAlone = some [.schema true []] ∧
    ∃ before after, ofTexts? [standardTypes] = some before ∧
      ofTexts? [standardTypes, { format := .document, text := linkAlone }] = some after ∧
      (before.root? .query).isSome = true ∧ after.root? .query = none := by
  have read : [standardTypes].mapM SourceText.read? = some [.document standardDefinitions] := by
    simp [read?_standardTypes]
  have readLink : SourceText.read? { format := .document, text := linkAlone } =
      some (.document [.schema true []]) := by
    simp [SourceText.read?, parse?_linkAlone]
  have readBoth : [standardTypes, { format := .document, text := linkAlone }].mapM SourceText.read? =
      some [.document standardDefinitions, .document [.schema true []]] := by
    simp [read?_standardTypes, readLink]
  refine ⟨parse?_linkAlone, _, _, ofTexts?_of_read read, ofTexts?_of_read readBoth, ?_, rfl⟩
  decide +kernel

end Link

end Schema

end FieldUsage
