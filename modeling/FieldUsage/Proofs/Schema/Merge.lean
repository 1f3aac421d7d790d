import FieldUsage.Proofs.Dict
import FieldUsage.Proofs.Schema.Source
import Mathlib

/-!
Schemas do not depend on the order of their sources. Definitions may be moved within a source and
from one source to another, entries of introspection results likewise, and the schema stays the
same as long as no two declarations contradict each other: a type is defined once, or only extended
and always as the same kind; a field of a type is declared once, and so is each root.
-/

namespace FieldUsage.Schema

open GraphQL (OperationKind)

/-! Builders by what their steps declare. -/

theorem Builder.pending_congr {first second : Builder} {name : String}
    (kind : (first.types.get? name).map (·.kind) = (second.types.get? name).map (·.kind))
    (fields : ∀ field, first.field? name field = second.field? name field) :
    first.types.get? name = second.types.get? name := by
  unfold Builder.field? at fields
  cases here : first.types.get? name with
  | none =>
      rw [here, Option.map_none, eq_comm, Option.map_eq_none_iff] at kind
      exact kind.symm
  | some pending =>
      rw [here, Option.map_some, eq_comm, Option.map_eq_some_iff] at kind
      obtain ⟨other, there, same⟩ := kind
      rw [there, Option.some.injEq]
      obtain ⟨kind, dict, keyed⟩ := pending
      obtain ⟨otherKind, otherDict, otherKeyed⟩ := other
      obtain rfl : otherKind = kind := same
      obtain rfl : dict = otherDict := Dict.ext_get? fun field => by
        simpa [here, there] using fields field
      rfl

section SameDeclarations

variable {first second : List Step}
  (kinds : ∀ name, declaredKind? first name = declaredKind? second name)
  (fields : ∀ type name, declaredField? first type name = declaredField? second type name)
  (rootsDeclared : first.any Step.declaresRoots = second.any Step.declaresRoots)
  (roots : ∀ operation, namedRoot? first operation = namedRoot? second operation)
include kinds fields rootsDeclared roots

/-- Steps that say the same of every type, field and root leave the same builder. -/
theorem Builder.run_congr : run {} first = run {} second := by
  have types : (run {} first).types = (run {} second).types := by
    apply Dict.ext_get?
    intro name
    apply pending_congr
    · rw [kind_run, kind_run, kinds]
    · intro field
      rw [field?_run, field?_run, fields]
  have names : (run {} first).roots = (run {} second).roots := by
    funext operation
    rw [roots_run, roots_run, roots]
  have declared : (run {} first).rootsDeclared = (run {} second).rootsDeclared := by
    rw [rootsDeclared_run, rootsDeclared_run, rootsDeclared]
  generalize run {} first = left at types names declared ⊢
  generalize run {} second = right at types names declared ⊢
  cases left
  cases right
  simp_all

/-- Declarations with the same kinds, fields and roots build the same schema. -/
theorem ofSteps_congr : ofSteps first = ofSteps second :=
  congrArg Builder.build (Builder.run_congr kinds fields rootsDeclared roots)

end SameDeclarations

/-! Moving declarations from one place to another. -/

namespace Source

def definitions : Source → List GraphQL.Definition
  | .document definitions => definitions
  | .introspection _ => []

def entries : Source → List Introspection.TypeEntry
  | .document _ => []
  | .introspection result => result.types

/-- The roots that an introspection result names. -/
def roots : Source → List (OperationKind × String)
  | .document _ => []
  | .introspection result => result.roots

def isIntrospection : Source → Bool
  | .document _ => false
  | .introspection _ => true

end Source

/-- The same definitions, entries and roots, in any order and in any number of sources. An
introspection result declares that there are roots even if it names none. -/
structure Rearranged (first second : List Source) : Prop where
  definitions : (first.flatMap Source.definitions).Perm (second.flatMap Source.definitions)
  entries : (first.flatMap Source.entries).Perm (second.flatMap Source.entries)
  roots : (first.flatMap Source.roots).Perm (second.flatMap Source.roots)
  introspection : first.any Source.isIntrospection = second.any Source.isIntrospection

/-- No two declarations contradict each other. -/
structure Consistent (steps : List Step) : Prop where
  /-- A type is defined once, or it is not defined and all its extensions are of one kind. -/
  kinds : ∀ name,
    (steps.filterMap (·.definedKind? name)).length = 1 ∨
      steps.filterMap (·.definedKind? name) = [] ∧
        ∀ kind ∈ steps.filterMap (·.extendedKind? name),
          ∀ other ∈ steps.filterMap (·.extendedKind? name), kind = other
  fields : ∀ type name, (steps.filterMap (·.addedField? type name)).length ≤ 1
  roots : ∀ operation, (steps.filterMap (·.rootName? operation)).length ≤ 1

def rootStep (root : OperationKind × String) : Step := .root root.1 root.2

section Selecting

variable {α : Type} (f : Step → Option α)

/-- What a source holds of some sort of declaration, by the pieces of the source. -/
theorem filterMap_source (unmarked : f .roots = none) (source : Source) :
    source.steps.filterMap f =
      source.definitions.flatMap (·.steps.filterMap f) ++
        (source.entries.flatMap (·.steps.filterMap f) ++
          source.roots.filterMap (f ∘ rootStep)) := by
  cases source with
  | document definitions =>
      simp [Source.steps, GraphQL.Document.steps, Source.definitions, Source.entries, Source.roots,
        List.filterMap_flatMap]
  | introspection result =>
      simp only [Source.steps, Introspection.Result.steps, Source.definitions, Source.entries,
        Source.roots, List.filterMap_append, List.filterMap_flatMap, List.flatMap_nil,
        List.nil_append, List.filterMap_cons_none unmarked, List.filterMap_map]
      rfl

/-- Sources hold the declarations of their definitions, of their entries and of their roots. -/
theorem filterMap_sources_perm (unmarked : f .roots = none) (sources : List Source) :
    ((sources.flatMap Source.steps).filterMap f).Perm
      ((sources.flatMap Source.definitions).flatMap (·.steps.filterMap f) ++
        ((sources.flatMap Source.entries).flatMap (·.steps.filterMap f) ++
          (sources.flatMap Source.roots).filterMap (f ∘ rootStep))) := by
  rw [List.filterMap_flatMap, funext (filterMap_source f unmarked), List.flatMap_assoc,
    List.flatMap_assoc, List.filterMap_flatMap]
  refine (List.flatMap_append_perm sources _ _).symm.trans (.append_left _ ?_)
  exact (List.flatMap_append_perm sources _ _).symm

/-- What is taken from the declarations one by one comes in another order at most. -/
theorem Rearranged.filterMap_perm (unmarked : f .roots = none) {first second : List Source}
    (rearranged : Rearranged first second) :
    ((first.flatMap Source.steps).filterMap f).Perm
      ((second.flatMap Source.steps).filterMap f) := by
  refine (filterMap_sources_perm f unmarked first).trans
    (.trans ?_ (filterMap_sources_perm f unmarked second).symm)
  exact .append (rearranged.definitions.flatMap_right _)
    (.append (rearranged.entries.flatMap_right _) (rearranged.roots.filterMap _))

end Selecting

theorem any_declaresRoots_source (source : Source) :
    source.steps.any Step.declaresRoots =
      (source.isIntrospection || source.definitions.any (·.steps.any Step.declaresRoots)) := by
  cases source with
  | document definitions =>
      rw [Source.steps, GraphQL.Document.steps, List.any_flatMap]
      rfl
  | introspection result =>
      simp [Source.steps, Introspection.Result.steps, Source.isIntrospection]

theorem any_declaresRoots_sources (sources : List Source) :
    (sources.flatMap Source.steps).any Step.declaresRoots =
      (sources.any Source.isIntrospection ||
        (sources.flatMap Source.definitions).any (·.steps.any Step.declaresRoots)) := by
  rw [List.any_flatMap, List.any_flatMap, funext any_declaresRoots_source, Bool.eq_iff_iff]
  simp only [Bool.or_eq_true, List.any_eq_true, and_or_left, exists_or]

theorem Rearranged.any_declaresRoots {first second : List Source}
    (rearranged : Rearranged first second) :
    (first.flatMap Source.steps).any Step.declaresRoots =
      (second.flatMap Source.steps).any Step.declaresRoots := by
  rw [any_declaresRoots_sources, any_declaresRoots_sources, rearranged.introspection,
    rearranged.definitions.any_eq]

/-! Declarations of which there is one have no order. -/

theorem eq_of_perm_of_length_le_one {α : Type} {first second : List α} (perm : first.Perm second)
    (short : first.length ≤ 1) : first = second := by
  match first, short with
  | [], _ => exact (List.nil_perm.1 perm).symm
  | [value], _ => exact perm.symm.eq_singleton.symm

/-- If all values are alike, it does not matter which one comes first. -/
theorem head?_eq_of_perm {α : Type} {first second : List α} (perm : first.Perm second)
    (alike : ∀ value ∈ first, ∀ other ∈ first, value = other) : first.head? = second.head? := by
  cases first with
  | nil => rw [List.nil_perm.1 perm]
  | cons value rest =>
      cases second with
      | nil => cases List.perm_nil.1 perm
      | cons other more =>
          have member : other ∈ value :: rest := perm.mem_iff.2 List.mem_cons_self
          rw [List.head?_cons, List.head?_cons, alike value List.mem_cons_self other member]

/-- In any order the same kinds are declared. -/
theorem Rearranged.declaredKind?_eq {first second : List Source}
    (rearranged : Rearranged first second)
    (consistent : Consistent (first.flatMap Source.steps)) (name : String) :
    declaredKind? (first.flatMap Source.steps) name =
      declaredKind? (second.flatMap Source.steps) name := by
  have defined := rearranged.filterMap_perm (·.definedKind? name) rfl
  have extended := rearranged.filterMap_perm (·.extendedKind? name) rfl
  unfold declaredKind?
  rcases consistent.kinds name with once | ⟨never, alike⟩
  · rw [← eq_of_perm_of_length_le_one defined once.le]
    obtain ⟨kind, only⟩ := List.length_eq_one_iff.1 once
    rw [only]
    rfl
  · rw [never] at defined ⊢
    rw [List.nil_perm.1 defined, head?_eq_of_perm extended alike]

/-- In any order the same fields are declared. -/
theorem Rearranged.declaredField?_eq {first second : List Source}
    (rearranged : Rearranged first second)
    (consistent : Consistent (first.flatMap Source.steps)) (type name : String) :
    declaredField? (first.flatMap Source.steps) type name =
      declaredField? (second.flatMap Source.steps) type name := by
  have added := rearranged.filterMap_perm (·.addedField? type name) rfl
  rw [(introduced_sources first).declaredField?_eq, (introduced_sources second).declaredField?_eq,
    eq_of_perm_of_length_le_one added (consistent.fields type name)]

/-- In any order the same roots are named. -/
theorem Rearranged.namedRoot?_eq {first second : List Source}
    (rearranged : Rearranged first second)
    (consistent : Consistent (first.flatMap Source.steps)) (operation : OperationKind) :
    namedRoot? (first.flatMap Source.steps) operation =
      namedRoot? (second.flatMap Source.steps) operation := by
  have named := rearranged.filterMap_perm (·.rootName? operation) rfl
  unfold namedRoot?
  rw [eq_of_perm_of_length_le_one named (consistent.roots operation)]

/-- Sources without contradictions give one schema, however their declarations are ordered and
divided among sources: an extension may come before what it extends, or stand in another source. -/
theorem ofTexts?_eq_of_rearranged {first second : List SourceText} {sources others : List Source}
    (read : first.mapM SourceText.read? = some sources)
    (readOther : second.mapM SourceText.read? = some others)
    (rearranged : Rearranged sources others)
    (consistent : Consistent (sources.flatMap Source.steps)) :
    ∃ schema, ofTexts? first = some schema ∧ ofTexts? second = some schema := by
  have same : Source.build sources = Source.build others :=
    ofSteps_congr (rearranged.declaredKind?_eq consistent)
      (rearranged.declaredField?_eq consistent) rearranged.any_declaresRoots
      (rearranged.namedRoot?_eq consistent)
  refine ⟨Source.build sources, ofTexts?_of_read read, ?_⟩
  rw [same]
  exact ofTexts?_of_read readOther

section Users

set_option maxRecDepth 4000

def userExtension : GraphQL.Definition :=
  .type true .object "User" [{ name := "id", type := .nonNull (.named "ID") }]

def queryDefinition : GraphQL.Definition :=
  .type false .object "Query" [{ name := "user", type := .named "User" }]

def userResult : Introspection.Result :=
  { roots := [(.query, "Query")], types := [{ kind := .type .object, name := "User" }] }

/-- An extension that comes before the type it extends. -/
def extensionFirst : SourceText :=
  { format := .document
    text := "extend type User\x7bid:ID!\x7dtype Query\x7buser:User\x7d".toList }

theorem read?_extensionFirst :
    extensionFirst.read? = some (.document [userExtension, queryDefinition]) := by cbv

def userIntrospection : SourceText :=
  { format := .introspection
    text :=
      ("\x7b\"__schema\":\x7b\"queryType\":\x7b\"name\":\"Query\"\x7d,\"types\":" ++
        "[\x7b\"kind\":\"OBJECT\",\"name\":\"User\"\x7d]\x7d\x7d").toList }

theorem read?_userIntrospection : userIntrospection.read? = some (.introspection userResult) := by
  cbv

def queryAlone : SourceText :=
  { format := .document, text := "type Query\x7buser:User\x7d".toList }

theorem read?_queryAlone : queryAlone.read? = some (.document [queryDefinition]) := by cbv

def extensionLast : SourceText :=
  { format := .document, text := "extend type User\x7bid:ID!\x7d".toList }

theorem read?_extensionLast : extensionLast.read? = some (.document [userExtension]) := by cbv

def userSteps : List Step :=
  [.extend "User" .object,
    .field "User" { name := "id", type := { name := "ID", isNonNull := true } },
    .define "Query" .object, .field "Query" { name := "user", type := { name := "User" } },
    .define "User" .object, .roots, .root .query "Query"]

theorem steps_users :
    [.document [userExtension, queryDefinition], .introspection userResult].flatMap Source.steps =
      userSteps := by
  cbv

theorem consistent_userSteps : Consistent userSteps where
  kinds name := by
    by_cases user : "User" = name
    · subst user
      simp [userSteps]
    · by_cases query : "Query" = name
      · subst query
        simp [userSteps]
      · simp [userSteps, user, query]
  fields type name := by
    by_cases user : "User" = type
    · subst user
      by_cases id : "id" = name <;> simp [userSteps, id]
    · by_cases query : "Query" = type ∧ "user" = name <;> simp [userSteps, user, query]
  roots operation := by cases operation <;> decide

theorem ofTexts?_users :
    ∃ schema, ofTexts? [extensionFirst, userIntrospection] = some schema ∧
      ofTexts? [userIntrospection, queryAlone, extensionLast] = some schema := by
  have read : [extensionFirst, userIntrospection].mapM SourceText.read? =
      some [.document [userExtension, queryDefinition], .introspection userResult] := by
    simp [read?_extensionFirst, read?_userIntrospection]
  have readOther : [userIntrospection, queryAlone, extensionLast].mapM SourceText.read? =
      some [.introspection userResult, .document [queryDefinition], .document [userExtension]] := by
    simp [read?_userIntrospection, read?_queryAlone, read?_extensionLast]
  have rearranged : Rearranged
      [.document [userExtension, queryDefinition], .introspection userResult]
      [.introspection userResult, .document [queryDefinition], .document [userExtension]] :=
    { definitions := .swap .., entries := .refl _, roots := .refl _, introspection := rfl }
  refine ofTexts?_eq_of_rearranged read readOther rearranged ?_
  rw [steps_users]
  exact consistent_userSteps

end Users

end FieldUsage.Schema
