import FieldUsage.Proofs.Resolution
import Mathlib

/-!
Points of a document without a type. Where the rules give no type, they give none further down
either, so the selections below such a point have no part in what a search finds. The types that
the rules do give are types with selections, so a field of another type is never found.
-/

namespace FieldUsage

open GraphQL (Definition Document OperationKind Selection)

namespace Schema

variable {schema : Schema}

/-- The type at a point of a document, by the way that leads there from its definition. -/
def Reaches (schema : Schema) (origin : Origin) (path : List Enclosing) (name : String) : Prop :=
  ∃ first, schema.Starts origin first ∧ schema.Leads first path name

/-- A point of a document without a type. -/
def Lost (schema : Schema) (origin : Origin) (path : List Enclosing) : Prop :=
  ∀ name, ¬schema.Reaches origin path name

/-- Why a definition starts at no type. -/
inductive StartsNowhere (schema : Schema) : Origin → Prop where
  | noRoot {kind : OperationKind} : schema.roots kind = none → StartsNowhere schema (.operation kind)
  | root {kind : OperationKind} {name : String} :
      schema.roots kind = some name → ¬schema.Composite name →
        StartsNowhere schema (.operation kind)
  | condition {name : String} : ¬schema.Composite name → StartsNowhere schema (.fragment name)

/-- Why a selection on a type leads to no type. -/
inductive Breaks (schema : Schema) (parent : String) : Enclosing → Prop where
  | unknownField {name : String} :
      name ≠ "__typename" → (∀ result, ¬schema.Declares parent name result) →
        Breaks schema parent (.field name)
  | leafField {name result : String} :
      name ≠ "__typename" → schema.Declares parent name result → ¬schema.Composite result →
        Breaks schema parent (.field name)
  | typename : ¬schema.Composite "String" → Breaks schema parent (.field "__typename")
  | condition {name : String} :
      ¬schema.Composite name → Breaks schema parent (.inline (some name))

/-- The reasons why a definition starts at no type are all there are. -/
theorem startsNowhere_iff {origin : Origin} :
    schema.StartsNowhere origin ↔ ∀ first, ¬schema.Starts origin first := by
  constructor
  · intro nowhere first starts
    cases starts with
    | operation recorded composite =>
        cases nowhere with
        | noRoot missing => simp [missing] at recorded
        | root other leaf =>
            obtain rfl := Option.some.inj (other.symm.trans recorded)
            exact leaf composite
    | fragment composite =>
        cases nowhere with
        | condition leaf => exact leaf composite
  · intro none
    cases origin with
    | operation kind =>
        cases recorded : schema.roots kind with
        | none => exact .noRoot recorded
        | some name => exact .root recorded fun composite => none name (.operation recorded composite)
    | fragment name => exact .condition fun composite => none name (.fragment composite)

theorem declares_unique {parent field first second : String}
    (here : schema.Declares parent field first) (there : schema.Declares parent field second) :
    first = second := by
  obtain ⟨type, found, stored, declared, rfl⟩ := here
  obtain ⟨other, found', stored', declared', rfl⟩ := there
  obtain rfl := Option.some.inj (stored.symm.trans stored')
  obtain rfl := Option.some.inj (declared.symm.trans declared')
  rfl

theorem enters_unique {parent first second : String} {step : Enclosing}
    (here : schema.Enters parent step first) (there : schema.Enters parent step second) :
    first = second := by
  cases here with
  | typename =>
      cases there with
      | typename => rfl
      | field other => exact absurd rfl other
  | field other declares =>
      cases there with
      | typename => exact absurd rfl other
      | field _ declares' => exact declares_unique declares declares'
  | condition =>
      cases there with
      | condition => rfl
  | noCondition =>
      cases there with
      | noCondition => rfl

/-- The reasons why a selection leads to no type are all there are. -/
theorem breaks_iff {parent : String} {step : Enclosing} :
    schema.Breaks parent step ↔ ∀ next, ¬schema.Enters parent step next := by
  constructor
  · intro breaks next enters
    cases enters with
    | typename composite =>
        cases breaks with
        | unknownField other => exact other rfl
        | leafField other => exact other rfl
        | typename leaf => exact leaf composite
    | field other declares composite =>
        cases breaks with
        | unknownField _ unknown => exact unknown next declares
        | leafField _ declares' leaf => exact leaf (declares_unique declares declares' ▸ composite)
        | typename => exact other rfl
    | condition composite =>
        cases breaks with
        | condition leaf => exact leaf composite
    | noCondition => cases breaks
  · intro none
    cases step with
    | field name =>
        by_cases same : name = "__typename"
        · subst same
          exact .typename fun composite => none _ (.typename composite)
        · by_cases declared : ∃ result, schema.Declares parent name result
          · obtain ⟨result, declares⟩ := declared
            exact .leafField same declares fun composite => none _ (.field same declares composite)
          · exact .unknownField same (not_exists.1 declared)
    | inline condition =>
        cases condition with
        | some name => exact .condition fun composite => none _ (.condition composite)
        | none => exact absurd .noCondition (none parent)

theorem leads_cons_iff {first last : String} {step : Enclosing} {rest : List Enclosing} :
    schema.Leads first (step :: rest) last ↔
      ∃ next, schema.Enters first step next ∧ schema.Leads next rest last := by
  constructor
  · intro leads
    cases leads with
    | enter enters leads => exact ⟨_, enters, leads⟩
  · rintro ⟨next, enters, leads⟩
    exact .enter enters leads

theorem leads_append_iff {first last : String} {before after : List Enclosing} :
    schema.Leads first (before ++ after) last ↔
      ∃ middle, schema.Leads first before middle ∧ schema.Leads middle after last := by
  induction before generalizing first with
  | nil =>
      constructor
      · intro leads
        exact ⟨first, .here, leads⟩
      · rintro ⟨middle, here, leads⟩
        cases here
        exact leads
  | cons step rest ih =>
      simp only [List.cons_append, leads_cons_iff, ih]
      constructor
      · rintro ⟨next, enters, middle, leads, leads'⟩
        exact ⟨middle, ⟨next, enters, leads⟩, leads'⟩
      · rintro ⟨middle, ⟨next, enters, leads⟩, leads'⟩
        exact ⟨next, enters, middle, leads, leads'⟩

/-- A way leads to one type at most. -/
theorem leads_unique {first here there : String} {path : List Enclosing}
    (leads : schema.Leads first path here) (leads' : schema.Leads first path there) :
    here = there := by
  induction leads with
  | here =>
      cases leads'
      rfl
  | enter enters _ ih =>
      obtain ⟨next, enters', leads'⟩ := leads_cons_iff.1 leads'
      obtain rfl := enters_unique enters enters'
      exact ih leads'

/-- A way from a type leads nowhere exactly if some selection on it does. -/
theorem leads_nowhere_iff {first : String} {path : List Enclosing} :
    (∀ last, ¬schema.Leads first path last) ↔
      ∃ before step after parent, path = before ++ step :: after ∧
        schema.Leads first before parent ∧ schema.Breaks parent step := by
  constructor
  · intro nowhere
    induction path generalizing first with
    | nil => exact absurd .here (nowhere first)
    | cons step rest ih =>
        by_cases entered : ∃ next, schema.Enters first step next
        · obtain ⟨next, enters⟩ := entered
          obtain ⟨before, failing, after, parent, rfl, leads, breaks⟩ :=
            ih fun last leads => nowhere last (.enter enters leads)
          exact ⟨step :: before, failing, after, parent, rfl, .enter enters leads, breaks⟩
        · exact ⟨[], step, rest, first, rfl, .here, breaks_iff.2 (not_exists.1 entered)⟩
  · rintro ⟨before, step, after, parent, rfl, leads, breaks⟩ last whole
    obtain ⟨middle, leads', rest⟩ := leads_append_iff.1 whole
    obtain rfl := leads_unique leads leads'
    obtain ⟨next, enters, -⟩ := leads_cons_iff.1 rest
    exact breaks_iff.1 breaks next enters

/-- A point is without a type exactly if its definition starts at none, or a selection around it
leads to none. -/
theorem lost_iff {origin : Origin} {path : List Enclosing} :
    schema.Lost origin path ↔
      schema.StartsNowhere origin ∨
        ∃ before step after parent, path = before ++ step :: after ∧
          schema.Reaches origin before parent ∧ schema.Breaks parent step := by
  constructor
  · intro lost
    by_cases started : ∃ first, schema.Starts origin first
    · obtain ⟨first, starts⟩ := started
      obtain ⟨before, step, after, parent, split, leads, breaks⟩ :=
        leads_nowhere_iff.1 fun last leads => lost last ⟨first, starts, leads⟩
      exact .inr ⟨before, step, after, parent, split, ⟨first, starts, leads⟩, breaks⟩
    · exact .inl (startsNowhere_iff.2 (not_exists.1 started))
  · rintro (nowhere | ⟨before, step, after, parent, split, ⟨first, starts, leads⟩, breaks⟩)
    · rintro last ⟨first, starts, -⟩
      exact startsNowhere_iff.1 nowhere first starts
    · rintro last ⟨first', starts', whole⟩
      obtain rfl : first = first' := by
        have begun := Scope.name_start_iff.2 starts
        exact Option.some.inj (begun.symm.trans (Scope.name_start_iff.2 starts'))
      exact leads_nowhere_iff.2 ⟨before, step, after, parent, split, leads, breaks⟩ last whole

/-- What is below a lost point is lost. -/
theorem Lost.append {origin : Origin} {path : List Enclosing} (lost : schema.Lost origin path)
    (more : List Enclosing) : schema.Lost origin (path ++ more) := by
  rintro name ⟨first, starts, leads⟩
  obtain ⟨middle, leads, -⟩ := leads_append_iff.1 leads
  exact lost middle ⟨first, starts, leads⟩

/-- The relation of lost points is what the walk computes. -/
theorem lost_iff_follow {origin : Origin} {path : List Enclosing} :
    schema.Lost origin path ↔ Scope.follow schema (.start schema origin) path = none := by
  unfold Lost Reaches
  simp only [← Scope.name_follow_start_iff]
  cases Scope.follow schema (.start schema origin) path <;> simp

instance (schema : Schema) (origin : Origin) (path : List Enclosing) :
    Decidable (schema.Lost origin path) :=
  decidable_of_iff _ lost_iff_follow.symm

theorem composite_iff_onType {name : String} :
    schema.Composite name ↔ (Scope.onType schema name).isSome = true := by
  constructor
  · intro composite
    have found := Scope.name_onType_iff.2 ⟨composite, rfl⟩
    rw [← Option.isSome_map, found, Option.isSome_some]
  · intro found
    obtain ⟨type, found⟩ := Option.isSome_iff_exists.1 found
    exact (Scope.name_onType_iff.1 (congrArg _ found)).1

instance (schema : Schema) (name : String) : Decidable (schema.Composite name) :=
  decidable_of_iff _ composite_iff_onType.symm

/-- Only types with selections are ever reached. -/
theorem Reaches.composite {origin : Origin} {path : List Enclosing} {name : String}
    (reached : schema.Reaches origin path name) : schema.Composite name := by
  obtain ⟨first, starts, leads⟩ := reached
  have begins : schema.Composite first := by
    cases starts with
    | operation _ composite => exact composite
    | fragment composite => exact composite
  clear starts
  induction leads with
  | here => exact begins
  | enter enters _ ih =>
      apply ih
      cases enters with
      | typename composite => exact composite
      | field _ _ composite => exact composite
      | condition composite => exact composite
      | noCondition => exact begins

end Schema

namespace Scope

variable {schema : Schema}

/-- The scopes from which a run of scopes starts. -/
inductive Initial (schema : Schema) : Scope → Prop where
  | lost : Initial schema none
  | onType (name : String) : Initial schema (.onType schema name)
  | definition (origin : Origin) : Initial schema (.start schema origin)

theorem Initial.within {scope : Scope} (initial : Initial schema scope) :
    scope.Within schema := by
  cases initial with
  | lost => exact nofun
  | onType name => exact onType_within schema name
  | definition origin => exact start_within schema origin

/-- A scope stays within the schema along every way. -/
theorem follow_within {scope : Scope} (within : scope.Within schema) (path : List Enclosing) :
    (scope.follow schema path).Within schema := by
  induction path generalizing scope with
  | nil => exact within
  | cons step rest ih => exact ih (enter_within within step)

theorem follow_append (schema : Schema) (scope : Scope) (before after : List Enclosing) :
    scope.follow schema (before ++ after) = (scope.follow schema before).follow schema after := by
  induction before generalizing scope with
  | nil => rfl
  | cons step rest ih => exact ih (scope.enter schema step)

end Scope

/-- A selection around some selections. -/
def Enclosing.around : Enclosing → List Selection → Selection
  | .field name, inner => .field name inner
  | .inline condition, inner => .inline condition inner

/-- A selection that is open inside, with the selections beside it. -/
structure Frame where
  before : List Selection
  step : Enclosing
  after : List Selection

/-- Puts selections into the innermost of some frames, of which the first is the outermost. -/
def Frame.fill : List Frame → List Selection → List Selection
  | [], inner => inner
  | frame :: rest, inner => frame.before ++ frame.step.around (fill rest inner) :: frame.after

/-- What a definition says besides its selections. -/
inductive Heading where
  | operation (kind : OperationKind) (name : Option String)
  | fragment (name condition : String)

def Heading.origin : Heading → Origin
  | .operation kind _ => .operation kind
  | .fragment _ condition => .fragment condition

def Heading.definition : Heading → List Selection → Definition
  | .operation kind name, selections => .operation kind name selections
  | .fragment name condition, selections => .fragment name condition selections

/-- A document from which the selections below one point are taken out. -/
structure Gap where
  before : List Definition
  heading : Heading
  frames : List Frame
  after : List Definition

namespace Gap

/-- The way to the point. -/
def path (gap : Gap) : List Enclosing := gap.frames.map (·.step)

/-- The document with selections below the point. -/
def fill (gap : Gap) (inner : List Selection) : Document :=
  gap.before ++ gap.heading.definition (Frame.fill gap.frames inner) :: gap.after

end Gap

/-- A field with more selections around everything. -/
def FieldPath.below (path : List Enclosing) (field : FieldPath) : FieldPath :=
  { field with path := path ++ field.path }

namespace GraphQL

theorem Selection.fieldPathsIn_append (first second : List Selection) :
    Selection.fieldPathsIn (first ++ second) =
      Selection.fieldPathsIn first ++ Selection.fieldPathsIn second := by
  induction first with
  | nil => rw [List.nil_append, Selection.fieldPathsIn, List.nil_append]
  | cons selection rest ih =>
      rw [List.cons_append, Selection.fieldPathsIn, Selection.fieldPathsIn, ih, List.append_assoc]

/-- Around a selection there is at most one more field, the one that encloses it. -/
theorem Selection.fieldPaths_around (step : Enclosing) :
    ∃ before, ∀ inner, (step.around inner).fieldPaths =
      before ++ (Selection.fieldPathsIn inner).map (.inside step) := by
  cases step with
  | field name =>
      refine ⟨[{ path := [], name }], fun inner => ?_⟩
      rw [Enclosing.around, Selection.fieldPaths, List.singleton_append]
  | inline condition =>
      refine ⟨[], fun inner => ?_⟩
      rw [Enclosing.around, Selection.fieldPaths, List.nil_append]

/-- The fields of filled frames are the ones put in, among others that are always the same. -/
theorem Selection.fieldPathsIn_fill (frames : List Frame) :
    ∃ before after, ∀ inner, Selection.fieldPathsIn (Frame.fill frames inner) =
      before ++ (Selection.fieldPathsIn inner).map (.below (frames.map (·.step))) ++ after := by
  induction frames with
  | nil =>
      refine ⟨[], [], fun inner => ?_⟩
      have same : FieldPath.below [] = id := rfl
      rw [Frame.fill, List.map_nil, same, List.map_id, List.nil_append, List.append_nil]
  | cons frame rest ih =>
      obtain ⟨before, after, filled⟩ := ih
      obtain ⟨own, enclosed⟩ := Selection.fieldPaths_around frame.step
      refine ⟨Selection.fieldPathsIn frame.before ++ own ++ before.map (.inside frame.step),
        after.map (.inside frame.step) ++ Selection.fieldPathsIn frame.after, fun inner => ?_⟩
      have deeper : FieldPath.inside frame.step ∘ FieldPath.below (rest.map (·.step)) =
          FieldPath.below ((frame :: rest).map (·.step)) := rfl
      rw [Frame.fill, Selection.fieldPathsIn_append, Selection.fieldPathsIn, enclosed, filled]
      simp only [List.map_append, List.map_map, deeper, List.append_assoc]

theorem Definition.fieldNodes_heading (heading : Heading) (selections : List Selection) :
    (heading.definition selections).fieldNodes =
      (Selection.fieldPathsIn selections).map fun field =>
        { field with origin := heading.origin } := by
  cases heading <;> rfl

end GraphQL

namespace Gap

variable {schema : Schema}

/-- The fields below the point of a gap stand together, with the same fields around them whatever is
filled in. -/
theorem fieldNodes_fill (gap : Gap) :
    ∃ before after, ∀ inner, (gap.fill inner).fieldNodes =
      before ++ (Selection.fieldPathsIn inner).map (fun field =>
        { field.below gap.path with origin := gap.heading.origin }) ++ after := by
  obtain ⟨before, after, filled⟩ := Selection.fieldPathsIn_fill gap.frames
  refine ⟨gap.before.flatMap Definition.fieldNodes ++ before.map fun field =>
      { field with origin := gap.heading.origin },
    after.map (fun field => { field with origin := gap.heading.origin }) ++
      gap.after.flatMap Definition.fieldNodes, fun inner => ?_⟩
  unfold fill Document.fieldNodes
  rw [List.flatMap_append, List.flatMap_cons, Definition.fieldNodes_heading, filled]
  simp only [List.map_append, List.map_map, List.append_assoc]
  rfl

/-- No field below a lost point is a selection of a target. -/
theorem countP_fill (gap : Gap) (lost : schema.Lost gap.heading.origin gap.path) (target : Target)
    (inner inner' : List Selection) :
    (gap.fill inner').fieldNodes.countP (·.IsSelection schema target) =
      (gap.fill inner).fieldNodes.countP (·.IsSelection schema target) := by
  obtain ⟨before, after, filled⟩ := gap.fieldNodes_fill
  have none (selections : List Selection) :
      ((Selection.fieldPathsIn selections).map fun field =>
        ({ field.below gap.path with origin := gap.heading.origin } : FieldNode)).countP
          (·.IsSelection schema target) = 0 := by
    rw [List.countP_eq_zero]
    intro node member selection
    obtain ⟨field, -, rfl⟩ := List.mem_map.1 member
    obtain ⟨-, parent⟩ := of_decide_eq_true selection
    exact lost.append field.path target.typeName parent
  rw [filled, filled]
  simp only [List.countP_append, none]

theorem firstName_fill (gap : Gap) (inner inner' : List Selection) :
    (gap.fill inner').firstName = (gap.fill inner).firstName := by
  unfold fill Document.firstName
  cases gap.before with
  | nil => cases gap.heading <;> rfl
  | cons definition rest => rfl

/-- Below a lost point nothing is found, so what is filled in there changes no usage. -/
theorem search_fill (gap : Gap) (lost : schema.Lost gap.heading.origin gap.path) (target : Target)
    {inner inner' : List Selection} {literal : Literal} {raw : List Char}
    (parsed : Document.parse? literal.raw = some (gap.fill inner))
    (parsed' : Document.parse? raw = some (gap.fill inner')) :
    Literal.search { literal with raw } schema target = literal.search schema target := by
  rw [literal.search_eq_replicate schema target parsed,
    Literal.search_eq_replicate { literal with raw } schema target parsed',
    gap.countP_fill lost target inner inner']
  unfold Literal.usage
  rw [gap.firstName_fill inner inner']

end Gap

/-- A field of a type without selections is not used in any document. -/
theorem Literal.search_eq_nil {schema : Schema} {target : Target}
    (leaf : ¬schema.Composite target.typeName) {literal : Literal} {document : Document}
    (parsed : Document.parse? literal.raw = some document) :
    literal.search schema target = .ok [] := by
  have none : document.fieldNodes.countP (·.IsSelection schema target) = 0 := by
    rw [List.countP_eq_zero]
    intro node _ selection
    obtain ⟨-, parent⟩ := of_decide_eq_true selection
    exact leaf (Schema.Reaches.composite parent)
  rw [literal.search_eq_replicate schema target parsed, none, List.replicate_zero]

namespace Schema

/-- Along every run of scopes, from wherever it starts, the type is a type with selections that the
schema has under its own name, or it is lost, and then it stays lost. A point of a document is lost
exactly if its definition starts nowhere or some selection around it leads nowhere; other selections
below it change nothing in what a search finds. A field of a type without selections is not found in
any document. -/
theorem lost_absorbs (schema : Schema) :
    (∀ scope, Scope.Initial schema scope → ∀ before after : List Enclosing,
      (∀ type, scope.follow schema before = some type →
        schema.type? type.name = some type ∧
          (type.kind = .object ∨ type.kind = .interface ∨ type.kind = .union)) ∧
      (scope.follow schema before = none → scope.follow schema (before ++ after) = none)) ∧
    (∀ origin path, schema.Lost origin path ↔
      schema.StartsNowhere origin ∨
        ∃ before step after parent, path = before ++ step :: after ∧
          schema.Reaches origin before parent ∧ schema.Breaks parent step) ∧
    (∀ (gap : Gap) (inner inner' : List Selection) (literal : Literal) (raw : List Char)
      (target : Target), schema.Lost gap.heading.origin gap.path →
      Document.parse? literal.raw = some (gap.fill inner) →
      Document.parse? raw = some (gap.fill inner') →
      Literal.search { literal with raw } schema target = literal.search schema target) ∧
    (∀ (target : Target) (literal : Literal) (document : Document),
      ¬schema.Composite target.typeName → Document.parse? literal.raw = some document →
      literal.search schema target = .ok []) := by
  refine ⟨?_, fun origin path => lost_iff, ?_, ?_⟩
  · intro scope initial before after
    constructor
    · intro type here
      obtain ⟨stored, composite⟩ := Scope.follow_within initial.within before type here
      exact ⟨stored, (Scope.isComposite_iff type).1 composite⟩
    · intro lost
      rw [Scope.follow_append, lost, Scope.follow_none]
  · intro gap inner inner' literal raw target lost parsed parsed'
    exact gap.search_fill lost target parsed parsed'
  · intro target literal document leaf parsed
    exact Literal.search_eq_nil leaf parsed

/-- A schema with an input object. -/
def userSchema : Schema :=
  .ofSteps
    [.define "Query" .object, .field "Query" { name := "user", type := { name := "User" } },
     .define "User" .object, .field "User" { name := "id", type := { name := "ID" } },
     .define "Filter" .inputObject, .field "Filter" { name := "id", type := { name := "ID" } }]

/-- A query for the users, with a field beside them that the schema does not have. -/
def petsGap : Gap :=
  { before := []
    heading := .operation .query none
    frames := [{ before := [.field "user" [.field "id" []]], step := .field "pets", after := [] }]
    after := [] }

theorem parse?_pets_users :
    Document.parse? "\x7buser\x7bid\x7dpets\x7b...on User\x7bid\x7d\x7d\x7d".toList =
      some (petsGap.fill [.inline (some "User") [.field "id" []]]) := by
  cbv

theorem parse?_pets_alone :
    Document.parse? "\x7buser\x7bid\x7dpets\x7d".toList = some (petsGap.fill []) := by
  cbv

/-- Users below the unknown field are not counted, and the input object has the field in vain. -/
theorem lost_absorbs_pets :
    let literal : Literal :=
      { path := "a.ts"
        line := 1
        raw := "\x7buser\x7bid\x7dpets\x7b...on User\x7bid\x7d\x7d\x7d".toList }
    let alone : Literal := { literal with raw := "\x7buser\x7bid\x7dpets\x7d".toList }
    (∀ target, alone.search userSchema target = literal.search userSchema target) ∧
      Target.validate userSchema (some "Filter.id") =
        .ok { typeName := "Filter", fieldName := "id" } ∧
      literal.search userSchema { typeName := "Filter", fieldName := "id" } = .ok [] := by
  intro literal alone
  have ⟨_, _, replaced, unused⟩ := lost_absorbs userSchema
  refine ⟨fun target => ?_, by rfl, ?_⟩
  · exact replaced petsGap _ _ literal _ target (by decide +kernel) parse?_pets_users
      parse?_pets_alone
  · exact unused _ literal _ (by decide +kernel) parse?_pets_users

end Schema

end FieldUsage
