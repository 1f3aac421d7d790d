import FieldUsage.Proofs.Schema.History
import FieldUsage.Proofs.Traversal
import FieldUsage.Schema.Source

/-!
What sources declare. A source that can be read is a list of definitions, or a list of entries with
roots, and each of these pieces brings the type of its fields before the fields. So no field of a
source is ever lost to a type that is not there yet, in whatever order the sources come.
-/

namespace FieldUsage.Schema

open GraphQL (OperationKind)

/-- A source that could be read. -/
inductive Source where
  | document (definitions : GraphQL.Document)
  | introspection (result : Introspection.Result)

/-- A source as it stands in a file. -/
structure SourceText where
  format : SourceFormat
  text : List Char

def SourceText.steps? (source : SourceText) : Option (List Step) :=
  Step.ofText? source.format source.text

/-- The schema of sources, if all of them can be read. -/
def ofTexts? (texts : List SourceText) : Option Schema := do
  let steps ← texts.mapM SourceText.steps?
  return ofSteps steps.flatten

def SourceText.read? (source : SourceText) : Option Source :=
  match source.format with
  | .document => (GraphQL.Document.parse? source.text).map .document
  | .introspection =>
      ((Json.parse? source.text).bind Introspection.Result.decode?).map .introspection

namespace Source

def steps : Source → List Step
  | .document definitions => definitions.steps
  | .introspection result => result.steps

/-- The schema of sources that were read. -/
def build (sources : List Source) : Schema :=
  ofSteps (sources.flatMap steps)

end Source

/-- Reading the steps of a source is reading the source. -/
theorem SourceText.steps?_eq (source : SourceText) :
    source.steps? = source.read?.map Source.steps := by
  obtain ⟨format, text⟩ := source
  unfold steps? read? Step.ofText?
  cases format with
  | document => cases GraphQL.Document.parse? text <;> rfl
  | introspection =>
      cases Json.parse? text with
      | none => rfl
      | some value =>
          simp only [Option.bind_eq_bind, Option.bind_some]
          cases Introspection.Result.decode? value <;> rfl

theorem Step.ofText?_eq (format : SourceFormat) (text : List Char) :
    Step.ofText? format text = (SourceText.read? ⟨format, text⟩).map Source.steps :=
  SourceText.steps?_eq ⟨format, text⟩

theorem mapM_steps?_of_read {texts : List SourceText} {sources : List Source}
    (read : texts.mapM SourceText.read? = some sources) :
    texts.mapM SourceText.steps? = some (sources.map Source.steps) := by
  rw [mapM_eq_some_iff] at read ⊢
  have each := congrArg (List.map (Option.map Source.steps)) read
  simp only [List.map_map] at each
  rw [funext SourceText.steps?_eq, List.map_map]
  exact each

theorem exists_read_of_mem {texts : List SourceText} {sources : List Source}
    (read : texts.mapM SourceText.read? = some sources) {source : Source}
    (among : source ∈ sources) : ∃ text ∈ texts, text.read? = some source := by
  rw [mapM_eq_some_iff] at read
  have found : some source ∈ texts.map SourceText.read? := read ▸ List.mem_map_of_mem among
  exact List.mem_map.1 found

/-- Sources that can all be read give the schema of what was read. -/
theorem ofTexts?_of_read {texts : List SourceText} {sources : List Source}
    (read : texts.mapM SourceText.read? = some sources) :
    ofTexts? texts = some (Source.build sources) := by
  unfold ofTexts?
  rw [mapM_steps?_of_read read, Source.build, List.flatMap_def]
  rfl

/-! Fields come after their types. -/

/-- No field of a type comes before the first declaration of the type. -/
def Introduced (steps : List Step) : Prop :=
  ∀ type name,
    (steps.takeWhile (!·.declares type)).filterMap (·.addedField? type name) = []

theorem Introduced.nil : Introduced [] := fun _ _ => rfl

theorem Introduced.append {first second : List Step} (here : Introduced first)
    (there : Introduced second) : Introduced (first ++ second) := by
  intro type name
  rw [List.takeWhile_append]
  split
  · rw [List.filterMap_append, there, List.append_nil]
    have whole : first.takeWhile (!·.declares type) = first :=
      (List.takeWhile_prefix _).eq_of_length (by assumption)
    rw [← whole]
    exact here type name
  · exact here type name

theorem Introduced.flatMap {α : Type} {pieces : List α} {f : α → List Step}
    (each : ∀ piece ∈ pieces, Introduced (f piece)) : Introduced (pieces.flatMap f) := by
  induction pieces with
  | nil => exact .nil
  | cons first rest ih =>
      rw [List.flatMap_cons]
      obtain ⟨here, there⟩ := List.forall_mem_cons.1 each
      exact here.append (ih there)

/-- A declaration of a type, followed by fields of this type. -/
theorem Introduced.declaration {name : String} {first : Step} {fields : List Step}
    (declared : first.declares name = true)
    (own : ∀ step ∈ fields, ∃ field, step = .field name field) :
    Introduced (first :: fields) := by
  intro type field
  rw [List.takeWhile_cons]
  split
  case isFalse => rfl
  case isTrue other =>
    have differs : name ≠ type := by
      rintro rfl
      simp [declared] at other
    rw [List.filterMap_eq_nil_iff]
    intro step member
    rcases List.mem_cons.1 member with rfl | member
    · cases step with
      | define | extend | roots | root => rfl
      | field => cases declared
    · obtain ⟨added, rfl⟩ := own step ((List.takeWhile_subset _) member)
      simp [differs]

/-- Steps that declare no type and no field. -/
theorem Introduced.of_declaresRoots {steps : List Step}
    (quiet : ∀ step ∈ steps, step.declaresRoots = true) : Introduced steps := by
  intro type name
  rw [List.filterMap_eq_nil_iff]
  intro step member
  have roots := quiet step ((List.takeWhile_subset _) member)
  cases step with
  | roots | root => rfl
  | define | extend | field => cases roots

/-- The steps that declare roots. -/
theorem declaresRoots_of_mem {roots : List (OperationKind × String)} {step : Step}
    (member : step ∈ Step.roots :: roots.map fun (kind, name) => .root kind name) :
    step.declaresRoots = true := by
  rcases List.mem_cons.1 member with rfl | member
  · rfl
  · obtain ⟨root, -, rfl⟩ := List.mem_map.1 member
    rfl

theorem introduced_definition (definition : GraphQL.Definition) :
    Introduced definition.steps := by
  have own (name : String) (fields : List GraphQL.FieldDef) :
      ∀ step ∈ fields.map fun field =>
        Step.field name { name := field.name, type := .ofExpr field.type },
      ∃ field, step = .field name field := by
    intro step member
    obtain ⟨field, -, rfl⟩ := List.mem_map.1 member
    exact ⟨_, rfl⟩
  cases definition with
  | operation | fragment | directive => exact .nil
  | schema extends_ roots => exact .of_declaresRoots fun _ member => declaresRoots_of_mem member
  | type extends_ kind name fields =>
      have declared (extends_ : Bool) :
          (if extends_ then Step.extend name kind else .define name kind).declares name = true := by
        cases extends_ <;> simp [Step.declares]
      cases extends_ with
      | false => exact .declaration (declared false) (own name fields)
      | true =>
          cases kind with
          | scalar => exact .nil
          | object | interface | union | enum | inputObject =>
              exact .declaration (declared true) (own name fields)

theorem introduced_entry (entry : Introspection.TypeEntry) : Introduced entry.steps := by
  unfold Introspection.TypeEntry.steps
  split
  case h_2 => exact .nil
  case h_1 kind same =>
    have declared : (Step.define entry.name kind).declares entry.name = true := by
      simp [Step.declares]
    refine .declaration declared ?_
    intro step member
    obtain ⟨field, -, found⟩ := List.mem_filterMap.1 member
    obtain ⟨type, -, rfl⟩ := Option.map_eq_some_iff.1 found
    exact ⟨_, rfl⟩

theorem introduced_source (source : Source) : Introduced source.steps := by
  cases source with
  | document document => exact .flatMap fun definition _ => introduced_definition definition
  | introspection result =>
      exact .append (.flatMap fun entry _ => introduced_entry entry)
        (.of_declaresRoots fun _ member => declaresRoots_of_mem member)

/-- In all sources, types are declared before their fields. -/
theorem introduced_sources (sources : List Source) :
    Introduced (sources.flatMap Source.steps) :=
  .flatMap fun source _ => introduced_source source

/-- Where no field comes too early, all fields of a name count, and the last one is taken. -/
theorem Introduced.declaredField?_eq {steps : List Step} (introduced : Introduced steps)
    (type name : String) :
    declaredField? steps type name = (steps.filterMap (·.addedField? type name)).getLast? := by
  have parts := List.takeWhile_append_dropWhile (p := (!·.declares type)) (l := steps)
  unfold declaredField?
  conv_rhs => rw [← parts, List.filterMap_append, introduced type name, List.nil_append]

end FieldUsage.Schema
