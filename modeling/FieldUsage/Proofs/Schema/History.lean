import FieldUsage.Schema.Builder
import Mathlib.Data.List.Induction
import Mathlib.Data.List.TakeWhile

/-!
What a sequence of declarations says. The builder keeps only what counts so far; here the same is
read off the whole sequence: the last definition of a type, its first extension, the last of the
fields that come after its first declaration, the last name of a root. A schema that is built from a
sequence is described by it completely.
-/

namespace FieldUsage.Schema

open GraphQL (OperationKind TypeKind)

namespace Step

/-- Whether a step defines or extends a type. -/
def declares (name : String) : Step → Bool
  | .define other _ | .extend other _ => other = name
  | _ => false

/-- The kind that a step defines for a type. -/
@[simp] def definedKind? (name : String) : Step → Option TypeKind
  | .define other kind => if other = name then some kind else none
  | _ => none

/-- The kind that a step extends a type with. -/
@[simp] def extendedKind? (name : String) : Step → Option TypeKind
  | .extend other kind => if other = name then some kind else none
  | _ => none

/-- The field that a step adds to a type under a name. -/
@[simp] def addedField? (type name : String) : Step → Option Field
  | .field other added => if other = type ∧ added.name = name then some added else none
  | _ => none

/-- Whether a step declares root types. -/
@[simp] def declaresRoots : Step → Bool
  | .roots | .root _ _ => true
  | _ => false

/-- The root type that a step names for a kind of operation. -/
@[simp] def rootName? (operation : OperationKind) : Step → Option String
  | .root other name => if other = operation then some name else none
  | _ => none

theorem declares_eq (name : String) (step : Step) :
    step.declares name = ((step.definedKind? name).isSome || (step.extendedKind? name).isSome) := by
  cases step with
  | define other _ | extend other _ => by_cases h : other = name <;> simp [declares, h]
  | field | roots | root => rfl

end Step

/-- The kind of a type: of its last definition, else of its first extension. -/
def declaredKind? (steps : List Step) (name : String) : Option TypeKind :=
  (steps.filterMap (·.definedKind? name)).getLast?.or
    (steps.filterMap (·.extendedKind? name)).head?

/-- The field of a type: the last one of its name that comes after the first declaration of the
type. -/
def declaredField? (steps : List Step) (type name : String) : Option Field :=
  ((steps.dropWhile (!·.declares type)).filterMap (·.addedField? type name)).getLast?

/-- The name of a root type: the last one that is given. -/
def namedRoot? (steps : List Step) (operation : OperationKind) : Option String :=
  (steps.filterMap (·.rootName? operation)).getLast?

/-- A schema is what a sequence of declarations says. -/
structure Describes (steps : List Step) (schema : Schema) : Prop where
  /-- The types are the declared ones and the scalars of every schema. -/
  mem_typeNames : ∀ name, name ∈ schema.typeNames ↔
    (∃ step ∈ steps, step.declares name = true) ∨ name ∈ builtinScalars
  /-- The names of the types are in increasing order, without repetitions. -/
  typeNames_increasing : schema.typeNames.Pairwise (· < ·)
  typeCount_eq : schema.typeCount = schema.typeNames.length
  /-- Each name of a type has one, which bears this name. -/
  type?_isSome : ∀ name, (schema.type? name).isSome = true ↔ name ∈ schema.typeNames
  name_eq : ∀ name type, schema.type? name = some type → type.name = name
  kind_eq : ∀ name type, schema.type? name = some type →
    type.kind = (declaredKind? steps name).getD .scalar
  field?_eq : ∀ name type, schema.type? name = some type →
    ∀ field, type.field? field = declaredField? steps name field
  fieldName_eq : ∀ name type, schema.type? name = some type →
    ∀ key field, type.field? key = some field → field.name = key
  /-- Without declared roots, the standard names are the roots where they are types. -/
  roots_eq : ∀ operation, schema.roots operation =
    if steps.any Step.declaresRoots then namedRoot? steps operation
    else if operation.defaultRoot ∈ schema.typeNames then some operation.defaultRoot
    else none
  /-- A kind of operation has a root type if the name of its root is a type. -/
  root?_eq : ∀ operation type, schema.root? operation = some type ↔
    ∃ name, schema.roots operation = some name ∧ schema.type? name = some type
  root?_isSome : ∀ operation, (schema.root? operation).isSome = true ↔
    ∃ name, schema.roots operation = some name ∧ name ∈ schema.typeNames

/-! One more step. -/

theorem filterMap_concat {α : Type} (f : Step → Option α) (steps : List Step) (step : Step) :
    (steps ++ [step]).filterMap f = steps.filterMap f ++ (f step).toList := by
  rw [List.filterMap_append]
  cases h : f step <;> simp [h]

theorem getLast?_filterMap_concat {α : Type} (f : Step → Option α) (steps : List Step)
    (step : Step) :
    ((steps ++ [step]).filterMap f).getLast? = (f step).or (steps.filterMap f).getLast? := by
  rw [filterMap_concat, List.getLast?_append]
  cases f step <;> rfl

theorem declaredKind?_concat (steps : List Step) (step : Step) (name : String) :
    declaredKind? (steps ++ [step]) name =
      ((step.definedKind? name).or (declaredKind? steps name)).or (step.extendedKind? name) := by
  unfold declaredKind?
  rw [getLast?_filterMap_concat, filterMap_concat, List.head?_append]
  cases step.extendedKind? name <;> simp [Option.or_assoc]

theorem declaredField?_concat (steps : List Step) (step : Step) (type name : String) :
    declaredField? (steps ++ [step]) type name =
      (if steps.any (·.declares type) then step.addedField? type name else none).or
        (declaredField? steps type name) := by
  have undeclared :
      (steps.dropWhile (!·.declares type)).isEmpty = true ↔
        steps.any (·.declares type) = false := by
    simp [List.dropWhile_eq_nil_iff]
  unfold declaredField?
  rw [List.dropWhile_append]
  cases known : steps.any (·.declares type) with
  | true =>
      rw [if_neg (by rw [undeclared, known]; decide), if_pos rfl]
      exact getLast?_filterMap_concat _ _ step
  | false =>
      rw [if_pos (undeclared.2 known), List.isEmpty_iff.1 (undeclared.2 known)]
      -- a step that declares the type adds no field to it
      cases step <;> simp [Step.declares, List.dropWhile_cons]

theorem namedRoot?_concat (steps : List Step) (step : Step) (operation : OperationKind) :
    namedRoot? (steps ++ [step]) operation =
      (step.rootName? operation).or (namedRoot? steps operation) :=
  getLast?_filterMap_concat _ steps step

namespace Builder

/-- A definition sets the kind of a type, and an extension only where there is none. -/
theorem kind_apply (builder : Builder) (step : Step) (name : String) :
    ((builder.apply step).types.get? name).map (·.kind) =
      ((step.definedKind? name).or ((builder.types.get? name).map (·.kind))).or
        (step.extendedKind? name) := by
  cases step with
  | define other kind =>
      by_cases h : other = name
      · subst h
        simp [apply]
      · simp [apply, h, Dict.get?_insert_of_ne _ _ (Ne.symm h)]
  | extend other kind =>
      by_cases h : other = name
      · subst h
        cases found : builder.types.get? other <;> simp [apply, Dict.get?_insertNew, found]
      · simp [apply, h, Dict.get?_insertNew, Ne.symm h]
  | field type added =>
      cases found : builder.types.get? type with
      | none => simp [apply, found]
      | some pending =>
          by_cases h : name = type
          · subst h
            simp [apply, found, PendingType.addField]
          · simp [apply, found, Dict.get?_insert_of_ne _ _ h]
  | roots | root => simp [apply]

/-- The field that a type has so far. -/
def field? (builder : Builder) (type name : String) : Option Field :=
  (builder.types.get? type).bind (·.fields.get? name)

/-- A field counts if its type is there already. -/
theorem field?_apply (builder : Builder) (step : Step) (type name : String) :
    (builder.apply step).field? type name =
      (if (builder.types.get? type).isSome then step.addedField? type name else none).or
        (builder.field? type name) := by
  unfold field?
  cases step with
  | define other kind =>
      by_cases h : other = type
      · subst h
        cases found : builder.types.get? other with
        | none => simp [apply, found]
        | some pending => simp [apply, found]
      · simp [apply, Dict.get?_insert_of_ne _ _ (Ne.symm h)]
  | extend other kind =>
      by_cases h : other = type
      · subst h
        cases found : builder.types.get? other with
        | none => simp [apply, Dict.get?_insertNew, found]
        | some pending => simp [apply, Dict.get?_insertNew, found]
      · simp [apply, Dict.get?_insertNew, Ne.symm h]
  | field other added =>
      cases found : builder.types.get? other with
      | none =>
          by_cases h : other = type
          · subst h
            simp [apply, found]
          · simp [apply, found, h]
      | some pending =>
          by_cases h : other = type
          · subst h
            by_cases same : added.name = name
            · subst same
              simp [apply, found, PendingType.addField]
            · simp [apply, found, PendingType.addField, same,
                Dict.get?_insert_of_ne _ _ (Ne.symm same)]
          · simp [apply, found, h, Dict.get?_insert_of_ne _ _ (Ne.symm h)]
  | roots | root => simp [apply]

theorem rootsDeclared_apply (builder : Builder) (step : Step) :
    (builder.apply step).rootsDeclared = (builder.rootsDeclared || step.declaresRoots) := by
  cases step with
  | field type added => cases found : builder.types.get? type <;> simp [apply, found]
  | define | extend | roots | root => simp [apply]

/-- A root that is named takes the place of the one before. -/
theorem roots_apply (builder : Builder) (step : Step) (operation : OperationKind) :
    (builder.apply step).roots operation =
      (step.rootName? operation).or (builder.roots operation) := by
  cases step with
  | field type added => cases found : builder.types.get? type <;> simp [apply, found]
  | root other name => by_cases h : other = operation <;> simp [apply, h, eq_comm]
  | define | extend | roots => simp [apply]

/-! A whole run. -/

theorem run_concat (builder : Builder) (steps : List Step) (step : Step) :
    builder.run (steps ++ [step]) = (builder.run steps).apply step :=
  List.foldl_append

/-- After a run, a type has the kind that the steps declare. -/
theorem kind_run (steps : List Step) (name : String) :
    ((run {} steps).types.get? name).map (·.kind) = declaredKind? steps name := by
  induction steps using List.reverseRecOn with
  | nil => rfl
  | append_singleton steps step ih => rw [run_concat, kind_apply, ih, declaredKind?_concat]

/-- A type is there exactly if some step declares it. -/
theorem isSome_run (steps : List Step) (name : String) :
    ((run {} steps).types.get? name).isSome = steps.any (·.declares name) := by
  induction steps using List.reverseRecOn with
  | nil => rfl
  | append_singleton steps step ih =>
      have kind := congrArg Option.isSome (kind_apply (run {} steps) step name)
      simp only [Option.isSome_map, Option.isSome_or, ih] at kind
      rw [run_concat, kind, List.any_append, List.any_cons, List.any_nil, Bool.or_false,
        step.declares_eq name, Bool.or_comm (step.definedKind? name).isSome, Bool.or_assoc]

/-- After a run, a type has the fields that the steps declare. -/
theorem field?_run (steps : List Step) (type name : String) :
    (run {} steps).field? type name = declaredField? steps type name := by
  induction steps using List.reverseRecOn with
  | nil => rfl
  | append_singleton steps step ih =>
      rw [run_concat, field?_apply, ih, isSome_run, declaredField?_concat]

theorem rootsDeclared_run (steps : List Step) :
    (run {} steps).rootsDeclared = steps.any Step.declaresRoots := by
  induction steps using List.reverseRecOn with
  | nil => rfl
  | append_singleton steps step ih =>
      rw [run_concat, rootsDeclared_apply, ih, List.any_append]
      simp

/-- After a run, the roots have the names that the steps give. -/
theorem roots_run (steps : List Step) (operation : OperationKind) :
    (run {} steps).roots operation = namedRoot? steps operation := by
  induction steps using List.reverseRecOn with
  | nil => rfl
  | append_singleton steps step ih => rw [run_concat, roots_apply, ih, namedRoot?_concat]

/-! The schema at the end. -/

theorem get?_withScalars (names : List String) (types : Dict TypeDef) (name : String) :
    (withScalars types names).get? name =
      (types.get? name).or (if name ∈ names then some { name, kind := .scalar } else none) := by
  induction names generalizing types with
  | nil => simp [withScalars]
  | cons first rest ih =>
      have step : withScalars types (first :: rest) =
          withScalars (types.insertNew first { name := first, kind := .scalar }) rest := rfl
      rw [step, ih, Dict.get?_insertNew]
      by_cases h : name = first
      · subst h
        cases types.get? name <;> simp
      · simp [h]

/-- The types of a schema are those of its builder and the scalars of every schema. -/
theorem type?_build (builder : Builder) (name : String) :
    builder.build.type? name =
      ((builder.types.get? name).map (PendingType.named name)).or
        (if name ∈ builtinScalars then some { name, kind := .scalar } else none) := by
  rw [← Dict.get?_mapWithKey]
  exact get?_withScalars builtinScalars builder.definedTypes name

/-- A type of a schema is one that was declared, or a scalar that was not. -/
theorem type?_build_cases {builder : Builder} {name : String} {type : TypeDef}
    (found : builder.build.type? name = some type) :
    (∃ pending, builder.types.get? name = some pending ∧ type = pending.named name) ∨
      builder.types.get? name = none ∧ type = { name, kind := .scalar } := by
  rw [type?_build] at found
  cases declared : builder.types.get? name with
  | some pending =>
      rw [declared] at found
      exact .inl ⟨pending, rfl, (Option.some.inj found).symm⟩
  | none =>
      rw [declared, Option.map_none, Option.none_or] at found
      split at found
      · exact .inr ⟨rfl, (Option.some.inj found).symm⟩
      · cases found

end Builder

theorem mem_typeNames_iff (schema : Schema) (name : String) :
    name ∈ schema.typeNames ↔ (schema.type? name).isSome = true :=
  schema.types.mem_keys_iff name

/-- A schema has the types that are declared, and the scalars of every schema. -/
theorem mem_typeNames_ofSteps (steps : List Step) (name : String) :
    name ∈ (ofSteps steps).typeNames ↔
      (∃ step ∈ steps, step.declares name = true) ∨ name ∈ builtinScalars := by
  rw [mem_typeNames_iff, ofSteps, Builder.type?_build, Option.isSome_or, Option.isSome_map,
    Builder.isSome_run, Bool.or_eq_true, List.any_eq_true]
  by_cases h : name ∈ builtinScalars <;> simp [h]

/-- The kind of a type is the declared one. -/
theorem kind_ofSteps (steps : List Step) {name : String} {type : TypeDef}
    (found : (ofSteps steps).type? name = some type) :
    type.kind = (declaredKind? steps name).getD .scalar := by
  rw [← Builder.kind_run]
  rcases Builder.type?_build_cases found with ⟨pending, declared, rfl⟩ | ⟨undeclared, rfl⟩
  · rw [declared]
    rfl
  · rw [undeclared]
    rfl

/-- The fields of a type are the declared ones. -/
theorem field?_ofSteps (steps : List Step) {name : String} {type : TypeDef}
    (found : (ofSteps steps).type? name = some type) (field : String) :
    type.field? field = declaredField? steps name field := by
  rw [← Builder.field?_run, Builder.field?]
  rcases Builder.type?_build_cases found with ⟨pending, declared, rfl⟩ | ⟨undeclared, rfl⟩
  · rw [declared]
    rfl
  · rw [undeclared]
    rfl

theorem namedRoot?_eq_none {steps : List Step} (h : steps.any Step.declaresRoots = false)
    (operation : OperationKind) : namedRoot? steps operation = none := by
  have unnamed : steps.filterMap (·.rootName? operation) = [] := by
    rw [List.filterMap_eq_nil_iff]
    intro step member
    have quiet := List.any_eq_false.1 h step member
    cases step with
    | root | roots => exact absurd rfl quiet
    | define | extend | field => rfl
  rw [namedRoot?, unnamed, List.getLast?_nil]

/-- Roots are those that are named, or those with the standard names if none are declared. -/
theorem roots_ofSteps (steps : List Step) (operation : OperationKind) :
    (ofSteps steps).roots operation =
      if steps.any Step.declaresRoots then namedRoot? steps operation
      else if operation.defaultRoot ∈ (ofSteps steps).typeNames then some operation.defaultRoot
      else none := by
  have recorded : (ofSteps steps).roots operation =
      if !steps.any Step.declaresRoots && ((ofSteps steps).type? operation.defaultRoot).isSome
      then some operation.defaultRoot
      else namedRoot? steps operation := by
    rw [← Builder.rootsDeclared_run, ← Builder.roots_run]
    rfl
  rw [recorded]
  cases declared : steps.any Step.declaresRoots with
  | true => rfl
  | false => simp only [mem_typeNames_iff, namedRoot?_eq_none declared, Bool.not_false,
      Bool.true_and, Bool.false_eq_true, if_false]

theorem root?_isSome_iff (schema : Schema) (operation : OperationKind) :
    (schema.root? operation).isSome = true ↔
      ∃ name, schema.roots operation = some name ∧ name ∈ schema.typeNames := by
  unfold root?
  cases schema.roots operation with
  | none => simp
  | some name => simp [mem_typeNames_iff]

/-- The schema of a sequence of steps is what the steps say, in whatever order they come. -/
theorem ofSteps_describes (steps : List Step) : Describes steps (ofSteps steps) where
  mem_typeNames := mem_typeNames_ofSteps steps
  typeNames_increasing := (ofSteps steps).types.keys_pairwise
  typeCount_eq := (List.length_map _).symm
  type?_isSome name := (mem_typeNames_iff _ name).symm
  name_eq := (ofSteps steps).keyed
  kind_eq _ _ found := kind_ofSteps steps found
  field?_eq _ _ found := field?_ofSteps steps found
  fieldName_eq _ type _ := type.keyed
  roots_eq := roots_ofSteps steps
  root?_eq _ _ := Option.bind_eq_some_iff
  root?_isSome := root?_isSome_iff (ofSteps steps)

end FieldUsage.Schema
