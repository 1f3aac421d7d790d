import FieldUsage.Scope

/-!
The type at a point of a document, said along the way that leads there. A way starts at the root of
an operation or at the type of a fragment, and each field and each inline fragment on it leads from
one type to the next. The rules speak of names and declarations only; where none of them applies,
the way leads nowhere, and so does every longer one. Scopes compute exactly this relation.
-/

namespace FieldUsage

open GraphQL (OperationKind)

/-- A selection that has other selections inside. -/
inductive Enclosing where
  | field (name : String)
  | inline (condition : Option String)
deriving DecidableEq, Repr

/-- Where the selections of a definition start. -/
inductive Origin where
  | operation (kind : OperationKind)
  | fragment (condition : String)
deriving DecidableEq, Repr

namespace Schema

/-- The name of an object, interface or union type. -/
def Composite (schema : Schema) (name : String) : Prop :=
  ∃ type, schema.type? name = some type ∧
    (type.kind = .object ∨ type.kind = .interface ∨ type.kind = .union)

/-- A type declares a field whose type, without its wrappers, has the given name. -/
def Declares (schema : Schema) (parent field result : String) : Prop :=
  ∃ type found, schema.type? parent = some type ∧ type.field? field = some found ∧
    found.type.name = result

/-- The type at which the selections of a definition start. -/
inductive Starts (schema : Schema) : Origin → String → Prop where
  | operation {kind : OperationKind} {name : String} :
      schema.roots kind = some name → schema.Composite name → Starts schema (.operation kind) name
  | fragment {name : String} : schema.Composite name → Starts schema (.fragment name) name

/-- The type inside a selection that stands on a type. -/
inductive Enters (schema : Schema) (parent : String) : Enclosing → String → Prop where
  | typename : schema.Composite "String" → Enters schema parent (.field "__typename") "String"
  | field {name result : String} :
      name ≠ "__typename" → schema.Declares parent name result → schema.Composite result →
        Enters schema parent (.field name) result
  | condition {name : String} :
      schema.Composite name → Enters schema parent (.inline (some name)) name
  | noCondition : Enters schema parent (.inline none) parent

/-- The type at the end of a way. -/
inductive Leads (schema : Schema) : String → List Enclosing → String → Prop where
  | here {name : String} : Leads schema name [] name
  | enter {name next last : String} {step : Enclosing} {rest : List Enclosing} :
      Enters schema name step next → Leads schema next rest last →
        Leads schema name (step :: rest) last

end Schema

namespace Scope

variable {schema : Schema}

/-- The scope inside a selection. -/
def enter (schema : Schema) (scope : Scope) : Enclosing → Scope
  | .field name => scope.enterField schema name
  | .inline condition => scope.enterInline schema condition

/-- The scope at the beginning of the selections of a definition. -/
def start (schema : Schema) : Origin → Scope
  | .operation kind => .ofOperation schema kind
  | .fragment condition => .onType schema condition

/-- The scope at the end of a way. -/
def follow (schema : Schema) : Scope → List Enclosing → Scope
  | scope, [] => scope
  | scope, step :: rest => follow schema (scope.enter schema step) rest

/-- A scope is lost, or it is a type with selections that the schema has under its own name. -/
def Within (schema : Schema) (scope : Scope) : Prop :=
  ∀ type, scope = some type → schema.type? type.name = some type ∧ type.isComposite = true

theorem isComposite_iff (type : TypeDef) :
    type.isComposite = true ↔
      type.kind = .object ∨ type.kind = .interface ∨ type.kind = .union := by
  cases h : type.kind <;> simp [TypeDef.isComposite, GraphQL.TypeKind.isComposite, h]

/-- A named type is a scope if the schema has it and it has selections. -/
theorem onType_eq_some_iff {name : String} {type : TypeDef} :
    onType schema name = some type ↔ schema.type? name = some type ∧ type.isComposite = true :=
  Option.filter_eq_some_iff

theorem onType_within (schema : Schema) (name : String) : (onType schema name).Within schema := by
  intro type h
  obtain ⟨stored, composite⟩ := onType_eq_some_iff.1 h
  have same : type.name = name := schema.keyed name type stored
  exact ⟨same ▸ stored, composite⟩

/-- The scope of a named type is on it, if the name is one of a type with selections. -/
theorem name_onType_iff {name result : String} :
    (onType schema name).map (·.name) = some result ↔ schema.Composite name ∧ name = result := by
  constructor
  · intro h
    obtain ⟨type, found, rfl⟩ := Option.map_eq_some_iff.1 h
    obtain ⟨stored, composite⟩ := onType_eq_some_iff.1 found
    exact ⟨⟨type, stored, (isComposite_iff type).1 composite⟩, (schema.keyed name type stored).symm⟩
  · rintro ⟨⟨type, stored, composite⟩, rfl⟩
    have found := onType_eq_some_iff.2 ⟨stored, (isComposite_iff type).2 composite⟩
    rw [found, Option.map_some, schema.keyed name type stored]

/-- The root of an operation is the scope of the recorded name. -/
theorem ofOperation_eq_bind (schema : Schema) (kind : OperationKind) :
    ofOperation schema kind = (schema.roots kind).bind (onType schema) := by
  unfold ofOperation Schema.root? onType
  cases schema.roots kind <;> rfl

/-- The invariant of the walk holds where it starts. -/
theorem start_within (schema : Schema) (origin : Origin) : (start schema origin).Within schema := by
  cases origin with
  | operation kind =>
      intro type h
      rw [start, ofOperation_eq_bind] at h
      obtain ⟨name, -, found⟩ := Option.bind_eq_some_iff.1 h
      exact onType_within schema name type found
  | fragment condition => exact onType_within schema condition

/-- The walk starts at the type at which the relation starts. -/
theorem name_start_iff {origin : Origin} {result : String} :
    (start schema origin).map (·.name) = some result ↔ schema.Starts origin result := by
  cases origin with
  | operation kind =>
      rw [start, ofOperation_eq_bind, Option.map_bind]
      constructor
      · intro h
        obtain ⟨name, recorded, found⟩ := Option.bind_eq_some_iff.1 h
        obtain ⟨composite, rfl⟩ := name_onType_iff.1 found
        exact .operation recorded composite
      · intro h
        cases h with
        | operation recorded composite =>
            exact Option.bind_eq_some_iff.2 ⟨result, recorded, name_onType_iff.2 ⟨composite, rfl⟩⟩
  | fragment condition =>
      rw [start, name_onType_iff]
      constructor
      · rintro ⟨composite, rfl⟩
        exact .fragment composite
      · intro h
        cases h with
        | fragment composite => exact ⟨composite, rfl⟩

/-- One step keeps the invariant of the walk. -/
theorem enter_within {scope : Scope} (h : scope.Within schema) (step : Enclosing) :
    (scope.enter schema step).Within schema := by
  intro type entered
  cases step with
  | field name =>
      obtain ⟨parent, -, inside⟩ := Option.bind_eq_some_iff.1 entered
      split at inside
      · exact onType_within schema _ type inside
      · obtain ⟨field, -, inside⟩ := Option.bind_eq_some_iff.1 inside
        exact onType_within schema _ type inside
  | inline condition =>
      obtain ⟨parent, here, inside⟩ := Option.bind_eq_some_iff.1 entered
      cases condition with
      | some name => exact onType_within schema name type inside
      | none => exact h type (here.trans inside)

/-- One selection further, a scope is on a type that the selection leads to. -/
theorem name_enter_iff {parent : TypeDef} (h : Scope.Within schema (some parent))
    {step : Enclosing} {result : String} :
    (enter schema (some parent) step).map (·.name) = some result ↔
      schema.Enters parent.name step result := by
  obtain ⟨stored, composite⟩ := h parent rfl
  cases step with
  | field name =>
      simp only [enter, enterField, Option.bind_some]
      split
      case isTrue same =>
        rw [name_onType_iff, same]
        constructor
        · rintro ⟨composite, rfl⟩
          exact .typename composite
        · intro entered
          cases entered with
          | typename composite => exact ⟨composite, rfl⟩
          | field other _ _ => exact absurd rfl other
      case isFalse other =>
        rw [Option.map_bind]
        constructor
        · intro found
          obtain ⟨field, declared, found⟩ := Option.bind_eq_some_iff.1 found
          obtain ⟨composite, same⟩ := name_onType_iff.1 found
          exact .field other ⟨parent, field, stored, declared, same⟩ (same ▸ composite)
        · intro entered
          cases entered with
          | typename _ => exact absurd rfl other
          | field _ declares composite =>
              obtain ⟨type, field, found, declared, same⟩ := declares
              obtain rfl : parent = type := Option.some.inj (stored.symm.trans found)
              exact Option.bind_eq_some_iff.2
                ⟨field, declared, name_onType_iff.2 ⟨same.symm ▸ composite, same⟩⟩
  | inline condition =>
      cases condition with
      | some name =>
          rw [enter, enterInline, Option.bind_some, name_onType_iff]
          constructor
          · rintro ⟨composite, rfl⟩
            exact .condition composite
          · intro entered
            cases entered with
            | condition composite => exact ⟨composite, rfl⟩
      | none =>
          rw [enter, enterInline, Option.bind_some, Option.map_some, Option.some.injEq]
          constructor
          · rintro rfl
            exact .noCondition
          · intro entered
            cases entered with
            | noCondition => rfl

/-- Nothing is found again below a point where the scope is lost. -/
@[simp] theorem enter_none (schema : Schema) (step : Enclosing) :
    enter schema none step = none := by
  cases step <;> rfl

/-- Nothing leads back from a lost scope. -/
@[simp] theorem follow_none (schema : Schema) (path : List Enclosing) :
    follow schema none path = none := by
  induction path with
  | nil => rfl
  | cons step rest ih => rw [follow, enter_none, ih]

/-- At the end of a way, a scope is on the type that the way leads to. -/
theorem name_follow_iff {parent : TypeDef} (h : Scope.Within schema (some parent))
    {path : List Enclosing} {result : String} :
    (follow schema (some parent) path).map (·.name) = some result ↔
      schema.Leads parent.name path result := by
  induction path generalizing parent with
  | nil =>
      rw [follow, Option.map_some, Option.some.injEq]
      constructor
      · rintro rfl
        exact .here
      · intro leads
        cases leads with
        | here => rfl
  | cons step rest ih =>
      rw [follow]
      have within := enter_within h step
      have inside {next : String} :
          (enter schema (some parent) step).map (·.name) = some next ↔
            schema.Enters parent.name step next := name_enter_iff h
      cases entered : enter schema (some parent) step with
      | none =>
          rw [entered] at inside
          constructor
          · intro found
            simp at found
          · intro leads
            cases leads with
            | enter enters _ => exact absurd (inside.2 enters) (by simp)
      | some next =>
          rw [entered] at inside within
          rw [ih within]
          constructor
          · intro leads
            exact .enter (inside.1 rfl) leads
          · intro leads
            cases leads with
            | enter enters leads =>
                obtain rfl := Option.some.inj (inside.2 enters)
                exact leads

/-- The scope computed for a way from a definition is the type that the rules give, if any. -/
theorem name_follow_start_iff {origin : Origin} {path : List Enclosing} {result : String} :
    (follow schema (start schema origin) path).map (·.name) = some result ↔
      ∃ first, schema.Starts origin first ∧ schema.Leads first path result := by
  have within := start_within schema origin
  have begins {first : String} :
      (start schema origin).map (·.name) = some first ↔ schema.Starts origin first := name_start_iff
  cases started : start schema origin with
  | none =>
      rw [started] at begins
      constructor
      · intro found
        simp at found
      · rintro ⟨first, starts, -⟩
        exact absurd (begins.2 starts) (by simp)
  | some type =>
      rw [started] at begins within
      rw [name_follow_iff within]
      constructor
      · intro leads
        exact ⟨type.name, begins.1 rfl, leads⟩
      · rintro ⟨first, starts, leads⟩
        obtain rfl := Option.some.inj (begins.2 starts)
        exact leads

end Scope

end FieldUsage
