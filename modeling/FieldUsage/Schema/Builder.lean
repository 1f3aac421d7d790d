import FieldUsage.Schema.Basic

/-!
Building schemas. What sources declare is a sequence of steps, and a schema is what is left of all
steps at the end. Definitions and extensions of a type may come in any order and from any number of
sources: a type comes into being with the first of them and collects the fields of all.
-/

namespace FieldUsage.Schema

open GraphQL (OperationKind TypeKind)

inductive Step where
  /-- A definition of a type, which decides its kind. -/
  | define (name : String) (kind : TypeKind)
  /-- An extension of a type, which decides its kind only if the type is not there yet. -/
  | extend (name : String) (kind : TypeKind)
  /-- A field of a type that is there already. -/
  | field (type : String) (field : Field)
  /-- Root types are declared: the ones that are not keep no standard name. -/
  | roots
  /-- A root type. -/
  | root (operation : OperationKind) (name : String)
deriving Repr

/-- A type to which fields may still come. -/
structure PendingType where
  kind : TypeKind
  fields : Dict Field := ∅
  keyed : fields.Keyed Field.name := by exact Dict.Keyed.empty
deriving Repr

/-- A pending type with one more field, in place of one with the same name. -/
def PendingType.addField (pending : PendingType) (field : Field) : PendingType :=
  { pending with
    fields := pending.fields.insert field.name field
    keyed := pending.keyed.insert field }

def PendingType.named (name : String) (pending : PendingType) : TypeDef :=
  { name, kind := pending.kind, fields := pending.fields, keyed := pending.keyed }

structure Builder where
  types : Dict PendingType := ∅
  roots : OperationKind → Option String := fun _ => none
  rootsDeclared : Bool := false

instance : Inhabited Builder := ⟨{}⟩

namespace Builder

def apply (builder : Builder) : Step → Builder
  | .define name kind =>
      let pending := (builder.types.get? name).getD { kind }
      { builder with types := builder.types.insert name { pending with kind } }
  | .extend name kind =>
      { builder with types := builder.types.insertNew name { kind } }
  | .field type field =>
      match builder.types.get? type with
      | some pending => { builder with types := builder.types.insert type (pending.addField field) }
      | none => builder
  | .roots => { builder with rootsDeclared := true }
  | .root operation name =>
      { builder with
        rootsDeclared := true
        roots := fun kind => if kind = operation then some name else builder.roots kind }

def run (builder : Builder) (steps : List Step) : Builder :=
  steps.foldl apply builder

end Builder

/-- The scalars of every schema, declared or not. -/
def builtinScalars : List String := ["Int", "Float", "String", "Boolean", "ID"]

namespace Builder

def definedTypes (builder : Builder) : Dict TypeDef :=
  builder.types.mapWithKey PendingType.named

theorem definedTypes_keyed (builder : Builder) : builder.definedTypes.Keyed TypeDef.name := by
  intro name type stored
  rw [definedTypes, Dict.get?_mapWithKey] at stored
  obtain ⟨pending, -, rfl⟩ := Option.map_eq_some_iff.1 stored
  rfl

/-- Types together with scalars, where these names are not taken. -/
def withScalars (types : Dict TypeDef) (names : List String) : Dict TypeDef :=
  names.foldl (fun types name => types.insertNew name { name, kind := .scalar }) types

theorem withScalars_keyed (names : List String) {types : Dict TypeDef}
    (h : types.Keyed TypeDef.name) : (withScalars types names).Keyed TypeDef.name := by
  induction names generalizing types with
  | nil => exact h
  | cons name rest ih => exact ih (h.insertNew { name, kind := .scalar })

def allTypes (builder : Builder) : Dict TypeDef :=
  withScalars builder.definedTypes builtinScalars

/-- The schema of everything declared so far. Without declared root types, the types with the
standard names are the roots. -/
def build (builder : Builder) : Schema :=
  let types := builder.allTypes
  { types
    roots := fun kind =>
      if !builder.rootsDeclared && types.contains kind.defaultRoot then some kind.defaultRoot
      else builder.roots kind
    keyed := withScalars_keyed builtinScalars builder.definedTypes_keyed }

end Builder

def ofSteps (steps : List Step) : Schema :=
  (Builder.run {} steps).build

end FieldUsage.Schema
