import FieldUsage.Schema.Basic
import FieldUsage.Text.Bytes
import FieldUsage.Text.Similarity

/-!
The field to search for. A target is written as `Type.field` and has to be a field of the schema;
where it is not, the error suggests a name that is.
-/

namespace FieldUsage

structure Target where
  typeName : String
  fieldName : String
deriving DecidableEq, Repr

inductive TargetError where
  | missing
  | unknownType (name : String) (suggestion : Option String)
  | unknownField (typeName fieldName : String) (suggestion : Option String)
deriving DecidableEq, Repr

def TargetError.hint : Option String → String
  | some name => " (did you mean '" ++ name ++ "'?)"
  | none => ""

def TargetError.message : TargetError → String
  | .missing => "Missing field argument: expected `Type.field`"
  | .unknownType name suggestion => "Unknown type '" ++ name ++ "'" ++ hint suggestion
  | .unknownField typeName fieldName suggestion =>
      "Type '" ++ typeName ++ "' has no field '" ++ fieldName ++ "'" ++ hint suggestion

namespace Target

def display (target : Target) : String :=
  target.typeName ++ "." ++ target.fieldName

/-- Whether a field selected on a type is the target. -/
def selects (target : Target) (typeName fieldName : String) : Bool :=
  target.typeName == typeName && target.fieldName == fieldName

/-- The two parts of a text: before its first point and after it. Without a point, the second part
is empty. -/
def split (text : List Char) : Target :=
  let (typeName, fieldName) := (Text.splitAtFirst '.' text).getD (text, [])
  { typeName := String.ofList typeName, fieldName := String.ofList fieldName }

/-- The target that a text names in a schema. Blanks around the text do not count. -/
def validate (schema : Schema) (raw : Option String) (measure : Text.Similarity := .standard) :
    Except TargetError Target :=
  match Text.trim (raw.getD "").toList with
  | [] => .error .missing
  | text =>
      let target := split text
      match schema.type? target.typeName with
      | none =>
          .error (.unknownType target.typeName
            (measure.closest? target.typeName schema.typeNames))
      | some type =>
          if (type.field? target.fieldName).isSome then .ok target
          else
            .error (.unknownField target.typeName target.fieldName
              (measure.closest? target.fieldName (type.fields.values.map (·.name))))

end Target

end FieldUsage
