import FieldUsage.Json

/-!
Which templates are documents, and how that choice is read from the settings of a project. Settings
may leave out what keeps its standard value, and may be written as a list of values in order.
-/

namespace FieldUsage

inductive InterpolationPolicy where
  /-- Keep the text before the first hole. -/
  | firstSegment
  /-- Drop the template. -/
  | skip
deriving DecidableEq, Repr

/-- Which templates are documents. -/
structure ExtractConfig where
  /-- The tags that mark documents. -/
  tagIdentifiers : List String := ["gql"]
  interpolation : InterpolationPolicy := .firstSegment
deriving DecidableEq, Repr

namespace ExtractConfig

inductive DecodeError where
  /-- A value of another kind was expected. -/
  | kind (found : Json) (expected : String)
  | unknownPolicy (name : String)
  /-- A policy written as an object has exactly one key. -/
  | notOneKey
  /-- Too many values in the list form. -/
  | tooMany (length : Nat)

def DecodeError.message : DecodeError → String
  | .kind found expected => "invalid type: " ++ found.kind ++ ", expected " ++ expected
  | .unknownPolicy name =>
      "unknown variant `" ++ name ++ "`, expected `firstSegment` or `skip`"
  | .notOneKey => "invalid value: map, expected map with a single key"
  | .tooMany length => "invalid length " ++ toString length ++ ", expected fewer elements in array"

def policyName : InterpolationPolicy → String
  | .firstSegment => "firstSegment"
  | .skip => "skip"

def policyOfName (name : String) : Except DecodeError InterpolationPolicy :=
  if name = policyName .firstSegment then .ok .firstSegment
  else if name = policyName .skip then .ok .skip
  else .error (.unknownPolicy name)

/-- Reads a policy: its name, or an object with its name as the only key and nothing as the value.
-/
def decodePolicy : Json → Except DecodeError InterpolationPolicy
  | .string name => policyOfName name
  | .object [(name, value)] => do
      let policy ← policyOfName name
      match value with
      | .null => return policy
      | other => throw (.kind other "unit")
  | .object _ => .error .notOneKey
  | other => .error (.kind other "string or map")

def decodeTag : Json → Except DecodeError String
  | .string text => .ok text
  | other => .error (.kind other "a string")

def decodeTags : Json → Except DecodeError (List String)
  | .array items => items.mapM decodeTag
  | other => .error (.kind other "a sequence")

/-- Reads a choice of templates. The members of an object are read in the order of their keys. -/
def decode : Json → Except DecodeError ExtractConfig
  | .object members => do
      let standard : ExtractConfig := {}
      let interpolation ← match Json.lastOf "interpolation" members with
        | some value => decodePolicy value
        | none => pure standard.interpolation
      let tagIdentifiers ← match Json.lastOf "tagIdentifiers" members with
        | some value => decodeTags value
        | none => pure standard.tagIdentifiers
      return { tagIdentifiers, interpolation }
  | .array [] => .ok {}
  | .array [tags] => return { tagIdentifiers := ← decodeTags tags }
  | .array (tags :: policy :: more) => do
      let tagIdentifiers ← decodeTags tags
      let interpolation ← decodePolicy policy
      if more.isEmpty then return { tagIdentifiers, interpolation }
      else throw (.tooMany (more.length + 2))
  | other => .error (.kind other "struct ExtractConfig")

def encode (config : ExtractConfig) : Json :=
  .object
    [("tagIdentifiers", .array (config.tagIdentifiers.map .string)),
     ("interpolation", .string (policyName config.interpolation))]

end ExtractConfig

end FieldUsage
