import FieldUsage.Proofs.Traversal
import FieldUsage.Schema.Introspection

/-!
Results of introspection queries as values. A reference is an object for each wrapper with the next
one inside, and a result is encoded as the schema in it, which is then put into a whole response or
into its data alone. What is encoded is decoded to the same result.
-/

namespace FieldUsage.Schema.Introspection

open GraphQL (OperationKind TypeKind)

def Kind.title : Kind → String
  | .type .scalar => "SCALAR"
  | .type .object => "OBJECT"
  | .type .interface => "INTERFACE"
  | .type .union => "UNION"
  | .type .enum => "ENUM"
  | .type .inputObject => "INPUT_OBJECT"
  | .list => "LIST"
  | .nonNull => "NON_NULL"

def Kind.encode (kind : Kind) : Json := .string kind.title

theorem Kind.decode?_encode (kind : Kind) : Kind.decode? kind.encode = some kind := by
  cases kind with
  | type kind => cases kind <;> rfl
  | list => rfl
  | nonNull => rfl

def encodeText : Option String → Json
  | some text => .string text
  | none => .null

theorem optional?_null {α : Type} (read : Json → Option α) :
    Json.optional? read (some .null) = some none := rfl

theorem optional?_encodeText (text : Option String) :
    Json.optional? Json.text? (some (encodeText text)) = some text := by
  cases text <;> rfl

namespace Reference

def encode : Reference → Json
  | .plain kind name =>
      .object [("kind", kind.encode), ("name", encodeText name), ("ofType", .null)]
  | .around kind name inner =>
      .object [("kind", kind.encode), ("name", encodeText name), ("ofType", inner.encode)]

theorem optional?_encode {α : Type} (read : Json → Option α) (reference : Reference) :
    Json.optional? read (some reference.encode) = (read reference.encode).map some := by
  cases reference <;> rfl

/-- A reference is read back if the bound is as large as its depth. The induction is over the chain. -/
theorem decodeWithin?_encode (reference : Reference) {depth : Nat}
    (enough : reference.encode.depth ≤ depth) :
    decodeWithin? depth reference.encode = some reference := by
  induction reference generalizing depth with
  | plain kind name =>
      rw [encode, Json.depth] at enough
      obtain ⟨left, rfl⟩ : ∃ left, depth = left + 1 := ⟨depth - 1, by omega⟩
      simp [encode, decodeWithin?, Json.record?, Json.valuesOf, Kind.decode?_encode,
        optional?_encodeText, optional?_null]
  | around kind name inner ih =>
      rw [encode, Json.depth] at enough
      obtain ⟨left, rfl⟩ : ∃ left, depth = left + 1 := ⟨depth - 1, by omega⟩
      have inside : decodeWithin? left inner.encode = some inner := by
        refine ih ?_
        simp only [Json.membersDepth] at enough
        omega
      simp [encode, decodeWithin?, Json.record?, Json.valuesOf, Kind.decode?_encode,
        optional?_encodeText, optional?_encode, inside]

theorem decode?_encode (reference : Reference) :
    Reference.decode? reference.encode = some reference :=
  decodeWithin?_encode reference (Nat.le_refl _)

end Reference

def FieldEntry.encode (field : FieldEntry) : Json :=
  .object [("name", .string field.name), ("type", field.type.encode)]

theorem FieldEntry.decode?_encode (field : FieldEntry) :
    FieldEntry.decode? field.encode = some field := by
  simp [encode, decode?, Json.record?, Json.valuesOf, Json.text?, Reference.decode?_encode]

theorem list?_map {α : Type} {encode : α → Json} {decode? : Json → Option α}
    (inverse : ∀ item, decode? (encode item) = some item) (items : List α) :
    Json.list? decode? (.array (items.map encode)) = some items := by
  rw [Json.list?, mapM_eq_some_iff, List.map_map]
  exact List.map_congr_left fun item _ => inverse item

/-- The fields of a type, or nothing where there are none. -/
def encodeFields (fields : List FieldEntry) : Json :=
  if fields.isEmpty then .null else .array (fields.map FieldEntry.encode)

/-- Fields are read back, and none are written as nothing. -/
theorem optional?_encodeFields (fields : List FieldEntry) :
    ∃ found, Json.optional? (Json.list? FieldEntry.decode?) (some (encodeFields fields)) =
      some found ∧ found.getD [] = fields := by
  unfold encodeFields
  split
  case isTrue empty => exact ⟨none, rfl, (List.isEmpty_iff.1 empty).symm⟩
  case isFalse =>
    refine ⟨some fields, ?_, rfl⟩
    simp [Json.optional?, list?_map FieldEntry.decode?_encode]

def TypeEntry.encode (entry : TypeEntry) : Json :=
  .object [("kind", entry.kind.encode), ("name", .string entry.name),
    ("fields", encodeFields entry.fields), ("inputFields", encodeFields entry.inputFields)]

theorem TypeEntry.decode?_encode (entry : TypeEntry) :
    TypeEntry.decode? entry.encode = some entry := by
  obtain ⟨fields, readFields, sameFields⟩ := optional?_encodeFields entry.fields
  obtain ⟨inputs, readInputs, sameInputs⟩ := optional?_encodeFields entry.inputFields
  simp [encode, decode?, Json.record?, Json.valuesOf, Json.text?, Kind.decode?_encode, readFields,
    readInputs, sameFields, sameInputs]

/-- A root type, or nothing. -/
def encodeRoot : Option String → Json
  | some name => .object [("name", .string name)]
  | none => .null

theorem optional?_encodeRoot (name : Option String) :
    Json.optional? rootName? (some (encodeRoot name)) = some name := by
  cases name with
  | none => rfl
  | some name =>
      simp [Json.optional?, encodeRoot, rootName?, Json.record?, Json.valuesOf, Json.text?]

namespace Result

/-- The roots of a schema, in the order in which results list them. -/
def rootList (query mutation subscription : Option String) : List (OperationKind × String) :=
  (query.map (.query, ·)).toList ++ (mutation.map (.mutation, ·)).toList ++
    (subscription.map (.subscription, ·)).toList

def encodeSchema (query mutation subscription : Option String) (types : List TypeEntry) : Json :=
  .object [("queryType", encodeRoot query), ("mutationType", encodeRoot mutation),
    ("subscriptionType", encodeRoot subscription), ("types", .array (types.map TypeEntry.encode))]

theorem ofSchema?_encodeSchema (query mutation subscription : Option String)
    (types : List TypeEntry) :
    ofSchema? (encodeSchema query mutation subscription types) =
      some { roots := rootList query mutation subscription, types } := by
  simp [encodeSchema, ofSchema?, rootList, Json.record?, Json.valuesOf, optional?_encodeRoot,
    list?_map TypeEntry.decode?_encode]

end Result

/-- The forms of a result. -/
inductive Form where
  /-- The whole response. -/
  | response
  /-- Only the data of the response. -/
  | bare
deriving DecidableEq, Repr

/-- A result of a form with a schema in it. -/
def Form.around : Form → Json → Json
  | .response, schema => .object [("data", .object [("__schema", schema)])]
  | .bare, schema => .object [("__schema", schema)]

/-- The form of a result does not matter to what is read. -/
theorem Result.decode?_around (form : Form) (schema : Json) :
    Result.decode? (form.around schema) = Result.ofSchema? schema := by
  cases form with
  | response =>
      cases found : Result.ofSchema? schema <;>
      simp [Form.around, decode?, ofResponse?, ofData?, Json.record?, Json.valuesOf, found]
  | bare =>
      simp [Form.around, decode?, ofResponse?, ofData?, Json.record?, Json.valuesOf]

end FieldUsage.Schema.Introspection
