import FieldUsage.Proofs.Json.Print
import FieldUsage.Proofs.Schema.Description

/-!
The texts of a description. A result is written as a value of plain texts, which is read back unless
it is nested too deep, and a document as its tokens. From texts that are read, in whatever way they
are written, a builder makes the same schema.
-/

namespace FieldUsage.Schema

open GraphQL (TypeKind TypeExpr FieldDef IsName)
open Introspection (Reference FieldEntry TypeEntry Result Form)

theorem plainText_of_isName {text : String} (name : IsName text) : Json.PlainText text := by
  refine List.all_eq_true.2 fun c member => Json.isPlain_iff.2 ?_
  have continues := name.continuesName c member
  have code := GraphQL.Token.toNat_of_continuesName continues
  exact ⟨GraphQL.Token.ne_of_continuesName continues rfl,
    GraphQL.Token.ne_of_continuesName continues rfl, by omega⟩

theorem plain_kind (kind : Introspection.Kind) : kind.encode.Plain := by
  rw [Introspection.Kind.encode, Json.Plain]
  cases kind with
  | type kind => cases kind <;> decide
  | list | nonNull => decide

theorem plain_around (kind : Introspection.Kind) {inner : Reference} (plain : inner.encode.Plain) :
    (Reference.around kind none inner).encode.Plain := by
  have keys : Json.PlainText "kind" ∧ Json.PlainText "name" ∧ Json.PlainText "ofType" := by decide
  simp only [Reference.encode, Introspection.encodeText, Json.Plain, Json.PlainMembers]
  exact ⟨keys.1, plain_kind kind, keys.2.1, trivial, keys.2.2, plain, trivial⟩

theorem plain_reference (kinds : String → TypeKind) {type : TypeExpr} (writable : type.IsWritable) :
    (Reference.ofExpr kinds type).encode.Plain := by
  induction type with
  | named name =>
      have keys : Json.PlainText "kind" ∧ Json.PlainText "name" ∧ Json.PlainText "ofType" := by
        decide
      simp only [Reference.ofExpr, Reference.encode, Introspection.encodeText, Json.Plain,
        Json.PlainMembers]
      exact ⟨keys.1, plain_kind _, keys.2.1, plainText_of_isName writable, keys.2.2, trivial,
        trivial⟩
  | list item ih => exact plain_around .list (ih writable)
  | nonNull inner ih => exact plain_around .nonNull (ih writable.2)

theorem plain_fields (kinds : String → TypeKind) {fields : List FieldDef}
    (writable : ∀ field ∈ fields, IsName field.name ∧ field.type.IsWritable) :
    (Introspection.encodeFields (fields.map (TypeDescription.fieldEntry kinds))).Plain := by
  have keys : Json.PlainText "name" ∧ Json.PlainText "type" := by decide
  unfold Introspection.encodeFields
  split
  · trivial
  · rw [Json.Plain, List.map_map]
    refine Json.plainItems_of_forall fun item member => ?_
    obtain ⟨field, among, rfl⟩ := List.mem_map.1 member
    obtain ⟨name, type⟩ := writable field among
    simp only [Function.comp_apply, FieldEntry.encode, TypeDescription.fieldEntry, Json.Plain,
      Json.PlainMembers]
    exact ⟨keys.1, plainText_of_isName name, keys.2, plain_reference kinds type, trivial⟩

theorem plain_entry (kinds : String → TypeKind) (type : TypeDescription) :
    (type.entry kinds).encode.Plain := by
  have keys : Json.PlainText "kind" ∧ Json.PlainText "name" ∧ Json.PlainText "fields" ∧
      Json.PlainText "inputFields" := by decide
  have fields := plain_fields kinds type.writable
  have none : (Introspection.encodeFields []).Plain := trivial
  simp only [TypeEntry.encode, TypeDescription.entry, Json.Plain, Json.PlainMembers]
  refine ⟨keys.1, plain_kind _, keys.2.1, plainText_of_isName type.isName, keys.2.2.1, ?_,
    keys.2.2.2, ?_, trivial⟩
  · split <;> assumption
  · split <;> assumption

theorem plain_root {name : Option String} (isName : ∀ text, name = some text → IsName text) :
    (Introspection.encodeRoot name).Plain := by
  cases name with
  | none => trivial
  | some text =>
      have key : Json.PlainText "name" := by decide
      simp only [Introspection.encodeRoot, Json.Plain, Json.PlainMembers]
      exact ⟨key, plainText_of_isName (isName text rfl), trivial⟩

/-! A result is nested deeper than every type in it. -/

namespace Introspection.Reference

theorem depth_around (kind : Introspection.Kind) (name : Option String) (inner : Reference) :
    inner.encode.depth < (Reference.around kind name inner).encode.depth := by
  rw [encode]
  exact Json.depth_lt_of_member "ofType" (by simp)

/-- Every list around a type takes a level of nesting in a result. -/
theorem listDepth_lt_depth (kinds : String → TypeKind) (type : TypeExpr) :
    type.listDepth < (ofExpr kinds type).encode.depth := by
  induction type with
  | named name =>
      rw [ofExpr, encode, Json.depth]
      exact Nat.succ_pos _
  | list item ih =>
      have outside := depth_around .list none (ofExpr kinds item)
      rw [TypeExpr.listDepth, ofExpr]
      omega
  | nonNull inner ih => exact Nat.lt_trans ih (depth_around .nonNull none (ofExpr kinds inner))

end Introspection.Reference

namespace Description

variable {description : Description}

theorem plain_encode (kinds : String → TypeKind) (form : Form) :
    (description.encode kinds form).Plain := by
  have keys : Json.PlainText "queryType" ∧ Json.PlainText "mutationType" ∧
      Json.PlainText "subscriptionType" ∧ Json.PlainText "types" ∧ Json.PlainText "__schema" ∧
      Json.PlainText "data" := by decide
  have schema : (Result.encodeSchema (some description.query) description.mutation
      description.subscription (description.result kinds).types).Plain := by
    simp only [Result.encodeSchema, Json.Plain, Json.PlainMembers]
    refine ⟨keys.1, plain_root ?_, keys.2.1, plain_root ?_, keys.2.2.1, plain_root ?_, keys.2.2.2.1,
      Json.plainItems_of_forall ?_, trivial⟩
    · rintro text ⟨⟩
      exact description.named (.query, _) (by simp [Result.rootList])
    · intro text same
      exact description.named (.mutation, _) (by simp [Result.rootList, same])
    · intro text same
      exact description.named (.subscription, _) (by simp [Result.rootList, same])
    · intro item member
      rw [result, List.map_map] at member
      obtain ⟨type, -, rfl⟩ := List.mem_map.1 member
      exact plain_entry kinds type
  cases form <;> simp only [encode, Form.around, Json.Plain, Json.PlainMembers] <;>
    simp only [schema, keys, and_self]

/-- A result is read back from its text, unless it is nested too deep. -/
theorem read?_encode (description : Description) (kinds : String → TypeKind) (form : Form) :
    SourceText.read? ⟨.introspection, (description.encode kinds form).write⟩ =
      if (description.encode kinds form).depth ≤ Json.Parser.nestingLimit then
        some (.introspection (description.result kinds))
      else none := by
  simp only [SourceText.read?, Json.parse?_write (plain_encode kinds form)]
  split
  · rw [Option.bind_some, decode?_encode, Option.map_some]
  · rfl

theorem depth_field (kinds : String → TypeKind) {fields : List FieldDef} {field : FieldDef}
    (member : field ∈ fields) :
    field.type.listDepth <
      (Introspection.encodeFields (fields.map (TypeDescription.fieldEntry kinds))).depth := by
  have some : (fields.map (TypeDescription.fieldEntry kinds)).isEmpty = false := by
    cases fields with
    | nil => cases member
    | cons => rfl
  rw [Introspection.encodeFields, some, if_neg (by decide)]
  calc field.type.listDepth
      < (Reference.ofExpr kinds field.type).encode.depth := Reference.listDepth_lt_depth kinds _
    _ < (TypeDescription.fieldEntry kinds field).encode.depth :=
        Json.depth_lt_of_member "type" (by simp [TypeDescription.fieldEntry])
    _ < _ := Json.depth_lt_of_item (List.mem_map_of_mem (List.mem_map_of_mem member))

theorem depth_entry (kinds : String → TypeKind) (type : TypeDescription) :
    (Introspection.encodeFields (type.fields.map (TypeDescription.fieldEntry kinds))).depth <
      (type.entry kinds).encode.depth := by
  by_cases input : type.kind = .inputObject
  · refine Json.depth_lt_of_member "inputFields" ?_
    simp [TypeDescription.entry, input]
  · refine Json.depth_lt_of_member "fields" ?_
    simp [TypeDescription.entry, input]

theorem depth_form (form : Form) (schema : Json) : schema.depth < (form.around schema).depth := by
  have data : schema.depth < (Json.object [("__schema", schema)]).depth :=
    Json.depth_lt_of_member "__schema" List.mem_cons_self
  cases form with
  | bare => exact data
  | response => exact Nat.lt_trans data (Json.depth_lt_of_member "data" List.mem_cons_self)

/-- Every type is nested less deep than the result it stands in. -/
theorem depth_type (kinds : String → TypeKind) (form : Form) {type : TypeDescription}
    (member : type ∈ description.types) :
    (type.entry kinds).encode.depth < (description.encode kinds form).depth :=
  calc (type.entry kinds).encode.depth
      < (Json.array ((description.result kinds).types.map TypeEntry.encode)).depth :=
        Json.depth_lt_of_item (List.mem_map_of_mem (List.mem_map_of_mem member))
    _ < (Result.encodeSchema _ _ _ _).depth := Json.depth_lt_of_member "types" (by simp)
    _ < (description.encode kinds form).depth := depth_form form _

/-- A type has fewer lists inside each other than a result with it is deep. -/
theorem listDepth_lt_depth_encode (kinds : String → TypeKind) (form : Form) {type : TypeDescription}
    (member : type ∈ description.types) {field : FieldDef} (among : field ∈ type.fields) :
    field.type.listDepth < (description.encode kinds form).depth :=
  calc field.type.listDepth
      < (Introspection.encodeFields (type.fields.map (TypeDescription.fieldEntry kinds))).depth :=
        depth_field kinds among
    _ < (type.entry kinds).encode.depth := depth_entry kinds type
    _ < (description.encode kinds form).depth := depth_type kinds form member

/-- A document is read back from its text, unless a type is nested too deep. -/
theorem read?_document {document : GraphQL.Document} (documents : description.Documents document)
    (shallow : ∀ type ∈ description.types, ∀ field ∈ type.fields,
      field.type.listDepth ≤ GraphQL.Parser.nestingLimit) :
    SourceText.read? ⟨.document, document.write⟩ = some (.document document) := by
  obtain ⟨before, after, roots, types, perm, rfl⟩ := documents
  have type : ∀ type ∈ description.types, type.definition.IsWritable := by
    intro type member
    refine ⟨type.isName, type.fit, fun field among => ?_⟩
    obtain ⟨name, writable⟩ := type.writable field among
    exact ⟨name, writable, shallow type member field among⟩
  have schema : (GraphQL.Definition.schema false roots).IsWritable := by
    refine ⟨?_, fun root member => description.named root (perm.mem_iff.1 member)⟩
    rintro rfl
    exact absurd perm.nil_eq (by simp [Description.roots, Result.rootList])
  have writable : ∀ one ∈ before.map TypeDescription.definition ++
      .schema false roots :: after.map TypeDescription.definition, one.IsWritable := by
    simp only [List.mem_append, List.mem_cons, List.mem_map]
    rintro one (⟨found, member, rfl⟩ | rfl | ⟨found, member, rfl⟩)
    · exact type found (types ▸ List.mem_append_left _ member)
    · exact schema
    · exact type found (types ▸ List.mem_append_right _ member)
  simp only [SourceText.read?, GraphQL.Document.parse?_write writable (by simp), Option.map_some]

/-- A text of a document that describes the schema, in whatever way it is written. -/
def IsDocumentText (description : Description) (text : List Char) : Prop :=
  ∃ document, description.Documents document ∧
    SourceText.read? ⟨.document, text⟩ = some (.document document)

/-- A text of a result that describes the schema, in whatever way it is written. -/
def IsResultText (description : Description) (text : List Char) : Prop :=
  ∃ kinds, SourceText.read? ⟨.introspection, text⟩ =
    some (.introspection (description.result kinds))

theorem isText_write {document : GraphQL.Document} (documents : description.Documents document)
    {kinds : String → TypeKind} {form : Form}
    (shallow : (description.encode kinds form).depth ≤ Json.Parser.nestingLimit) :
    description.IsDocumentText document.write ∧
      description.IsResultText (description.encode kinds form).write := by
  have limits : Json.Parser.nestingLimit ≤ GraphQL.Parser.nestingLimit := by decide
  have lists : ∀ type ∈ description.types, ∀ field ∈ type.fields,
      field.type.listDepth ≤ GraphQL.Parser.nestingLimit := by
    intro type member field among
    have inside := listDepth_lt_depth_encode kinds form member among
    omega
  have read := description.read?_encode kinds form
  rw [if_pos shallow] at read
  exact ⟨⟨document, documents, read?_document documents lists⟩, ⟨kinds, read⟩⟩

/-- Whatever is declared before, both texts of a schema declare the same. -/
theorem build_eq_of_texts (builder : Builder) {text other : List Char}
    (documentText : description.IsDocumentText text) (resultText : description.IsResultText other) :
    ∃ steps others, Step.ofText? .document text = some steps ∧
      Step.ofText? .introspection other = some others ∧
      (builder.run steps).build = (builder.run others).build := by
  obtain ⟨document, documents, read⟩ := documentText
  obtain ⟨kinds, readOther⟩ := resultText
  refine ⟨document.steps, (description.result kinds).steps, ?_, ?_, ?_⟩
  · rw [Step.ofText?_eq, read]
    rfl
  · rw [Step.ofText?_eq, readOther]
    rfl
  · rw [run_document_eq_run_result documents kinds]

/-- Texts of a document and of a result of one description are read and lead every builder to the
same schema, and a type is referred to by the same name and marks in both. The bound is that of the
reader of results, which is lower than that of documents. -/
theorem texts_agree (description : Description) (kinds : String → TypeKind) :
    (∀ document, description.Documents document →
      ∀ form, (description.encode kinds form).depth ≤ Json.Parser.nestingLimit →
        description.IsDocumentText document.write ∧
          description.IsResultText (description.encode kinds form).write) ∧
    (∀ (builder : Builder) (text other : List Char),
      description.IsDocumentText text → description.IsResultText other →
        ∃ steps others, Step.ofText? .document text = some steps ∧
          Step.ofText? .introspection other = some others ∧
          (builder.run steps).build = (builder.run others).build) ∧
    ∀ type : TypeExpr, type.IsWritable →
      (Reference.decode? (Reference.ofExpr kinds type).encode).bind Reference.type? =
        some (TypeRef.ofExpr type) := by
  refine ⟨?_, ?_, ?_⟩
  · intro document documents form shallow
    exact isText_write documents shallow
  · intro builder text other documentText resultText
    exact build_eq_of_texts builder documentText resultText
  · intro type writable
    rw [Reference.decode?_encode, Option.bind_some, Reference.type?_ofExpr kinds writable]

end Description

/-- A schema with an input, a list that is never null and two roots. -/
def postDescription : Description where
  types := [
    { kind := .object, name := "Query"
      fields := [⟨"posts", .nonNull (.list (.nonNull (.named "Post")))⟩] },
    { kind := .object, name := "Post", fields := [⟨"title", .named "String"⟩] },
    { kind := .inputObject, name := "PostInput", fields := [⟨"tags", .list (.named "String")⟩] }]
  query := "Query"
  mutation := some "Post"

def postKinds (name : String) : TypeKind := if name = "String" then .scalar else .object

def postDocument : GraphQL.Document :=
  postDescription.types.map TypeDescription.definition ++ [.schema false postDescription.roots]

theorem documents_postDocument : postDescription.Documents postDocument :=
  ⟨postDescription.types, [], postDescription.roots, rfl, .refl _, rfl⟩

theorem Description.texts_agree_post :
    postDescription.Documents postDocument ∧
    (postDescription.encode postKinds .response).depth ≤ Json.Parser.nestingLimit ∧
    ∃ steps others, Step.ofText? .document postDocument.write = some steps ∧
      Step.ofText? .introspection (postDescription.encode postKinds .response).write = some others ∧
      (Builder.run {} steps).build = (Builder.run {} others).build := by
  have shallow : (postDescription.encode postKinds .response).depth ≤ Json.Parser.nestingLimit := by
    decide
  obtain ⟨read, same, -⟩ := postDescription.texts_agree postKinds
  obtain ⟨document, result⟩ := read postDocument documents_postDocument .response shallow
  exact ⟨documents_postDocument, shallow, same {} _ _ document result⟩

/-- A field with more lists inside each other than results can have. -/
def deepDescription : Description where
  types := [
    { kind := .object, name := "Query"
      fields := [⟨"deep", Nat.repeat TypeExpr.list 121 (.named "Int")⟩]
      writable := by decide +kernel }]
  query := "Query"

def deepDocument : GraphQL.Document :=
  deepDescription.types.map TypeDescription.definition ++ [.schema false deepDescription.roots]

theorem documents_deepDocument : deepDescription.Documents deepDocument :=
  ⟨deepDescription.types, [], deepDescription.roots, rfl, .refl _, rfl⟩

/-- The result of a field with so many lists is refused in both forms, while the document with the
same field is read and changes the schema. -/
theorem Description.read_deep_as_document_only :
    deepDescription.Documents deepDocument ∧
    Step.ofText? .document deepDocument.write = some deepDocument.steps ∧
    (Builder.run {} deepDocument.steps).build ≠ (Builder.run {} []).build ∧
    Step.ofText? .introspection (deepDescription.encode postKinds .response).write = none ∧
    Step.ofText? .introspection (deepDescription.encode postKinds .bare).write = none := by
  have lists : ∀ type ∈ deepDescription.types, ∀ field ∈ type.fields,
      field.type.listDepth ≤ GraphQL.Parser.nestingLimit := by decide +kernel
  have deep (form : Form) :
      ¬(deepDescription.encode postKinds form).depth ≤ Json.Parser.nestingLimit := by
    cases form <;> decide +kernel
  have refused (form : Form) :
      Step.ofText? .introspection (deepDescription.encode postKinds form).write = none := by
    rw [Step.ofText?_eq, Description.read?_encode, if_neg (deep form), Option.map_none]
  have changed : (Builder.run {} deepDocument.steps).build ≠ (Builder.run {} []).build := by
    intro same
    have query := congrArg (fun schema => (schema.type? "Query").isSome) same
    exact absurd query (by decide +kernel)
  refine ⟨documents_deepDocument, ?_, changed, refused .response, refused .bare⟩
  rw [Step.ofText?_eq, Description.read?_document documents_deepDocument lists]
  rfl

end FieldUsage.Schema
