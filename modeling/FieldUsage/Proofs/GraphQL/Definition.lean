import FieldUsage.GraphQL.Parser

/-!
Which definitions have fields. The definitions of a document that was read have fields only where
the grammar lets them: on objects, interfaces and inputs.
-/

namespace FieldUsage.GraphQL

/-- Objects, interfaces and inputs are written with fields. -/
def TypeKind.hasFields : TypeKind → Bool
  | .object | .interface | .inputObject => true
  | .scalar | .union | .enum => false

/-- A definition has fields only if it defines or extends a type that is written with fields. -/
def Definition.FieldsFit : Definition → Prop
  | .type _ kind _ fields => kind.hasFields = false → fields = []
  | _ => True

namespace Parser

variable {α β : Type}

/-- Whatever a reader gives has a property. -/
def Gives (reader : Reader α) (property : α → Prop) : Prop :=
  ∀ state value rest, reader.run state = some (value, rest) → property value

theorem Gives.pure {property : α → Prop} {value : α} (holds : property value) :
    Gives (pure value) property := by
  intro state found rest ran
  obtain ⟨rfl, -⟩ := Prod.mk.inj (Option.some.inj ran)
  exact holds

theorem Gives.failure {property : α → Prop} : Gives failure property := nofun

/-- A property of what is read first can be used for what is read next. -/
theorem Gives.bind {reader : Reader α} {next : α → Reader β} {first : α → Prop}
    {property : β → Prop} (here : Gives reader first)
    (there : ∀ value, first value → Gives (next value) property) :
    Gives (reader >>= next) property := by
  intro state found rest ran
  obtain ⟨⟨value, middle⟩, read, more⟩ := Option.bind_eq_some_iff.1 ran
  exact there value (here state value middle read) middle found rest more

/-- A reader of which nothing has to be known, followed by another one. -/
theorem Gives.after {reader : Reader α} {next : α → Reader β} {property : β → Prop}
    (there : ∀ value, Gives (next value) property) : Gives (reader >>= next) property := by
  have anything : Gives reader fun _ => True := fun _ _ _ _ => trivial
  exact anything.bind fun value _ => there value

theorem Gives.whileNext {condition : Reader Bool} {item : Reader α} {property : α → Prop}
    (each : Gives item property) (bound : Nat) :
    Gives (whileNext condition item bound) fun values => ∀ value ∈ values, property value := by
  induction bound with
  | zero => exact .failure
  | succ bound ih =>
      refine .after fun more => ?_
      cases more with
      | false => exact .pure (by simp)
      | true =>
          refine .bind each fun value holds => .bind ih fun values all => .pure ?_
          exact List.forall_mem_cons.2 ⟨holds, all⟩

theorem Gives.many {condition : Reader Bool} {item : Reader α} {property : α → Prop}
    (each : Gives item property) :
    Gives (many condition item) fun values => ∀ value ∈ values, property value :=
  .after fun _ => .whileNext each _

theorem operation_fieldsFit : Gives operation Definition.FieldsFit := by
  unfold operation
  refine .after fun short => ?_
  cases short with
  | true => exact .after fun _ => .pure trivial
  | false =>
      refine .after fun word => ?_
      split
      · exact .failure
      · refine .after fun named => ?_
        -- whether there is a name and whether there are variables, an operation comes out
        cases named <;> refine .after fun _ => .after fun parameters => ?_ <;> cases parameters
        · exact .after fun _ => .after fun _ => .pure trivial
        · exact .after fun _ => .after fun _ => .after fun _ => .pure trivial
        · exact .after fun _ => .after fun _ => .pure trivial
        · exact .after fun _ => .after fun _ => .after fun _ => .pure trivial

theorem fragment_fieldsFit : Gives fragment Definition.FieldsFit :=
  .after fun _ => .after fun _ => .after fun _ => .after fun _ => .after fun _ => .pure trivial

theorem schemaDef_fieldsFit (isExtension : Bool) :
    Gives (schemaDef isExtension) Definition.FieldsFit := by
  unfold schemaDef
  refine .after fun _ => .after fun _ => ?_
  split
  · exact .failure
  · exact .pure trivial

theorem directiveDef_fieldsFit : Gives directiveDef Definition.FieldsFit := by
  have finish (title : String) : Gives (do
      expectWord "on"
      let locations ← separatedNames '|'
      unless locations.all directiveLocations.contains do failure
      return Definition.directive title) Definition.FieldsFit := by
    refine .after fun _ => .after fun locations => ?_
    cases locations.all directiveLocations.contains with
    | true => exact .pure trivial
    | false => exact .bind .failure fun _ (_ : True) => .pure trivial
  have repeatable (title : String) : Gives (do
      if (← peek) == some (.name "repeatable") then skip
      expectWord "on"
      let locations ← separatedNames '|'
      unless locations.all directiveLocations.contains do failure
      return Definition.directive title) Definition.FieldsFit := by
    refine .after fun next => ?_
    cases next == some (.name "repeatable") with
    | true => exact .after fun _ => finish title
    | false => exact finish title
  refine .after fun _ => .after fun title => .after fun arguments => ?_
  cases arguments with
  | true => exact .after fun _ => repeatable title
  | false => exact repeatable title

/-- The grammar reads no fields for scalars, unions and enumerations. -/
theorem typeDef_fieldsFit (isExtension : Bool) (kind : TypeKind) :
    Gives (typeDef isExtension kind) Definition.FieldsFit := by
  have finish {fields : List FieldDef} (name : String) (adds : Bool)
      (fits : kind.hasFields = false → fields = []) :
      Gives (do
        if isExtension && !adds then failure
        return .type isExtension kind name fields) Definition.FieldsFit := by
    cases isExtension && !adds with
    | true => exact .bind .failure fun _ (_ : True) => .pure fits
    | false => exact .pure fits
  have empty (read : Bool) : Gives (pure (([] : List FieldDef), read)) fun read => read.1 = [] :=
    .pure rfl
  unfold typeDef
  refine .after fun name => ?_
  cases kind with
  | object | interface | inputObject =>
      exact .after fun _ => .after fun _ => .after fun _ => .after fun _ => finish name _ nofun
  | enum =>
      refine .after fun _ => .after fun _ => .after fun _ => ?_
      exact (empty _).bind fun _ none => finish name _ fun _ => none
  | scalar =>
      refine .after fun _ => .after fun _ => ?_
      exact (empty _).bind fun _ none => finish name _ fun _ => none
  | union =>
      refine .after fun _ => .after fun _ => .after fun members => ?_
      cases members with
      | true =>
          refine .after fun _ => ?_
          exact (empty _).bind fun _ none => finish name _ fun _ => none
      | false => exact (empty _).bind fun _ none => finish name _ fun _ => none

/-- Only definitions of types have fields, and of these only those of some kinds. -/
theorem systemDef_fieldsFit (isExtension : Bool) (word : String) :
    Gives (systemDef isExtension word) Definition.FieldsFit := by
  unfold systemDef
  refine .after fun _ => ?_
  split
  · exact schemaDef_fieldsFit isExtension
  · split
    · exact directiveDef_fieldsFit
    · split
      · exact typeDef_fieldsFit isExtension _
      · exact .failure

theorem definition_fieldsFit : Gives definition Definition.FieldsFit := by
  unfold definition
  refine .after fun next => ?_
  split
  · exact operation_fieldsFit
  · refine .after fun second => ?_
    split
    · exact fragment_fieldsFit
    · exact .after fun _ => systemDef_fieldsFit false _
    · exact .failure
  · exact fragment_fieldsFit
  · refine .after fun second => ?_
    split
    · exact .after fun _ => systemDef_fieldsFit true _
    · exact .failure
  · split
    · exact operation_fieldsFit
    · exact systemDef_fieldsFit false _
  · exact .failure

/-- Every definition in a document has fields only where it may. -/
theorem document_fieldsFit :
    Gives document fun definitions => ∀ definition ∈ definitions, definition.FieldsFit := by
  refine (Gives.many definition_fieldsFit).bind fun definitions fit => ?_
  dsimp only
  split
  · exact .failure
  · exact .pure fit

end Parser

/-- Only objects, interfaces and inputs of a document have fields. -/
theorem Document.fieldsFit_of_parse? {text : List Char} {document : Document}
    (parsed : Document.parse? text = some document) :
    ∀ definition ∈ document, definition.FieldsFit := by
  obtain ⟨tokens, -, parsed⟩ := Option.bind_eq_some_iff.1 parsed
  obtain ⟨⟨found, rest⟩, ran, same⟩ := Option.bind_eq_some_iff.1 parsed
  obtain rfl : found = document := Option.some.inj same
  exact Parser.document_fieldsFit tokens found rest ran

end FieldUsage.GraphQL
