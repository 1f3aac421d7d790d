import FieldUsage.Proofs.Lost

/-!
Changes to a document that keep its usages. The selections of a point can be reordered, spreads can
come and go, and an inline fragment that stays on the type where it stands can be replaced by what
is inside it; the definitions behind the first one can change places. What a search reports of a
literal is how often the target is selected in it, and none of these changes touches that number.
-/

namespace FieldUsage

open GraphQL (Definition Document Selection)

/-- One change of the selections at a point of a document. The last two replace an inline fragment
by what is inside it: one without a condition, or one on the type at the point. -/
inductive GraphQL.Selection.Rewrites (schema : Schema) (origin : Origin) (path : List Enclosing) :
    List Selection → List Selection → Prop where
  | reorder {selections reordered : List Selection} :
      selections.Perm reordered → Rewrites schema origin path selections reordered
  | dropSpread (before : List Selection) (name : String) (after : List Selection) :
      Rewrites schema origin path (before ++ .spread name :: after) (before ++ after)
  | unwrap (before inner after : List Selection) :
      Rewrites schema origin path (before ++ .inline none inner :: after) (before ++ inner ++ after)
  | unwrapCondition {name : String} (before inner after : List Selection) :
      schema.Reaches origin path name →
        Rewrites schema origin path (before ++ .inline (some name) inner :: after)
          (before ++ inner ++ after)

/-- One change of a document: of the selections at some point of it, or of the order of the
definitions behind the first one. -/
inductive GraphQL.Document.Rewrites (schema : Schema) : Document → Document → Prop where
  | selections (gap : Gap) {inner inner' : List Selection} :
      Selection.Rewrites schema gap.heading.origin gap.path inner inner' →
        Rewrites schema (gap.fill inner) (gap.fill inner')
  | definitions (first : Definition) {rest rest' : List Definition} :
      rest.Perm rest' → Rewrites schema (first :: rest) (first :: rest')

namespace Scope

variable {schema : Schema} {scope : Scope}

/-- An inline fragment without a condition, or on the type where it stands, leads back to the very
same scope. -/
theorem enter_inline_self (within : scope.Within schema) {condition : Option String}
    (stays : ∀ name, condition = some name → scope.map (·.name) = some name) :
    scope.enter schema (.inline condition) = scope := by
  cases scope with
  | none => exact enter_none schema _
  | some type =>
      cases condition with
      | none => rfl
      | some name =>
          obtain ⟨stored, composite⟩ := within type rfl
          have same : type.name = name := Option.some.inj (stays name rfl)
          exact onType_eq_some_iff.2 ⟨same ▸ stored, composite⟩

end Scope

/-- The fields of some selections as fields of a document, below the way that leads to them. -/
def FieldNode.below (origin : Origin) (path : List Enclosing) (selections : List Selection) :
    List FieldNode :=
  (Selection.fieldPathsIn selections).map fun field => { field.below path with origin }

namespace FieldNode

variable {schema : Schema} {origin : Origin} {path : List Enclosing}

theorem below_append (origin : Origin) (path : List Enclosing) (first second : List Selection) :
    below origin path (first ++ second) = below origin path first ++ below origin path second := by
  unfold below
  rw [Selection.fieldPathsIn_append, List.map_append]

/-- Selections in another order have the same fields in another order. -/
theorem below_perm {first second : List Selection} (perm : first.Perm second) :
    (below origin path first).Perm (below origin path second) := by
  have listed (selections : List Selection) :
      Selection.fieldPathsIn selections = selections.flatMap Selection.fieldPaths := by
    induction selections with
    | nil => rw [Selection.fieldPathsIn, List.flatMap_nil]
    | cons selection rest ih => rw [Selection.fieldPathsIn, List.flatMap_cons, ih]
  unfold below
  rw [listed, listed]
  exact (perm.flatMap_right _).map _

theorem below_spread (name : String) (rest : List Selection) :
    below origin path (.spread name :: rest) = below origin path rest := by
  unfold below
  rw [Selection.fieldPathsIn, Selection.fieldPaths, List.nil_append]

/-- Below a fragment that stays on its type, the same fields are selections of a target as without
the fragment. -/
theorem countP_below_inline (target : Target) {condition : Option String}
    (stays : ∀ name, condition = some name → schema.Reaches origin path name)
    (before inner after : List Selection) :
    (below origin path (before ++ .inline condition inner :: after)).countP
        (·.IsSelection schema target) =
      (below origin path (before ++ inner ++ after)).countP (·.IsSelection schema target) := by
  have within : (Scope.follow schema (.start schema origin) path).Within schema :=
    Scope.follow_within (Scope.start_within schema origin) path
  have reentered := Scope.enter_inline_self within fun name same =>
    Scope.name_follow_start_iff.2 (stays name same)
  -- the step of the fragment drops out of every way that goes through it
  have same (field : FieldPath) :
      (({ (field.inside (.inline condition)).below path with origin } : FieldNode).IsSelection
          schema target ↔
        ({ field.below path with origin } : FieldNode).IsSelection schema target) := by
    unfold IsSelection
    rw [← name_scope_iff, ← name_scope_iff]
    simp only [scope, FieldPath.below, FieldPath.inside, Scope.follow_append, Scope.follow,
      reentered]
  rw [List.append_assoc, below_append, below_append, List.countP_append, List.countP_append]
  unfold below
  rw [Selection.fieldPathsIn, Selection.fieldPaths, Selection.fieldPathsIn_append]
  simp only [List.map_append, List.map_map, List.countP_append, List.countP_map]
  congr 2
  apply List.countP_congr
  intro field _
  simpa using same field

end FieldNode

namespace GraphQL

variable {schema : Schema}

/-- One change of selections keeps the number of selections of a target. -/
theorem Selection.Rewrites.countP_eq {origin : Origin} {path : List Enclosing}
    {inner inner' : List Selection} (rewrites : Selection.Rewrites schema origin path inner inner')
    (target : Target) :
    (FieldNode.below origin path inner).countP (·.IsSelection schema target) =
      (FieldNode.below origin path inner').countP (·.IsSelection schema target) := by
  cases rewrites with
  | reorder perm => exact (FieldNode.below_perm perm).countP_eq _
  | dropSpread before name after =>
      rw [FieldNode.below_append, FieldNode.below_append, FieldNode.below_spread]
  | unwrap before inner after =>
      have stays (name : String) (same : none = some name) : schema.Reaches origin path name :=
        nomatch same
      exact FieldNode.countP_below_inline target stays before inner after
  | unwrapCondition before inner after reached =>
      have stays (name : String) (same : some _ = some name) : schema.Reaches origin path name :=
        Option.some.inj same ▸ reached
      exact FieldNode.countP_below_inline target stays before inner after

/-- One change of a document keeps the number of selections of a target. -/
theorem Document.Rewrites.countP_eq {document document' : Document}
    (rewrites : Document.Rewrites schema document document') (target : Target) :
    document.fieldNodes.countP (·.IsSelection schema target) =
      document'.fieldNodes.countP (·.IsSelection schema target) := by
  cases rewrites with
  | selections gap rewrites =>
      obtain ⟨before, after, filled⟩ := gap.fieldNodes_fill
      have same := rewrites.countP_eq target
      unfold FieldNode.below at same
      rw [filled, filled]
      simp only [List.countP_append, same]
  | definitions first perm =>
      apply List.Perm.countP_eq
      exact (perm.cons first).flatMap_right _

/-- No change touches the first definition's name. -/
theorem Document.Rewrites.firstName_eq {document document' : Document}
    (rewrites : Document.Rewrites schema document document') :
    document.firstName = document'.firstName := by
  cases rewrites with
  | selections gap _ => exact gap.firstName_fill _ _
  | definitions first _ => rfl

/-- Any number of changes, made or taken back, keep what a search reports of a document. -/
theorem Document.report_eq_of_rewritten {document document' : Document}
    (rewritten : Relation.EqvGen (Document.Rewrites schema) document document')
    (target : Target) :
    document.fieldNodes.countP (·.IsSelection schema target) =
        document'.fieldNodes.countP (·.IsSelection schema target) ∧
      document.firstName = document'.firstName := by
  induction rewritten with
  | rel _ _ rewrites => exact ⟨rewrites.countP_eq target, rewrites.firstName_eq⟩
  | refl _ => exact ⟨rfl, rfl⟩
  | symm _ _ _ ih => exact ⟨ih.1.symm, ih.2.symm⟩
  | trans _ _ _ _ _ first second => exact ⟨first.1.trans second.1, first.2.trans second.2⟩

end GraphQL

namespace Literal

/-- Two texts of a literal that are documents with the same meaning have the same usages of every
target, as lists. -/
theorem search_eq_of_rewritten (literal : Literal) (schema : Schema) (target : Target)
    {raw : List Char} {document document' : Document}
    (parsed : Document.parse? literal.raw = some document)
    (parsed' : Document.parse? raw = some document')
    (rewritten : Relation.EqvGen (Document.Rewrites schema) document document') :
    search { literal with raw } schema target = literal.search schema target := by
  obtain ⟨count, name⟩ := Document.report_eq_of_rewritten rewritten target
  rw [literal.search_eq_replicate schema target parsed,
    search_eq_replicate { literal with raw } schema target parsed', count]
  unfold usage
  rw [name]

/-- The selections below the user of the first definition, with other definitions behind it. -/
def userGap (after : List Definition) : Gap :=
  { before := []
    heading := .operation .query none
    frames := [{ before := [], step := .field "user", after := [] }]
    after }

def userFragment : Definition := .fragment "F" "User" [.field "id" []]

def userMutation : Definition := .operation .mutation (some "M") [.field "user" []]

def wrappedLiteral : Literal :=
  { path := "a.ts"
    line := 3
    raw :=
      ("\x7buser\x7b...on User\x7b...\x7bfriends\x7bid\x7d\x7d\x7d...F id\x7d\x7d" ++
        "fragment F on User\x7bid\x7dmutation M\x7buser\x7d").toList }

def unwrappedText : List Char :=
  ("\x7buser\x7bid friends\x7bid\x7d\x7d\x7d" ++
    "mutation M\x7buser\x7dfragment F on User\x7bid\x7d").toList

theorem parse?_wrapped :
    Document.parse? wrappedLiteral.raw =
      some ((userGap [userFragment, userMutation]).fill
        [.inline (some "User") [.inline none [.field "friends" [.field "id" []]]],
         .spread "F", .field "id" []]) := by
  cbv

theorem parse?_unwrapped :
    Document.parse? unwrappedText =
      some ((userGap [userMutation, userFragment]).fill
        [.field "id" [], .field "friends" [.field "id" []]]) := by
  cbv

/-- Both fragments are unwrapped, the spread is dropped, and selections and definitions change
places; three identifiers of users are found before and after. -/
theorem search_wrapped :
    let target : Target := { typeName := "User", fieldName := "id" }
    search { wrappedLiteral with raw := unwrappedText } socialSchema target =
        wrappedLiteral.search socialSchema target ∧
      wrappedLiteral.search socialSchema target =
        .ok (List.replicate 3 { path := "a.ts", line := 3, operation := none }) := by
  intro target
  let friends : Selection := .field "friends" [.field "id" []]
  let gap := userGap [userFragment, userMutation]
  have reached : socialSchema.Reaches (.operation .query) [.field "user"] "User" :=
    Scope.name_follow_start_iff.1 (by decide +kernel)
  constructor
  · apply search_eq_of_rewritten _ _ _ parse?_wrapped parse?_unwrapped
    refine .trans _ (gap.fill [.inline none [friends], .spread "F", .field "id" []]) _
      (.rel _ _ (.selections gap (.unwrapCondition [] _ _ reached))) ?_
    refine .trans _ (gap.fill [friends, .spread "F", .field "id" []]) _
      (.rel _ _ (.selections gap (.unwrap [] _ _))) ?_
    refine .trans _ (gap.fill [friends, .field "id" []]) _
      (.rel _ _ (.selections gap (.dropSpread [friends] "F" _))) ?_
    refine .trans _ (gap.fill [.field "id" [], friends]) _
      (.rel _ _ (.selections gap (.reorder (.swap ..)))) ?_
    exact .rel _ _ (.definitions _ (.swap ..))
  · rw [wrappedLiteral.search_eq_replicate socialSchema target parse?_wrapped]
    exact congrArg Except.ok (by decide +kernel)

end Literal

end FieldUsage
