import FieldUsage.Proofs.Schema.Merge

/-!
Sources that are read again. A definition overrides the kind of a type and an extension does not, a
field overrides the one of its name, and a source may declare the same thing several times: single
steps do not commute. But whatever a whole source has decided, it decides in the same way when it
comes again, and what it has left undecided, it leaves alone again.
-/

namespace FieldUsage.Schema

open GraphQL (OperationKind)

variable (history steps : List Step)

theorem getLast?_filterMap_again {α : Type} (f : Step → Option α) :
    ((history ++ (steps ++ steps)).filterMap f).getLast? =
      ((history ++ steps).filterMap f).getLast? := by
  simp [List.filterMap_append, List.getLast?_append]

/-- A repetition defines the kind that is there. -/
theorem declaredKind?_again (name : String) :
    declaredKind? (history ++ (steps ++ steps)) name = declaredKind? (history ++ steps) name := by
  have extended : ((history ++ (steps ++ steps)).filterMap (·.extendedKind? name)).head? =
      ((history ++ steps).filterMap (·.extendedKind? name)).head? := by
    simp [List.filterMap_append, List.head?_append]
  rw [declaredKind?, declaredKind?, getLast?_filterMap_again, extended]

theorem namedRoot?_again (operation : OperationKind) :
    namedRoot? (history ++ (steps ++ steps)) operation = namedRoot? (history ++ steps) operation :=
  getLast?_filterMap_again history steps _

theorem any_declaresRoots_again :
    (history ++ (steps ++ steps)).any Step.declaresRoots =
      (history ++ steps).any Step.declaresRoots := by
  simp only [List.any_append, Bool.or_self]

variable {steps}

/-- No field of a source is lost: each one overrides what was there before. -/
theorem Introduced.declaredField?_append (introduced : Introduced steps) (type name : String) :
    declaredField? (history ++ steps) type name =
      (steps.filterMap (·.addedField? type name)).getLast?.or
        (declaredField? history type name) := by
  have alone := introduced.declaredField?_eq type name
  unfold declaredField? at alone ⊢
  rw [List.dropWhile_append]
  cases left : history.dropWhile (!·.declares type) with
  | nil =>
      -- the type is new, and the steps introduce it before its fields
      simpa using alone
  | cons step rest => simp

/-- A repetition declares no other field, since no field comes before its type. -/
theorem Introduced.declaredField?_again (introduced : Introduced steps) (type name : String) :
    declaredField? (history ++ (steps ++ steps)) type name =
      declaredField? (history ++ steps) type name := by
  rw [(introduced.append introduced).declaredField?_append, introduced.declaredField?_append]
  simp [List.filterMap_append, List.getLast?_append]

/-- Steps whose fields come after their types do nothing when they come again. -/
theorem Introduced.run_again (introduced : Introduced steps) :
    Builder.run {} (history ++ (steps ++ steps)) = Builder.run {} (history ++ steps) :=
  Builder.run_congr (declaredKind?_again history steps) (introduced.declaredField?_again history)
    (any_declaresRoots_again history steps) (namedRoot?_again history steps)

/-- Texts declare their types before the fields. -/
theorem introduced_flatten {texts : List SourceText} {steps : List (List Step)}
    (read : texts.mapM SourceText.steps? = some steps) : Introduced steps.flatten := by
  rw [mapM_eq_some_iff] at read
  rw [← List.flatMap_id]
  apply Introduced.flatMap
  intro piece member
  have found : some piece ∈ texts.map SourceText.steps? := read ▸ List.mem_map_of_mem member
  obtain ⟨text, -, declared⟩ := List.mem_map.1 found
  rw [SourceText.steps?_eq, Option.map_eq_some_iff] at declared
  obtain ⟨source, -, rfl⟩ := declared
  exact introduced_source source

/-- Sources that are read again right away do nothing: the builder stays as it is, whatever has been
declared before, and so does the schema. -/
theorem run_texts_again (history : List Step) (texts : List SourceText) :
    (∀ steps, texts.mapM SourceText.steps? = some steps →
      ((Builder.run {} history).run steps.flatten).run steps.flatten =
        (Builder.run {} history).run steps.flatten) ∧
    ∀ before, ofTexts? (before ++ (texts ++ texts)) = ofTexts? (before ++ texts) := by
  constructor
  · intro steps read
    have again := (introduced_flatten read).run_again history
    simp only [Builder.run, List.foldl_append] at again ⊢
    exact again
  · intro before
    unfold ofTexts?
    cases first : before.mapM SourceText.steps? with
    | none => simp [List.mapM_append, first]
    | some earlier =>
        cases second : texts.mapM SourceText.steps? with
        | none => simp [List.mapM_append, first, second]
        | some steps =>
            have again := (introduced_flatten second).run_again earlier.flatten
            simp [List.mapM_append, first, second, ofSteps, again]

section Conflict

set_option maxRecDepth 4000

/-- A document that declares a type three times, a field of it twice and a root twice, each time in
another way. -/
def conflictingDocument : SourceText :=
  { format := .document
    text :=
      ("extend type A\x7bx:Int\x7d interface A\x7bx:ID y:A\x7d type A schema\x7bquery:B query:A\x7d" ++
        "extend union B@b").toList }

def conflictingSteps : List Step :=
  [.extend "A" .object, .field "A" { name := "x", type := { name := "Int" } },
    .define "A" .interface, .field "A" { name := "x", type := { name := "ID" } },
    .field "A" { name := "y", type := { name := "A" } }, .define "A" .object, .roots,
    .root .query "B", .root .query "A", .extend "B" .union]

theorem steps?_conflictingDocument : conflictingDocument.steps? = some conflictingSteps := by cbv

theorem run_conflictingDocument_again :
    [conflictingDocument].mapM SourceText.steps? = some [conflictingSteps] ∧
      ((Builder.run {} [.define "A" .enum]).run [conflictingSteps].flatten).run
          [conflictingSteps].flatten =
        (Builder.run {} [.define "A" .enum]).run [conflictingSteps].flatten := by
  have read : [conflictingDocument].mapM SourceText.steps? = some [conflictingSteps] := by
    simp [steps?_conflictingDocument]
  exact ⟨read, (run_texts_again [.define "A" .enum] [conflictingDocument]).1 _ read⟩

end Conflict

end FieldUsage.Schema
