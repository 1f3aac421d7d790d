import FieldUsage.Proofs.Path
import Mathlib.Data.List.Basic

/-!
Paths below other paths. Joining is associative, whichever of the paths are empty, absolute or end
with a separator, and a relative path adds its steps to the components of the one before it. A path
that is made of names has these names as its components.
-/

namespace FieldUsage

/-- A text is made of its pieces again. -/
theorem Text.eq_of_splitAtEvery {separator : Char} {text first : List Char}
    {more : List (List Char)} (split : splitAtEvery separator text = first :: more) :
    text = first ++ more.flatMap (separator :: ·) := by
  induction text generalizing first more with
  | nil =>
      cases split
      rfl
  | cons c rest ih =>
      obtain ⟨piece, others, inner⟩ := List.exists_cons_of_ne_nil
        (splitAtEvery_ne_nil separator rest)
      have whole := ih inner
      rw [splitAtEvery, inner] at split
      split at split
      case isTrue same =>
        cases split
        rw [whole, same]
        rfl
      case isFalse =>
        cases split
        rw [whole]
        rfl

namespace Path

/-- What stands between a path and a relative one that is joined to it. -/
def glue (base : Path) : String :=
  if base.isEmpty || base.toList.getLast? == some '/' then "" else "/"

theorem join_of_absolute (base : Path) {rest : Path} (absolute : isAbsolute rest = true) :
    base.join rest = rest := by
  simp [join, absolute]

theorem join_of_relative (base : Path) {rest : Path} (relative : isAbsolute rest = false) :
    base.join rest = base ++ (glue base ++ rest) := by
  unfold join glue
  rw [relative, if_neg Bool.false_ne_true]
  by_cases ends : (base.isEmpty || base.toList.getLast? == some '/') = true
  · rw [if_pos ends, if_pos ends, String.empty_append]
  · rw [if_neg ends, if_neg ends, String.append_assoc]

theorem isAbsolute_append {first : Path} (solid : first ≠ "") (second : String) :
    isAbsolute (first ++ second) = isAbsolute first := by
  have start : first.toList ≠ [] := by simpa using solid
  obtain ⟨c, rest, shape⟩ := List.exists_cons_of_ne_nil start
  simp [isAbsolute, shape]

theorem glue_append (first : Path) {second : Path} (solid : second ≠ "") :
    glue (first ++ second) = glue second := by
  have tail : second.toList ≠ [] := by simpa using solid
  have last : (first.toList ++ second.toList).getLast? = second.toList.getLast? :=
    List.getLast?_append_of_ne_nil _ tail
  simp [glue, last, solid]

theorem isAbsolute_join (base : Path) {rest : Path} (relative : isAbsolute rest = false) :
    isAbsolute (base.join rest) = isAbsolute base := by
  rw [join_of_relative base relative]
  by_cases empty : base = ""
  · subst empty
    exact relative
  · exact isAbsolute_append empty _

/-- Paths can be joined in any order. -/
theorem join_assoc (first second third : Path) :
    (first.join second).join third = first.join (second.join third) := by
  cases absolute : isAbsolute third with
  | true =>
      rw [join_of_absolute _ absolute, join_of_absolute _ absolute, join_of_absolute _ absolute]
  | false =>
      cases absolute' : isAbsolute second with
      | true =>
          have whole : isAbsolute (second.join third) = true := by
            rw [isAbsolute_join second absolute, absolute']
          rw [join_of_absolute _ absolute', join_of_absolute _ whole]
      | false =>
          have whole : isAbsolute (second.join third) = false := by
            rw [isAbsolute_join second absolute, absolute']
          rw [join_of_relative first absolute', join_of_relative first whole,
            join_of_relative _ absolute, join_of_relative second absolute]
          by_cases empty : second = ""
          · -- the separator that stands behind the first path is not written twice
            subst empty
            have once : glue (first ++ (glue first ++ "")) = "" := by
              unfold glue
              split <;> simp_all
            rw [once]
            simp [glue, String.append_assoc]
          · have same : glue (first ++ (glue first ++ second)) = glue second := by
              rw [← String.append_assoc, glue_append _ empty]
            rw [same]
            simp [String.append_assoc]

/-- The steps of a path, wherever it starts. -/
def stepsOf (path : Path) : List Component := steps (Text.splitAtEvery '/' path.toList)

/-- The steps of a relative path come after the components of the path before it. -/
theorem components_join {base rest : Path} (solid : base ≠ "")
    (relative : isAbsolute rest = false) :
    components (base.join rest) = components base ++ stepsOf rest := by
  unfold stepsOf
  have start : base.toList ≠ [] := by simpa using solid
  rw [join_of_relative base relative]
  by_cases ends : base.toList.getLast? = some '/'
  · obtain ⟨before, shape⟩ := List.getLast?_eq_some_iff.1 ends
    have whole : base ++ (glue base ++ rest) = String.ofList (before ++ '/' :: rest.toList) := by
      rw [← String.toList_inj]
      simp [glue, shape]
    have written : base = String.ofList (before ++ ['/']) := by
      rw [← shape, String.ofList_toList]
    rw [whole, written]
    cases before with
    | nil =>
        rw [List.nil_append, List.nil_append, components_root, components_root]
        rfl
    | cons c more =>
        rw [components_append (List.cons_ne_nil c more),
          components_separator (List.cons_ne_nil c more)]
  · have whole : base ++ (glue base ++ rest) =
        String.ofList (base.toList ++ '/' :: rest.toList) := by
      rw [← String.toList_inj]
      simp [glue, ends, solid]
    rw [whole, components_append start, String.ofList_toList]

/-- The steps of a relative path come after those of the path before it. -/
theorem stepsOf_join (base : Path) {rest : Path} (relative : isAbsolute rest = false) :
    stepsOf (base.join rest) = stepsOf base ++ stepsOf rest := by
  unfold stepsOf
  rw [join_of_relative base relative]
  by_cases empty : base = ""
  · subst empty
    simp [glue, Text.splitAtEvery, steps]
  · by_cases ends : base.toList.getLast? = some '/'
    · obtain ⟨before, shape⟩ := List.getLast?_eq_some_iff.1 ends
      have whole : (base ++ (glue base ++ rest)).toList = before ++ '/' :: rest.toList := by
        simp [glue, shape]
      have last : steps (Text.splitAtEvery '/' []) = [] := rfl
      rw [whole, shape, Text.splitAtEvery_append, Text.splitAtEvery_append, steps_append,
        steps_append, last, List.append_nil]
    · have whole : (base ++ (glue base ++ rest)).toList = base.toList ++ '/' :: rest.toList := by
        simp [glue, ends, empty]
      rw [whole, Text.splitAtEvery_append, steps_append]

/-- A separator stands before a relative path that is joined to another one. -/
theorem exists_toList_join {base rest : Path} (solid : base ≠ "")
    (relative : isAbsolute rest = false) :
    ∃ before, (base.join rest).toList = before ++ '/' :: rest.toList := by
  rw [join_of_relative base relative]
  by_cases ends : base.toList.getLast? = some '/'
  · obtain ⟨before, shape⟩ := List.getLast?_eq_some_iff.1 ends
    exact ⟨before, by simp [glue, shape]⟩
  · exact ⟨base.toList, by simp [glue, ends, solid]⟩

theorem stepsOf_piece {name : String} (whole : '/' ∉ name.toList) :
    stepsOf name = steps [name.toList] := by
  unfold stepsOf
  rw [Text.splitAtEvery_of_notMem whole]

theorem root_notMem_steps (pieces : List (List Char)) : Component.root ∉ steps pieces := by
  intro member
  obtain ⟨piece, -, made⟩ := List.mem_filterMap.1 member
  split at made
  · cases made
  · split at made <;> cases made

theorem root_notMem_stepsOf (path : Path) : Component.root ∉ stepsOf path :=
  root_notMem_steps _

/-- Only `..` goes up. -/
theorem up_mem_stepsOf {name : String} (whole : '/' ∉ name.toList)
    (member : Component.up ∈ stepsOf name) : name = ".." := by
  rw [stepsOf_piece whole] at member
  obtain ⟨piece, inside, made⟩ := List.mem_filterMap.1 member
  obtain rfl := List.mem_singleton.1 inside
  split at made
  · cases made
  · split at made
    case isTrue same => exact String.toList_inj.1 same
    case isFalse => cases made

theorem IsFileName.glue_eq {name : String} (named : IsFileName name) : glue name = "/" := by
  have inside : name.toList.getLast? ≠ some '/' := by
    intro last
    exact named.1 (List.mem_of_getLast? last)
  simp [glue, named.2.1, inside]

/-! Paths that are made of names. -/

section Names

variable {names : List String} (named : ∀ name ∈ names, IsFileName name)
include named

theorem isAbsolute_intercalate : isAbsolute ("/".intercalate names) = false := by
  cases names with
  | nil => rfl
  | cons name rest =>
      have here : IsFileName name := named name List.mem_cons_self
      have plain : isAbsolute name = false := isAbsolute_of_notMem here.1
      cases rest with
      | nil => simpa using plain
      | cons next more =>
          rw [String.intercalate_cons_cons, String.append_assoc, isAbsolute_append here.2.1, plain]

theorem intercalate_cons {name : String} (here : IsFileName name) (solid : names ≠ []) :
    "/".intercalate (name :: names) = Path.join name ("/".intercalate names) := by
  obtain ⟨next, more, rfl⟩ := List.exists_cons_of_ne_nil solid
  rw [join_of_relative name (isAbsolute_intercalate named), here.glue_eq,
    String.intercalate_cons_cons, String.append_assoc]

/-- Names with separators between them are the steps of a path. -/
theorem stepsOf_intercalate : stepsOf ("/".intercalate names) = names.map .name := by
  induction names with
  | nil => rfl
  | cons name rest ih =>
      obtain ⟨here, others⟩ := List.forall_mem_cons.1 named
      have first : stepsOf name = [.name name] := by
        rw [stepsOf_piece here.1, steps_piece here.toList_ne_nil here.toList_ne_here,
          here.componentOf_eq]
      by_cases last : rest = []
      · simpa [last] using first
      · rw [intercalate_cons others here last, stepsOf_join _ (isAbsolute_intercalate others),
          first, ih others]
        rfl

/-- Below a directory, names add their components. -/
theorem components_join_intercalate {base : Path} (solid : base ≠ "") :
    components (base.join ("/".intercalate names)) = components base ++ names.map .name := by
  rw [components_join solid (isAbsolute_intercalate named), stepsOf_intercalate named]

theorem components_intercalate : components ("/".intercalate names) = names.map .name := by
  cases names with
  | nil => rfl
  | cons name rest =>
      obtain ⟨here, others⟩ := List.forall_mem_cons.1 named
      by_cases last : rest = []
      · simpa [last] using here.components_eq
      · rw [intercalate_cons others here last, components_join_intercalate others here.2.1,
          here.components_eq]
        rfl

/-- The end of a path decides about its extension. -/
theorem extension?_join_intercalate {base : Path} (solid : base ≠ "") (given : names ≠ []) :
    (base.join ("/".intercalate names)).extension? = extension? ("/".intercalate names) := by
  unfold extension? fileName?
  rw [components_join_intercalate named solid, components_intercalate named,
    List.getLast?_append_of_ne_nil]
  simpa using given

end Names

/-- Names can be read off their path. -/
theorem intercalate_inj {first second : List String} (named : ∀ name ∈ first, IsFileName name)
    (named' : ∀ name ∈ second, IsFileName name)
    (same : "/".intercalate first = "/".intercalate second) : first = second := by
  have steps : first.map Component.name = second.map Component.name := by
    rw [← stepsOf_intercalate named, ← stepsOf_intercalate named', same]
  have injective : Function.Injective Component.name := fun _ _ => Component.name.inj
  exact List.map_injective_iff.2 injective steps

end Path

end FieldUsage
