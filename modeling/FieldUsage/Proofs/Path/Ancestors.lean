import FieldUsage.Proofs.Path.Join
import Mathlib.Logic.Relation

/-!
The directories at and above a path, as far as the path itself tells. Leaving out the last component
again and again leads to the root or to the empty path, and the ancestors of a path are all that is
passed on the way.
-/

namespace FieldUsage.Path

/-- One path is the other without its last component. -/
def IsParent (path above : Path) : Prop := parent? path = some above

/-- A directory is what is left of a path without some components at its end, be it none. -/
def Climbs : Path → Path → Prop := Relation.ReflTransGen IsParent

/-- The way up is one: a path has one parent at most. -/
theorem isParent_rightUnique : Relator.RightUnique IsParent := by
  intro path above other first second
  exact Option.some.inj (first.symm.trans second)

/-- The component that a parent leaves out is not the root. -/
theorem components_of_isParent {path above : Path} (parent : IsParent path above) :
    ∃ last, last ≠ .root ∧ components path = components above ++ [last] := by
  have shorter := components_parent? parent
  unfold IsParent parent? at parent
  split at parent
  case h_1 => cases parent
  case h_2 => cases parent
  case h_3 last notRoot ends =>
    obtain ⟨before, shape⟩ := List.getLast?_eq_some_iff.1 ends
    rw [shape, List.dropLast_concat] at shorter
    exact ⟨last, notRoot, by rw [shape, shorter]⟩

/-- A step up takes a component away. -/
theorem IsParent.length_components_lt {path above : Path} (parent : IsParent path above) :
    (components above).length < (components path).length := by
  obtain ⟨last, -, shape⟩ := components_of_isParent parent
  simp [shape]

/-- What holds of a path if it holds of its parent holds of every path. -/
@[elab_as_elim]
theorem parentInduction {motive : Path → Prop}
    (step : ∀ path, (∀ above, IsParent path above → motive above) → motive path) (path : Path) :
    motive path := by
  apply step
  intro above parent
  have shorter := parent.length_components_lt
  exact parentInduction step above
termination_by (components path).length

/-- A path is the directory with some components behind it, none of which is the root. -/
theorem components_of_climbs {path directory : Path} (climbs : Climbs path directory) :
    ∃ below, components path = components directory ++ below ∧ Component.root ∉ below := by
  induction climbs using Relation.ReflTransGen.head_induction_on with
  | refl => exact ⟨[], (List.append_nil _).symm, List.not_mem_nil⟩
  | head parent _ ih =>
      obtain ⟨last, notRoot, shape⟩ := components_of_isParent parent
      obtain ⟨below, split, rootless⟩ := ih
      refine ⟨below ++ [last], by rw [shape, split, List.append_assoc], ?_⟩
      simpa [rootless] using notRoot.symm

/-- Steps up leave fewer components. -/
theorem length_components_lt {path above : Path} (further : Relation.TransGen IsParent path above) :
    (components above).length < (components path).length := by
  induction further with
  | single parent => exact parent.length_components_lt
  | tail _ parent ih => exact Nat.lt_trans parent.length_components_lt ih

/-- The directories at and above a path differ in their components. -/
theorem eq_of_components_eq {path first second : Path} (climbs : Climbs path first)
    (climbs' : Climbs path second) (same : components first = components second) :
    first = second := by
  have apart {first second : Path} (climbs : Climbs first second)
      (same : components first = components second) : second = first := by
    rcases Relation.reflTransGen_iff_eq_or_transGen.1 climbs with equal | further
    · exact equal
    · exact absurd (length_components_lt further) (by simp [same])
  rcases Relation.ReflTransGen.total_of_right_unique isParent_rightUnique climbs climbs' with
    above | above
  · exact (apart above same).symm
  · exact apart above same.symm

theorem eq_root_of_getLast? {path : Path} (last : (components path).getLast? = some .root) :
    components path = [.root] := by
  have inner (pieces : List (List Char)) : (steps pieces).getLast? ≠ some .root := fun ends =>
    root_notMem_steps pieces (List.mem_of_getLast? ends)
  obtain ⟨first, pieces, shape⟩ : ∃ first pieces, components path = steps pieces ∨
      components path = first :: steps pieces ∧ (first = .root ∨ first = .here) := by
    unfold components
    split
    case h_1 => exact ⟨.root, [], .inl rfl⟩
    case h_2 piece rest _ =>
      split
      · exact ⟨.root, piece :: rest, .inr ⟨rfl, .inl rfl⟩⟩
      · split
        · exact ⟨.here, rest, .inr ⟨rfl, .inr rfl⟩⟩
        · exact ⟨.root, piece :: rest, .inl rfl⟩
  rcases shape with plain | ⟨shape, kind⟩
  · exact absurd (plain ▸ last) (inner pieces)
  · rw [shape] at last ⊢
    cases ends : (steps pieces).getLast? with
    | none =>
        obtain nothing := List.getLast?_eq_none_iff.1 ends
        simp_all
    | some component =>
        rw [List.getLast?_cons, ends, Option.getD_some] at last
        exact absurd (ends.trans last) (inner pieces)

/-- Only the root and the empty path have no parent. -/
theorem parent?_eq_none_iff {path : Path} :
    parent? path = none ↔ path = "" ∨ components path = [.root] := by
  constructor
  · intro none
    unfold parent? at none
    split at none
    case h_1 empty =>
      rw [List.getLast?_eq_none_iff] at empty
      exact .inl (Classical.not_not.1 fun solid => components_ne_nil solid empty)
    case h_2 last => exact .inr (eq_root_of_getLast? last)
    case h_3 => cases none
  · rintro (rfl | root)
    · rfl
    · unfold parent?
      rw [root]
      rfl

/-- A path leads up to the root or to the empty path. -/
theorem exists_top (path : Path) :
    ∃ top, Climbs path top ∧ (top = "" ∨ components top = [.root]) := by
  induction path using parentInduction with
  | step path ih =>
      cases parent : parent? path with
      | none => exact ⟨path, .refl, parent?_eq_none_iff.1 parent⟩
      | some above =>
          obtain ⟨top, climbs, ends⟩ := ih above parent
          exact ⟨top, .head parent climbs, ends⟩

/-- The ancestors of a path are the path and the ancestors of its parent. -/
theorem ancestors_eq (path : Path) :
    ancestors path = path :: (parent? path).elim [] ancestors := by
  unfold ancestors
  cases parent : parent? path with
  | none => cases (components path).length <;> simp [ancestors.go, parent]
  | some above =>
      obtain ⟨last, -, shape⟩ := components_of_isParent parent
      simp [shape, ancestors.go, parent]

/-- The ancestors of a path are the directories on its way up. -/
theorem mem_ancestors_iff {path directory : Path} :
    directory ∈ path.ancestors ↔ Climbs path directory := by
  induction path using parentInduction with
  | step path ih =>
      unfold Climbs
      rw [ancestors_eq, List.mem_cons, Relation.ReflTransGen.cases_head_iff, eq_comm]
      cases parent : parent? path with
      | none => simp [IsParent, parent]
      | some above => simp [IsParent, parent, ih above parent, Climbs]

end FieldUsage.Path
