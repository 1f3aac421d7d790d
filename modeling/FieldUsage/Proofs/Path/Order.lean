import FieldUsage.Proofs.Path
import Mathlib.Data.Prod.Lex
import Mathlib.Data.String.Basic

/-!
The order of paths. Components are compared by their kind and then by their text, and paths by their
components from the first on. Each component has a key in a linear order, so the order of paths is
that of lists of keys, and two paths have the same keys exactly if they are the same path.
-/

namespace FieldUsage.Path

/-- The kind of a component, and its text if it is a name. -/
def Component.key : Component → ℕ ×ₗ String
  | .name text => toLex (3, text)
  | component => toLex (component.rank, "")

theorem Component.key_injective : Function.Injective Component.key := by
  intro first second same
  cases first <;> cases second <;> simp_all [key, rank]

theorem Component.lt_iff (first second : Component) :
    first.lt second = true ↔ first.key < second.key := by
  cases first <;> cases second <;>
    simp [lt, key, rank, Prod.Lex.toLex_lt_toLex, Text.precedes]

/-- The order of components is the lexicographic order of their keys. -/
theorem componentsLt_iff (first second : List Component) :
    componentsLt first second = true ↔ first.map Component.key < second.map Component.key := by
  induction first generalizing second with
  | nil => cases second <;> simp [componentsLt]
  | cons a rest ih =>
      cases second with
      | nil => simp [componentsLt]
      | cons b more =>
          rw [componentsLt, List.map_cons, List.map_cons, List.cons_lt_cons_iff]
          by_cases same : a = b
          · subst same
            simp [ih]
          · have apart : a.key ≠ b.key := fun keys => same (Component.key_injective keys)
            simp [same, apart, Component.lt_iff]

/-- The keys of the components of a path. -/
def key (path : Path) : List (ℕ ×ₗ String) := (components path).map Component.key

theorem key_eq_iff {first second : Path} :
    key first = key second ↔ components first = components second :=
  (List.map_injective_iff.2 Component.key_injective).eq_iff

/-- Paths are the same if their keys are. -/
theorem same_iff {first second : Path} : same first second = true ↔ key first = key second := by
  rw [key_eq_iff, same, beq_iff_eq]

/-- A path that comes before another one. -/
def lt (first second : Path) : Bool := componentsLt (components first) (components second)

theorem lt_iff {first second : Path} : lt first second = true ↔ key first < key second :=
  componentsLt_iff _ _

theorem le_iff {first second : Path} : le first second = true ↔ key first ≤ key second := by
  have whole : le first second = !lt second first := rfl
  rw [whole, Bool.not_eq_true', ← Bool.not_eq_true, lt_iff, not_lt]

/-- What two paths begin with does not count for their order. -/
theorem componentsLt_append (start first second : List Component) :
    componentsLt (start ++ first) (start ++ second) = componentsLt first second := by
  induction start with
  | nil => rfl
  | cons component rest ih => simp [componentsLt, ih]

/-- A list that is sorted by the order of paths. -/
theorem pairwise_mergeSort_le (paths : List Path) :
    (paths.mergeSort le).Pairwise fun first second => key first ≤ key second := by
  refine (List.pairwise_mergeSort ?_ ?_ paths).imp fun below => le_iff.1 below
  · intro first second third
    rw [le_iff, le_iff, le_iff]
    exact le_trans
  · intro first second
    rw [Bool.or_eq_true, le_iff, le_iff]
    exact le_total _ _

end FieldUsage.Path
