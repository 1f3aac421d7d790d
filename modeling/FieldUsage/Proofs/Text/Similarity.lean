import FieldUsage.Text.Similarity
import Mathlib.Data.List.Basic

/-!
The choice among candidates. Whatever the measure is, as long as its scores can be ordered, the
candidate that is kept to the end has the greatest score and is the last one with it. For candidates
in increasing order this is the greatest name among those most alike.
-/

namespace FieldUsage.Text.Similarity

/-- Any two scores can be compared, and comparisons go together. -/
structure Ordered (measure : Similarity) : Prop where
  total : ∀ first second, measure.le first second = true ∨ measure.le second first = true
  trans : ∀ {first second third}, measure.le first second = true →
    measure.le second third = true → measure.le first third = true

/-- A candidate is alike enough. -/
def Near (measure : Similarity) (name candidate : String) : Prop :=
  measure.le measure.threshold (measure.score name candidate) = true

/-- The greatest of the candidates that are most like a name, which is alike enough. -/
structure IsClosest (measure : Similarity) (name : String) (candidates : List String)
    (best : String) : Prop where
  among : best ∈ candidates
  near : measure.Near name best
  most : ∀ other ∈ candidates,
    measure.le (measure.score name other) (measure.score name best) = true
  greatest : ∀ other ∈ candidates,
    measure.le (measure.score name best) (measure.score name other) = true → other ≤ best

variable {measure : Similarity}

/-- An item of a list with the greatest score, and the last one that has it. -/
def Leads (items : List (String × measure.Score)) (best : String × measure.Score) : Prop :=
  ∃ before after, items = before ++ best :: after ∧
    (∀ item ∈ before, measure.le item.2 best.2 = true) ∧
    ∀ item ∈ after, measure.le best.2 item.2 = false

theorem Ordered.le_of_not (ordered : measure.Ordered) {first second : measure.Score}
    (other : measure.le first second = false) : measure.le second first = true := by
  rcases ordered.total first second with below | above
  · rw [below] at other
    cases other
  · exact above

theorem Ordered.refl (ordered : measure.Ordered) (score : measure.Score) :
    measure.le score score = true :=
  (ordered.total score score).elim id id

/-- No score is greater than that of the leading item. -/
theorem Leads.le (ordered : measure.Ordered) {items : List (String × measure.Score)}
    {best : String × measure.Score} (leads : Leads items best) :
    ∀ item ∈ items, measure.le item.2 best.2 = true := by
  obtain ⟨before, after, rfl, below, above⟩ := leads
  intro item member
  rcases List.mem_append.mp member with first | later
  · exact below item first
  · rcases List.mem_cons.mp later with rfl | last
    · exact ordered.refl _
    · exact ordered.le_of_not (above item last)

/-- One more candidate takes the lead, or does not. -/
theorem Leads.better (ordered : measure.Ordered) {items : List (String × measure.Score)}
    {best : String × measure.Score} (leads : Leads items best)
    (candidate : String × measure.Score) :
    ∃ next, measure.better (some best) candidate = some next ∧
      Leads (items ++ [candidate]) next := by
  cases compared : measure.le best.2 candidate.2 with
  | true =>
      refine ⟨candidate, by simp [Similarity.better, compared], items, [], rfl, ?_, nofun⟩
      intro item member
      exact ordered.trans (leads.le ordered item member) compared
  | false =>
      obtain ⟨before, after, rfl, below, above⟩ := leads
      have kept : measure.better best candidate = best := by simp [Similarity.better, compared]
      refine ⟨best, kept, before, after ++ [candidate], ?_, below, ?_⟩
      · simp
      · intro item member
        rcases List.mem_append.mp member with earlier | last
        · exact above item earlier
        · rwa [List.mem_singleton.mp last]

/-- The lead is kept over all candidates that follow. -/
theorem Leads.foldl_better (ordered : measure.Ordered) (later : List (String × measure.Score))
    {items : List (String × measure.Score)} {best : String × measure.Score}
    (leads : Leads items best) :
    ∃ next, later.foldl measure.better (some best) = some next ∧ Leads (items ++ later) next := by
  induction later generalizing items best with
  | nil => exact ⟨best, rfl, by simpa using leads⟩
  | cons candidate rest ih =>
      obtain ⟨next, step, ahead⟩ := leads.better ordered candidate
      obtain ⟨final, run, ahead⟩ := ih ahead
      exact ⟨final, by rw [List.foldl_cons, step, run], by simpa using ahead⟩

theorem exists_leads (ordered : measure.Ordered) {items : List (String × measure.Score)}
    (some_ : items ≠ []) :
    ∃ best, items.foldl measure.better none = some best ∧ Leads items best := by
  obtain ⟨first, rest, rfl⟩ := List.exists_cons_of_ne_nil some_
  have alone : Leads [first] first := ⟨[], [], rfl, nofun, nofun⟩
  exact alone.foldl_better ordered rest

/-- The candidates that are alike enough, with their scores. -/
def nearby (measure : Similarity) (name : String) (candidates : List String) :
    List (String × measure.Score) :=
  (candidates.map fun candidate => (candidate, measure.score name candidate)).filter
    fun candidate => measure.le measure.threshold candidate.2

/-- The closest candidate is the best of those that are near. -/
theorem closest?_eq {name : String} (named : name ≠ "") (candidates : List String) :
    measure.closest? name candidates =
      ((measure.nearby name candidates).foldl measure.better none).map (·.1) := by
  simp [closest?, nearby, named]

theorem mem_nearby_iff {name : String} {candidates : List String}
    {item : String × measure.Score} :
    item ∈ measure.nearby name candidates ↔
      item.1 ∈ candidates ∧ item.2 = measure.score name item.1 ∧ measure.Near name item.1 := by
  obtain ⟨candidate, score⟩ := item
  simp only [nearby, List.mem_filter, List.mem_map, Prod.mk.injEq, Near]
  constructor
  · rintro ⟨⟨_, member, rfl, rfl⟩, near⟩
    exact ⟨member, rfl, near⟩
  · rintro ⟨member, rfl, near⟩
    exact ⟨⟨candidate, member, rfl, rfl⟩, near⟩

theorem nearby_eq_nil_iff {name : String} {candidates : List String} :
    measure.nearby name candidates = [] ↔
      ∀ candidate ∈ candidates, ¬measure.Near name candidate := by
  rw [List.eq_nil_iff_forall_not_mem]
  constructor
  · intro none candidate member near
    exact none (candidate, measure.score name candidate) (mem_nearby_iff.mpr ⟨member, rfl, near⟩)
  · intro far item member
    obtain ⟨among, -, near⟩ := mem_nearby_iff.mp member
    exact far item.1 among near

/-- There is no closest candidate exactly for the empty name and where none is alike enough. -/
theorem closest?_eq_none_iff (ordered : measure.Ordered) {name : String}
    {candidates : List String} :
    measure.closest? name candidates = none ↔
      name = "" ∨ ∀ candidate ∈ candidates, ¬measure.Near name candidate := by
  by_cases named : name = ""
  · simp [closest?, named]
  · rw [closest?_eq named, ← nearby_eq_nil_iff]
    by_cases none : measure.nearby name candidates = []
    · simp [none]
    · obtain ⟨best, run, -⟩ := exists_leads ordered none
      simp [run, none, named]

/-- What leads among the candidates that are alike enough is the closest of all candidates, if these
are in increasing order. -/
theorem Leads.isClosest (ordered : measure.Ordered) {name : String} {candidates : List String}
    (increasing : candidates.Pairwise (· < ·)) {best : String × measure.Score}
    (leads : Leads (measure.nearby name candidates) best) :
    measure.IsClosest name candidates best.1 := by
  have below := leads.le ordered
  obtain ⟨before, after, split, -, above⟩ := leads
  have inside : best ∈ measure.nearby name candidates := by simp [split]
  obtain ⟨among, scored, near⟩ := mem_nearby_iff.mp inside
  rw [scored] at below above
  refine ⟨among, near, ?_, ?_⟩
  · intro other member
    by_cases close : measure.Near name other
    · exact below (other, _) (mem_nearby_iff.mpr ⟨member, rfl, close⟩)
    · -- what is not alike enough is below the threshold, and the best one is not
      have under : measure.le (measure.score name other) measure.threshold = true :=
        ordered.le_of_not (by simpa [Near] using close)
      exact ordered.trans under near
  · intro other member most
    have sorted : (measure.nearby name candidates).Pairwise fun a b => a.1 < b.1 := by
      apply List.Pairwise.filter
      exact List.pairwise_map.mpr increasing
    have place : (other, measure.score name other) ∈ measure.nearby name candidates :=
      mem_nearby_iff.mpr ⟨member, rfl, ordered.trans near most⟩
    rw [split] at place sorted
    rcases List.mem_append.mp place with earlier | later
    · have smaller := (List.pairwise_append.mp sorted).2.2 _ earlier _ List.mem_cons_self
      exact String.not_lt.mp (String.lt_asymm smaller)
    · rcases List.mem_cons.mp later with same | behind
      · have equal : other = best.1 := congrArg Prod.fst same
        exact equal ▸ String.le_refl other
      · have worse := above _ behind
        rw [most] at worse
        cases worse

/-- What is found is the closest candidate, and the greatest of several. -/
theorem isClosest_of_closest? (ordered : measure.Ordered) {name best : String}
    {candidates : List String} (increasing : candidates.Pairwise (· < ·))
    (chosen : measure.closest? name candidates = some best) :
    measure.IsClosest name candidates best := by
  have found : ¬(name = "" ∨ ∀ candidate ∈ candidates, ¬measure.Near name candidate) := by
    rw [← closest?_eq_none_iff ordered, chosen]
    simp
  obtain ⟨named, some_⟩ := not_or.mp found
  rw [← nearby_eq_nil_iff] at some_
  obtain ⟨winner, run, leads⟩ := exists_leads ordered some_
  rw [closest?_eq named, run] at chosen
  obtain rfl : winner.1 = best := by simpa using chosen
  exact leads.isClosest ordered increasing

end FieldUsage.Text.Similarity
