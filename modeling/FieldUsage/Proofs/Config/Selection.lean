import FieldUsage.Proofs.Config.Validation
import FieldUsage.Proofs.Path
import FieldUsage.Proofs.Text.ByteOrder

/-!
Looking up the projects of a configuration. A project can be selected, asked for by its name, found
by going through all projects, or read off the list of names; going through the projects gives them
in no fixed order. As no two projects share a name, all these ways find the same project under a
name, or none; and a selection that finds none tells which names there are.
-/

namespace FieldUsage.Config

/-- A list goes through the projects of a configuration: a single one goes by the default name, and
those of a map come in any order. -/
def Enumerates : Config → List (String × Project) → Prop
  | .single project, order => order = [(defaultProject, project)]
  | .multi projects, order => IsOrder projects order

/-- Why a selection fails, with the names that can be selected. -/
def refusal (available : List String) : Option String → ConfigError
  | some name => .projectNotFound name available
  | none => .projectRequired available

variable {config : Config} {projects : Dict Project} {order : List (String × Project)}

theorem Enumerates.isOrder (enumerates : config.Enumerates order) :
    IsOrder config.projects order := by
  cases config with
  | single project =>
      obtain rfl : order = [(defaultProject, project)] := enumerates
      exact List.Perm.refl _
  | multi projects => exact enumerates

/-- Going through the projects finds the one that a map has under a name. -/
theorem find?_order_eq_some_iff (isOrder : IsOrder projects order) {name : String}
    {chosen : String × Project} :
    order.find? (fun entry => entry.1 == name) = some chosen ↔
      chosen.1 = name ∧ projects.get? name = some chosen.2 := by
  constructor
  · intro found
    have same : chosen.1 = name := by simpa using List.find?_some found
    have member := List.mem_of_find?_eq_some found
    exact ⟨same, same ▸ (mem_order_iff isOrder chosen.1 chosen.2).1 member⟩
  · rintro ⟨rfl, stored⟩
    have member := (mem_order_iff isOrder chosen.1 chosen.2).2 stored
    cases found : order.find? (fun entry => entry.1 == chosen.1) with
    | none =>
        have other := List.find?_eq_none.1 found chosen member
        simp at other
    | some first =>
        have same : first.1 = chosen.1 := by simpa using List.find?_some found
        have stored' := (mem_order_iff isOrder first.1 first.2).1 (List.mem_of_find?_eq_some found)
        rw [same, stored, Option.some.injEq] at stored'
        rw [Prod.ext same stored'.symm]

/-- The names are those of the projects, in whatever order these are gone through. -/
theorem names_perm (isOrder : IsOrder config.projects order) :
    config.names.Perm (order.map (·.1)) :=
  (List.Perm.map Prod.fst isOrder).symm

/-- The names are those of the projects, sorted. -/
theorem names_eq_mergeSort (isOrder : IsOrder config.projects order) :
    config.names = (order.map (·.1)).mergeSort fun a b => !Text.precedes b a := by
  have same := names_perm isOrder
  have apart := same.nodup_iff.1 config.projects.keys_nodup
  exact (Text.eq_mergeSort_iff apart).2 ⟨config.projects.keys_pairwise, fun name => same.mem_iff⟩

/-- A project is found under the names that are listed. -/
theorem isSome_project?_iff {name : String} :
    (config.project? name).isSome = true ↔ name ∈ config.names :=
  (config.projects.mem_keys_iff name).symm

theorem project?_eq_none_iff {name : String} :
    config.project? name = none ↔ name ∉ config.names := by
  rw [← isSome_project?_iff, Bool.not_eq_true, Option.isSome_eq_false_iff, Option.isNone_iff_eq_none]

/-- A selection finds the project of its name, which is the default name if none is given. -/
theorem select_eq_ok_iff {name : Option String} {chosen : String × Project} :
    config.select name = .ok chosen ↔
      chosen.1 = name.getD defaultProject ∧
        config.project? (name.getD defaultProject) = some chosen.2 := by
  unfold select
  cases config.project? (name.getD defaultProject) with
  | none => cases name <;> simp
  | some project => simp [Prod.ext_iff, eq_comm]

/-- A selection fails if its name is not listed, and the error tells what is. -/
theorem select_eq_error_iff {name : Option String} {error : ConfigError} :
    config.select name = .error error ↔
      name.getD defaultProject ∉ config.names ∧ error = refusal config.names name := by
  rw [← project?_eq_none_iff]
  unfold select
  cases config.project? (name.getD defaultProject) with
  | none => cases name <;> simp [refusal, eq_comm]
  | some project => simp

/-- All ways to look up a project agree, in whatever order the projects are gone through: selecting
a name, asking for the project of the name, going through the projects, and the list of names. A
selection without a name is the one of the default name. One that fails tells all names there are,
which are sorted, different from one another, and as many as the projects. -/
theorem lookups_agree (config : Config) {order : List (String × Project)}
    (enumerates : config.Enumerates order) :
    (∀ name chosen, config.select (some name) = .ok chosen ↔
      chosen.1 = name ∧ config.project? name = some chosen.2) ∧
    (∀ name chosen, config.select (some name) = .ok chosen ↔
      order.find? (fun entry => entry.1 == name) = some chosen) ∧
    (∀ name, ((∃ chosen, config.select (some name) = .ok chosen) ↔
        (config.project? name).isSome = true) ∧
      ((config.project? name).isSome = true ↔ name ∈ config.names)) ∧
    (∀ chosen, config.select none = .ok chosen ↔
      config.select (some defaultProject) = .ok chosen) ∧
    (∀ name error, config.select name = .error error ↔
      name.getD defaultProject ∉ config.names ∧ error = refusal config.names name) ∧
    config.names = ((order.map (·.1)).mergeSort fun a b => !Text.precedes b a) ∧
    (config.names.Pairwise fun first second =>
      Text.bytes first.toList < Text.bytes second.toList) ∧
    config.names.length = config.count ∧ order.length = config.count := by
  have isOrder := enumerates.isOrder
  refine ⟨fun name chosen => select_eq_ok_iff, ?_, ?_, ?_, fun name error => select_eq_error_iff,
    names_eq_mergeSort isOrder, ?_, ?_, ?_⟩
  · intro name chosen
    rw [find?_order_eq_some_iff isOrder]
    exact select_eq_ok_iff
  · intro name
    refine ⟨?_, isSome_project?_iff⟩
    rw [Option.isSome_iff_exists]
    constructor
    · rintro ⟨chosen, selected⟩
      exact ⟨chosen.2, (select_eq_ok_iff.1 selected).2⟩
    · rintro ⟨project, stored⟩
      exact ⟨(name, project), select_eq_ok_iff.2 ⟨rfl, stored⟩⟩
  · intro chosen
    rw [select_eq_ok_iff, select_eq_ok_iff, Option.getD_none, Option.getD_some]
  · exact config.projects.keys_pairwise.imp (Text.bytes_lt_iff _ _).2
  · exact List.length_map _
  · exact isOrder.length_eq

/-- A project under the default name and one that comes before it. -/
def defaultedPair : Dict Project where
  entries :=
    [("api", { schema := .path "api.graphql" }), ("default", { schema := .path "s.graphql" })]
  sorted := by decide

theorem lookups_agree_defaultedPair :
    (Config.multi defaultedPair).Enumerates defaultedPair.entries.reverse ∧
    (Config.multi defaultedPair).select none =
      .ok ("default", { schema := .path "s.graphql" }) ∧
    (Config.multi defaultedPair).select (some "web") =
      .error (.projectNotFound "web" ["api", "default"]) ∧
    (Config.multi defaultedPair).names.length = 2 := by
  have backwards : (Config.multi defaultedPair).Enumerates defaultedPair.entries.reverse :=
    List.reverse_perm _
  obtain ⟨-, found, -, unnamed, refused, -, -, counted, -⟩ := lookups_agree _ backwards
  refine ⟨backwards, ?_, ?_, counted⟩
  · rw [unnamed, found]
    rfl
  · exact (refused (some "web") _).2 ⟨by decide, rfl⟩

end FieldUsage.Config
