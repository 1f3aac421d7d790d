import FieldUsage.Config
import FieldUsage.Proofs.Dict
import FieldUsage.Proofs.Target.Reading

/-!
Checking the projects of a configuration one after the other. Whether they all pass does not depend
on the order in which they are gone through: every project that needs files for its schema has to
name some, none of them by a blank text. The fault that is reported is that of the first project
that does not pass, so that each of them is reported in some order, and all orders agree only where
no two projects are at fault.
-/

namespace FieldUsage

/-- The project that a fault is about. -/
def ConfigFault.project? : ConfigFault → Option String
  | .unparsable _ => none
  | .noSchema project => some project
  | .blankSchema project => some project

namespace Project

open Text (AllBlank)

/-- A project says where its schema is: at a server, or in files that are named by at least one
pattern and by no blank one. -/
def HasSchema (project : Project) : Prop :=
  project.schema.isRemote = false →
    project.schema.patterns ≠ [] ∧ ∀ pattern ∈ project.schema.patterns, ¬AllBlank pattern.toList

/-- A project is not at fault if it says where its schema is. -/
theorem fault?_eq_none_iff {name : String} {project : Project} :
    project.fault? name = none ↔ project.HasSchema := by
  unfold fault? HasSchema
  cases project.schema.isRemote with
  | true => simp
  | false =>
      by_cases empty : project.schema.patterns = []
      · simp [empty]
      · simp [empty, Text.trim_eq_nil_iff]

/-- A fault names the project it is about. -/
theorem project?_of_fault? {name : String} {project : Project} {fault : ConfigFault}
    (faulty : project.fault? name = some fault) : fault.project? = some name := by
  unfold fault? at faulty
  split at faulty
  · cases faulty
  · split at faulty
    · cases faulty
      rfl
    · split at faulty <;> cases faulty
      rfl

end Project

namespace Config

/-- A list goes through the projects of a map, each of them once. -/
def IsOrder (projects : Dict Project) (order : List (String × Project)) : Prop :=
  order.Perm projects.entries

/-- A project of a map is at fault. -/
def FaultyAt (projects : Dict Project) (name : String) (fault : ConfigFault) : Prop :=
  ∃ project, projects.get? name = some project ∧ project.fault? name = some fault

variable {projects : Dict Project} {order : List (String × Project)}

/-- Going through the projects meets what can be looked up. -/
theorem mem_order_iff (isOrder : IsOrder projects order) (name : String) (project : Project) :
    (name, project) ∈ order ↔ projects.get? name = some project :=
  isOrder.mem_iff.trans (projects.mem_entries_iff name project)

/-- The projects pass in one order if they pass in any. -/
theorem faultIn?_eq_none_iff (isOrder : IsOrder projects order) :
    faultIn? order = none ↔
      ∀ name project, projects.get? name = some project → project.HasSchema := by
  unfold faultIn?
  rw [List.findSome?_eq_none_iff]
  constructor
  · intro passed name project stored
    exact Project.fault?_eq_none_iff.1 (passed _ ((mem_order_iff isOrder name project).2 stored))
  · rintro sound ⟨name, project⟩ member
    have stored := (mem_order_iff isOrder name project).1 member
    exact Project.fault?_eq_none_iff.2 (sound name project stored)

/-- The fault that is found is the one of some project. -/
theorem faultyAt_of_faultIn? (isOrder : IsOrder projects order) {fault : ConfigFault}
    (found : faultIn? order = some fault) : ∃ name, FaultyAt projects name fault := by
  obtain ⟨⟨name, project⟩, member, faulty⟩ := List.exists_of_findSome?_eq_some found
  exact ⟨name, project, (mem_order_iff isOrder name project).1 member, faulty⟩

/-- Every project can come first. -/
theorem exists_order_cons {name : String} {project : Project}
    (stored : projects.get? name = some project) :
    ∃ rest, IsOrder projects ((name, project) :: rest) := by
  have member := (projects.mem_entries_iff name project).2 stored
  obtain ⟨before, after, split⟩ := List.append_of_mem member
  refine ⟨before ++ after, ?_⟩
  unfold IsOrder
  rw [split]
  exact List.perm_middle.symm

/-- The faults that are reported in some order are those of all projects. -/
theorem exists_order_iff {fault : ConfigFault} :
    (∃ order, IsOrder projects order ∧ faultIn? order = some fault) ↔
      ∃ name, FaultyAt projects name fault := by
  constructor
  · rintro ⟨order, isOrder, found⟩
    exact faultyAt_of_faultIn? isOrder found
  · rintro ⟨name, project, stored, faulty⟩
    obtain ⟨rest, isOrder⟩ := exists_order_cons stored
    refine ⟨_, isOrder, ?_⟩
    simp [faultIn?, faulty]

/-- All orders report the same where no two projects are at fault. -/
theorem faultIn?_eq_of_unique {first second : List (String × Project)}
    (isFirst : IsOrder projects first) (isSecond : IsOrder projects second)
    (unique : ∀ name fault name' fault', FaultyAt projects name fault →
      FaultyAt projects name' fault' → name = name') : faultIn? first = faultIn? second := by
  cases found : faultIn? first with
  | none =>
      have sound := (faultIn?_eq_none_iff isFirst).1 found
      exact ((faultIn?_eq_none_iff isSecond).2 sound).symm
  | some fault =>
      obtain ⟨name, faulty⟩ := faultyAt_of_faultIn? isFirst found
      cases found' : faultIn? second with
      | none =>
          have sound := (faultIn?_eq_none_iff isSecond).1 found'
          rw [(faultIn?_eq_none_iff isFirst).2 sound] at found
          cases found
      | some fault' =>
          obtain ⟨name', faulty'⟩ := faultyAt_of_faultIn? isSecond found'
          obtain rfl := unique name fault name' fault' faulty faulty'
          obtain ⟨project, stored, here⟩ := faulty
          obtain ⟨project', stored', here'⟩ := faulty'
          obtain rfl := Option.some.inj (stored.symm.trans stored')
          exact here.symm.trans here'

/-- Whether the projects of a configuration pass does not depend on the order in which they are gone
through. Which fault is reported does: it is the one of the first project at fault, and that can be
any of them. So all orders report the same exactly if at most one project is at fault. -/
theorem faultIn?_orders (projects : Dict Project) :
    (∀ order, IsOrder projects order →
      (faultIn? order = none ↔
        ∀ name project, projects.get? name = some project → project.HasSchema)) ∧
    (∀ fault, (∃ order, IsOrder projects order ∧ faultIn? order = some fault) ↔
      ∃ name, FaultyAt projects name fault) ∧
    ((∀ first second, IsOrder projects first → IsOrder projects second →
        faultIn? first = faultIn? second) ↔
      ∀ name fault name' fault', FaultyAt projects name fault →
        FaultyAt projects name' fault' → name = name') := by
  refine ⟨fun order isOrder => faultIn?_eq_none_iff isOrder, fun fault => exists_order_iff, ?_⟩
  constructor
  · intro agree name fault name' fault' faulty faulty'
    obtain ⟨order, isOrder, found⟩ := exists_order_iff.2 ⟨name, faulty⟩
    obtain ⟨order', isOrder', found'⟩ := exists_order_iff.2 ⟨name', faulty'⟩
    have same := agree order order' isOrder isOrder'
    rw [found, found', Option.some.injEq] at same
    subst same
    obtain ⟨project, -, here⟩ := faulty
    obtain ⟨project', -, here'⟩ := faulty'
    have named := (Project.project?_of_fault? here).symm.trans (Project.project?_of_fault? here')
    exact Option.some.inj named
  · intro unique first second isFirst isSecond
    exact faultIn?_eq_of_unique isFirst isSecond unique

/-- A project without patterns, and one with a blank pattern. -/
def faultyPair : Dict Project where
  entries := [("api", { schema := .paths [] }), ("web", { schema := .path " " })]
  sorted := by decide

theorem faultIn?_depends_on_order :
    IsOrder faultyPair faultyPair.entries ∧ IsOrder faultyPair faultyPair.entries.reverse ∧
    faultIn? faultyPair.entries = some (.noSchema "api") ∧
    faultIn? faultyPair.entries.reverse = some (.blankSchema "web") :=
  ⟨List.Perm.refl _, List.reverse_perm _, by decide, by decide⟩

/-- A project with a server to ask, and one with a blank pattern among others. -/
def servedPair : Dict Project where
  entries :=
    [("api", { schema := .remote "http://localhost" none }),
     ("web", { schema := .paths ["a.graphql", "\t"] })]
  sorted := by decide

theorem faultIn?_orders_servedPair :
    faultIn? servedPair.entries = some (.blankSchema "web") ∧
    ∀ order, IsOrder servedPair order → faultIn? order = some (.blankSchema "web") := by
  have here : faultIn? servedPair.entries = some (.blankSchema "web") := by decide
  refine ⟨here, fun order isOrder => ?_⟩
  rw [← here]
  refine (faultIn?_orders servedPair).2.2.2 ?_ order servedPair.entries isOrder (List.Perm.refl _)
  have only (name : String) (fault : ConfigFault) (faulty : FaultyAt servedPair name fault) :
      name = "web" := by
    obtain ⟨project, stored, faulty⟩ := faulty
    rw [← Dict.mem_entries_iff] at stored
    simp only [servedPair, List.mem_cons, Prod.mk.injEq, List.not_mem_nil, or_false] at stored
    rcases stored with ⟨rfl, rfl⟩ | ⟨rfl, -⟩
    · cases faulty
    · rfl
  intro name fault name' fault' faulty faulty'
  rw [only name fault faulty, only name' fault' faulty']

end Config

end FieldUsage
