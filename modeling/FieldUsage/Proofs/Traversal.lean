/-!
Computations that may fail. A sequence of them ends with the first error. A list is read item by
item: all items are read and what they give is put together, or the reading ends with the error of
the first item that cannot be read.
-/

namespace FieldUsage

section Sequence

variable {ε ε' α β : Type}

/-- Both computations succeed if one after the other does. -/
theorem bind_eq_ok_iff {first : Except ε α} {next : α → Except ε β} {value : β} :
    (first >>= next) = .ok value ↔ ∃ given, first = .ok given ∧ next given = .ok value := by
  cases first <;> simp [bind, Except.bind]

/-- The error is that of the first computation, or that of the second after the first has succeeded. -/
theorem bind_eq_error_iff {first : Except ε α} {next : α → Except ε β} {error : ε} :
    (first >>= next) = .error error ↔
      first = .error error ∨ ∃ given, first = .ok given ∧ next given = .error error := by
  cases first <;> simp [bind, Except.bind]

theorem mapM_congr {f g : α → Except ε β} {items : List α}
    (same : ∀ item ∈ items, f item = g item) : items.mapM f = items.mapM g := by
  induction items with
  | nil => rfl
  | cons item rest ih =>
      obtain ⟨here, others⟩ := List.forall_mem_cons.1 same
      rw [List.mapM_cons, List.mapM_cons, here, ih others]

theorem mapM_eq_ok_of_imp {f g : α → Except ε β} {items : List α} {values : List β}
    (same : ∀ item ∈ items, ∀ value, f item = .ok value → g item = .ok value)
    (read : items.mapM f = .ok values) : items.mapM g = .ok values := by
  induction items generalizing values with
  | nil => exact read
  | cons item rest ih =>
      obtain ⟨here, others⟩ := List.forall_mem_cons.1 same
      rw [List.mapM_cons, bind_eq_ok_iff] at read
      obtain ⟨first, found, read⟩ := read
      obtain ⟨later, there, made⟩ := bind_eq_ok_iff.1 read
      rw [List.mapM_cons, here first found, ih others there]
      exact made

theorem exists_of_mem_mapM {f : α → Except ε β} {items : List α} {values : List β}
    (read : items.mapM f = .ok values) {value : β} (member : value ∈ values) :
    ∃ item ∈ items, f item = .ok value := by
  induction items generalizing values with
  | nil =>
      cases read
      cases member
  | cons item rest ih =>
      rw [List.mapM_cons, bind_eq_ok_iff] at read
      obtain ⟨first, here, read⟩ := read
      obtain ⟨others, there, made⟩ := bind_eq_ok_iff.1 read
      cases made
      rcases List.mem_cons.1 member with rfl | member
      · exact ⟨item, List.mem_cons_self, here⟩
      · obtain ⟨other, found, same⟩ := ih there member
        exact ⟨other, List.mem_cons_of_mem item found, same⟩

theorem mem_of_mapM {f : α → Except ε β} {items : List α} {values : List β}
    (read : items.mapM f = .ok values) {item : α} (member : item ∈ items) :
    ∃ value ∈ values, f item = .ok value := by
  induction items generalizing values with
  | nil => cases member
  | cons first rest ih =>
      rw [List.mapM_cons, bind_eq_ok_iff] at read
      obtain ⟨value, here, read⟩ := read
      obtain ⟨others, there, made⟩ := bind_eq_ok_iff.1 read
      cases made
      rcases List.mem_cons.1 member with rfl | later
      · exact ⟨value, List.mem_cons_self, here⟩
      · obtain ⟨other, found, same⟩ := ih there later
        exact ⟨other, List.mem_cons_of_mem value found, same⟩

theorem exists_mapM {f : α → Except ε β} {items : List α}
    (each : ∀ item ∈ items, ∃ value, f item = .ok value) :
    ∃ values, items.mapM f = .ok values := by
  induction items with
  | nil => exact ⟨[], rfl⟩
  | cons item rest ih =>
      obtain ⟨⟨value, here⟩, others⟩ := List.forall_mem_cons.1 each
      obtain ⟨values, there⟩ := ih others
      exact ⟨value :: values, by rw [List.mapM_cons, here, there]; rfl⟩

theorem mapError_eq_ok_iff {result : Except ε α} {rename : ε → ε'} {value : α} :
    result.mapError rename = .ok value ↔ result = .ok value := by
  cases result with
  | error cause => exact ⟨nofun, nofun⟩
  | ok given =>
      constructor
      · intro same
        rw [Except.ok.inj same]
      · intro same
        rw [Except.ok.inj same]
        rfl

theorem mapError_eq_error_iff {result : Except ε α} {rename : ε → ε'} {error : ε'} :
    result.mapError rename = .error error ↔ ∃ cause, result = .error cause ∧ rename cause = error := by
  cases result with
  | error cause =>
      constructor
      · intro same
        exact ⟨cause, rfl, Except.error.inj same⟩
      · rintro ⟨_, ⟨⟩, rfl⟩
        rfl
  | ok given => exact ⟨nofun, nofun⟩

theorem exists_of_filterAuxM_eq_error {test : α → Except ε Bool} {items kept : List α} {error : ε}
    (failed : items.filterAuxM test kept = .error error) :
    ∃ item ∈ items, test item = .error error := by
  induction items generalizing kept with
  | nil => cases failed
  | cons item rest ih =>
      rcases bind_eq_error_iff.1 failed with failed | ⟨keep, -, failed⟩
      · exact ⟨item, List.mem_cons_self, failed⟩
      · obtain ⟨other, member, failed⟩ := ih failed
        exact ⟨other, List.mem_cons_of_mem item member, failed⟩

/-- A test that fails on some item is the only reason for a filter to fail. -/
theorem exists_of_filterM_eq_error {test : α → Except ε Bool} {items : List α} {error : ε}
    (failed : items.filterM test = .error error) : ∃ item ∈ items, test item = .error error := by
  rcases bind_eq_error_iff.1 failed with failed | ⟨_, -, made⟩
  · exact exists_of_filterAuxM_eq_error failed
  · cases made

/-- Whether an item passes a test, which it does not if the test fails. -/
def passes : Except ε Bool → Bool
  | .ok keep => keep
  | .error _ => false

theorem passes_eq_true_iff {result : Except ε Bool} : passes result = true ↔ result = .ok true := by
  cases result <;> simp [passes]

theorem filterAuxM_eq_ok_iff {test : α → Except ε Bool} {items kept found : List α} :
    items.filterAuxM test kept = .ok found ↔
      (∀ item ∈ items, ∃ keep, test item = .ok keep) ∧
        found = (items.filter fun item => passes (test item)).reverse ++ kept := by
  induction items generalizing kept with
  | nil =>
      have done : ([] : List α).filterAuxM test kept = .ok kept := rfl
      rw [done]
      simp [eq_comm]
  | cons item rest ih =>
      have step : (item :: rest).filterAuxM test kept =
          test item >>= fun keep => rest.filterAuxM test (cond keep (item :: kept) kept) := rfl
      rw [step, List.forall_mem_cons]
      cases tested : test item with
      | error error => simp [bind, Except.bind]
      | ok keep =>
          have onward : ((Except.ok keep : Except ε Bool) >>= fun keep =>
              rest.filterAuxM test (cond keep (item :: kept) kept)) =
                rest.filterAuxM test (cond keep (item :: kept) kept) := rfl
          rw [onward, ih]
          cases keep <;> simp [tested, passes]

/-- All items can be tested, and those that pass are kept. -/
theorem filterM_eq_ok_iff {test : α → Except ε Bool} {items found : List α} :
    items.filterM test = .ok found ↔
      (∀ item ∈ items, ∃ keep, test item = .ok keep) ∧
        found = items.filter fun item => passes (test item) := by
  have whole : items.filterM test =
      items.filterAuxM test [] >>= fun kept => pure kept.reverse := rfl
  rw [whole, bind_eq_ok_iff]
  simp only [filterAuxM_eq_ok_iff, List.append_nil]
  constructor
  · rintro ⟨_, ⟨tested, rfl⟩, made⟩
    refine ⟨tested, ?_⟩
    rw [← Except.ok.inj made, List.reverse_reverse]
  · rintro ⟨tested, rfl⟩
    exact ⟨_, ⟨tested, rfl⟩, by rw [List.reverse_reverse]; rfl⟩

theorem exists_ok_of_any {result : Except ε α} {test : α → Bool}
    (passed : result.toOption.any test = true) : ∃ value, result = .ok value ∧ test value = true := by
  cases result with
  | error error => cases passed
  | ok value => exact ⟨value, rfl, passed⟩

end Sequence

variable {ε α β : Type}

/-- What all items give, one after the other. -/
def gather (f : α → Except ε (List β)) (items : List α) : Except ε (List β) := do
  let lists ← items.mapM f
  return lists.flatten

/-- What an item gives, which is nothing if it cannot be read. -/
def valuesOf : Except ε (List β) → List β
  | .ok values => values
  | .error _ => []

/-- An error is the one of the first item that cannot be read. -/
def FailsFirst (f : α → Except ε β) (items : List α) (error : ε) : Prop :=
  ∃ before item after, items = before ++ item :: after ∧
    (∀ earlier ∈ before, ∃ value, f earlier = .ok value) ∧ f item = .error error

theorem mem_valuesOf_iff {result : Except ε (List β)} {value : β} :
    value ∈ valuesOf result ↔ ∃ values, result = .ok values ∧ value ∈ values := by
  cases result <;> simp [valuesOf]

theorem gather_cons (f : α → Except ε (List β)) (item : α) (rest : List α) :
    gather f (item :: rest) =
      (f item).bind fun values => (gather f rest).map (values ++ ·) := by
  unfold gather
  rw [List.mapM_cons]
  cases f item with
  | error => rfl
  | ok => cases rest.mapM f <;> rfl

theorem not_failsFirst_nil (f : α → Except ε β) (error : ε) : ¬FailsFirst f [] error := by
  rintro ⟨before, item, after, split, -⟩
  cases before <;> cases split

/-- The first item fails, or it passes and the failure is further on. -/
theorem failsFirst_cons (f : α → Except ε β) (item : α) (rest : List α) (error : ε) :
    FailsFirst f (item :: rest) error ↔
      f item = .error error ∨ (∃ value, f item = .ok value) ∧ FailsFirst f rest error := by
  constructor
  · rintro ⟨before, failing, after, split, passed, failed⟩
    cases before with
    | nil =>
        obtain ⟨rfl, -⟩ := List.cons.inj split
        exact .inl failed
    | cons first more =>
        obtain ⟨rfl, rest_eq⟩ := List.cons.inj split
        obtain ⟨read, others⟩ := List.forall_mem_cons.1 passed
        exact .inr ⟨read, more, failing, after, rest_eq, others, failed⟩
  · rintro (failed | ⟨read, before, failing, after, rfl, passed, failed⟩)
    · exact ⟨[], item, rest, rfl, by simp, failed⟩
    · exact ⟨item :: before, failing, after, rfl, List.forall_mem_cons.2 ⟨read, passed⟩, failed⟩

/-- Everything is gathered if every item gives something. -/
theorem gather_eq_ok_iff {f : α → Except ε (List β)} {items : List α} {values : List β} :
    gather f items = .ok values ↔
      (∀ item ∈ items, ∃ given, f item = .ok given) ∧
        values = items.flatMap fun item => valuesOf (f item) := by
  induction items generalizing values with
  | nil => simp [gather, pure, Except.pure, bind, Except.bind, eq_comm]
  | cons item rest ih =>
      rw [gather_cons, List.forall_mem_cons, List.flatMap_cons]
      cases first : f item with
      | error error => simp [Except.bind]
      | ok given =>
          have here : valuesOf (Except.ok given : Except ε (List β)) = given := rfl
          simp only [Except.bind, Except.map, here, Except.ok.injEq, exists_eq', true_and]
          cases others : gather f rest with
          | error error =>
              have unread : ¬∀ item ∈ rest, ∃ given, f item = .ok given := by
                intro read
                have := ih.2 ⟨read, rfl⟩
                rw [others] at this
                cases this
              simp [unread]
          | ok tail =>
              obtain ⟨read, rfl⟩ := ih.1 others
              simp only [Except.ok.injEq, eq_comm, and_iff_right read]

/-- Gathering stops at the first item that cannot be read. -/
theorem gather_eq_error_iff {f : α → Except ε (List β)} {items : List α} {error : ε} :
    gather f items = .error error ↔ FailsFirst f items error := by
  induction items with
  | nil => simp [not_failsFirst_nil, gather, pure, Except.pure, bind, Except.bind]
  | cons item rest ih =>
      rw [gather_cons, failsFirst_cons, ← ih]
      cases f item with
      | error => simp [Except.bind]
      | ok => cases gather f rest <;> simp [Except.bind, Except.map]

/-- Where nothing is told about a failure, all items are read and none is left out. -/
theorem mapM_eq_some_iff {f : α → Option β} {items : List α} {values : List β} :
    items.mapM f = some values ↔ items.map f = values.map some := by
  induction items generalizing values with
  | nil => cases values <;> simp
  | cons item rest ih =>
      rw [List.mapM_cons, List.map_cons]
      cases f item with
      | none => cases values <;> simp
      | some value =>
          cases others : rest.mapM f with
          | none =>
              have unread (more : List β) : rest.map f ≠ more.map some := by
                intro read
                rw [ih.2 read] at others
                cases others
              cases values <;> simp [unread]
          | some found =>
              have read : rest.map f = found.map some := ih.1 others
              cases values <;> simp [read, List.map_inj_right]

end FieldUsage
