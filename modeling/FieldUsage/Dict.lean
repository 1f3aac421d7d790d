/-!
Finite maps from names to values, kept in the order of the names. The order is part of the type,
so a map has one form: two maps with the same look-ups are equal, whatever the order in which they
were filled.
-/

namespace FieldUsage

@[ext] structure Dict (α : Type) where
  /-- The names with their values, in increasing order of names. -/
  entries : List (String × α)
  sorted : entries.Pairwise fun a b => a.1 < b.1
deriving Repr

namespace Dict

variable {α β : Type}

def empty : Dict α := ⟨[], .nil⟩

instance : EmptyCollection (Dict α) := ⟨empty⟩

instance : Inhabited (Dict α) := ⟨empty⟩

def get? (dict : Dict α) (key : String) : Option α := dict.entries.lookup key

def contains (dict : Dict α) (key : String) : Bool := (dict.get? key).isSome

/-- All names, in increasing order. -/
def keys (dict : Dict α) : List String := dict.entries.map (·.1)

def values (dict : Dict α) : List α := dict.entries.map (·.2)

def size (dict : Dict α) : Nat := dict.entries.length

/-- Puts an entry at its place in a sorted list, in place of one with the same name. -/
def insertEntry (key : String) (value : α) : List (String × α) → List (String × α)
  | [] => [(key, value)]
  | (name, old) :: rest =>
      if key < name then (key, value) :: (name, old) :: rest
      else if key = name then (key, value) :: rest
      else (name, old) :: insertEntry key value rest

theorem fst_mem_insertEntry {key : String} {value : α} {entries : List (String × α)}
    {entry : String × α} (h : entry ∈ insertEntry key value entries) :
    entry.1 = key ∨ entry ∈ entries := by
  induction entries with
  | nil => simp_all [insertEntry]
  | cons first rest ih =>
      obtain ⟨name, old⟩ := first
      rw [insertEntry] at h
      split at h
      · rcases List.mem_cons.1 h with h | h
        · exact .inl (by rw [h])
        · exact .inr h
      · split at h
        · rcases List.mem_cons.1 h with h | h
          · exact .inl (by rw [h])
          · exact .inr (List.mem_cons_of_mem _ h)
        · rcases List.mem_cons.1 h with h | h
          · exact .inr (h ▸ List.mem_cons_self)
          · exact (ih h).imp_right (List.mem_cons_of_mem _)

theorem pairwise_insertEntry (key : String) (value : α) {entries : List (String × α)}
    (h : entries.Pairwise fun a b => a.1 < b.1) :
    (insertEntry key value entries).Pairwise fun a b => a.1 < b.1 := by
  induction entries with
  | nil => simp [insertEntry]
  | cons first rest ih =>
      obtain ⟨name, old⟩ := first
      obtain ⟨above, tail⟩ := List.pairwise_cons.1 h
      rw [insertEntry]
      split
      case isTrue below =>
        refine List.pairwise_cons.2 ⟨fun entry member => ?_, h⟩
        rcases List.mem_cons.1 member with rfl | member
        · exact below
        · exact String.lt_trans below (above entry member)
      case isFalse notBelow =>
        split
        case isTrue same => exact List.pairwise_cons.2 ⟨same ▸ above, tail⟩
        case isFalse other =>
          refine List.pairwise_cons.2 ⟨fun entry member => ?_, ih tail⟩
          rcases fst_mem_insertEntry member with same | member
          · simp only [same]
            grind
          · exact above entry member

def insert (dict : Dict α) (key : String) (value : α) : Dict α :=
  ⟨insertEntry key value dict.entries, pairwise_insertEntry key value dict.sorted⟩

/-- The map with a value put under a name that has none; a name that has a value keeps it. -/
def insertNew (dict : Dict α) (key : String) (value : α) : Dict α :=
  if dict.contains key then dict else dict.insert key value

def mapWithKey (f : String → α → β) (dict : Dict α) : Dict β :=
  ⟨dict.entries.map fun entry => (entry.1, f entry.1 entry.2), dict.sorted.map _ fun _ _ h => h⟩

/-- The map of a list of entries; the last of several entries with one name counts. -/
def ofList (entries : List (String × α)) : Dict α :=
  entries.foldl (fun dict entry => dict.insert entry.1 entry.2) empty

@[simp] theorem get?_empty (key : String) : (∅ : Dict α).get? key = none := rfl

theorem lookup_entry (name key : String) (value : α) (rest : List (String × α)) :
    ((key, value) :: rest).lookup name = if name = key then some value else rest.lookup name := by
  rw [List.lookup_cons]
  by_cases h : name = key
  · simp [h]
  · simp [h, beq_false_of_ne h]

/-- Only the name that is put is changed. -/
theorem get?_insert (dict : Dict α) (key name : String) (value : α) :
    (dict.insert key value).get? name = if name = key then some value else dict.get? name := by
  obtain ⟨entries, sorted⟩ := dict
  simp only [get?, insert]
  clear sorted
  induction entries with
  | nil => simp [insertEntry, lookup_entry]
  | cons first rest ih =>
      obtain ⟨other, old⟩ := first
      rw [insertEntry]
      split
      · simp [lookup_entry]
      · split
        case isTrue same => subst same; by_cases h : name = key <;> simp [lookup_entry, h]
        case isFalse differs => grind [lookup_entry]

theorem get?_mapWithKey (f : String → α → β) (dict : Dict α) (name : String) :
    (dict.mapWithKey f).get? name = (dict.get? name).map (f name) := by
  obtain ⟨entries, sorted⟩ := dict
  simp only [get?, mapWithKey]
  clear sorted
  induction entries with
  | nil => rfl
  | cons first rest ih =>
      obtain ⟨key, value⟩ := first
      by_cases h : name = key
      · subst h; simp
      · simp [lookup_entry, h, ih]

/-- A value that is there already stays. -/
theorem get?_insertNew (dict : Dict α) (key name : String) (value : α) :
    (dict.insertNew key value).get? name =
      if name = key then some ((dict.get? key).getD value) else dict.get? name := by
  unfold insertNew contains
  by_cases h : name = key
  · subst h
    cases found : dict.get? name with
    | none => simp [get?_insert]
    | some old => simp [found]
  · cases dict.get? key with
    | none => simp [get?_insert, h]
    | some old => simp [h]

@[simp] theorem get?_insert_self (dict : Dict α) (key : String) (value : α) :
    (dict.insert key value).get? key = some value := by simp [get?_insert]

theorem get?_insert_of_ne (dict : Dict α) {key name : String} (value : α) (h : name ≠ key) :
    (dict.insert key value).get? name = dict.get? name := by simp [get?_insert, h]

/-- Names increase, so no name comes twice. -/
theorem keys_pairwise (dict : Dict α) : dict.keys.Pairwise (· < ·) :=
  List.pairwise_map.2 dict.sorted

theorem mem_keys_iff (dict : Dict α) (name : String) :
    name ∈ dict.keys ↔ (dict.get? name).isSome = true := by
  obtain ⟨entries, sorted⟩ := dict
  simp only [keys, get?]
  clear sorted
  induction entries with
  | nil => simp
  | cons first rest ih =>
      obtain ⟨key, value⟩ := first
      by_cases h : name = key
      · simp [h]
      · simp [h, ih]

/-- Every value stands under the name that it bears. -/
def Keyed (nameOf : α → String) (dict : Dict α) : Prop :=
  ∀ key value, dict.get? key = some value → nameOf value = key

namespace Keyed

variable {nameOf : α → String} {dict : Dict α}

theorem empty : (∅ : Dict α).Keyed nameOf := nofun

/-- A value that is put under the name it bears keeps the map keyed. -/
theorem insert (h : dict.Keyed nameOf) (value : α) :
    (dict.insert (nameOf value) value).Keyed nameOf := by
  intro key found stored
  rw [get?_insert] at stored
  split at stored
  case isTrue same => rw [same, ← Option.some.inj stored]
  case isFalse => exact h key found stored

theorem insertNew (h : dict.Keyed nameOf) (value : α) :
    (dict.insertNew (nameOf value) value).Keyed nameOf := by
  unfold Dict.insertNew
  split
  · exact h
  · exact h.insert value

end Keyed

end Dict

end FieldUsage
