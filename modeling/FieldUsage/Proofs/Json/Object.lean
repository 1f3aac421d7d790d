import FieldUsage.Json
import FieldUsage.Proofs.Dict
import FieldUsage.Proofs.Traversal
import Mathlib.Data.List.Forall2
import Mathlib.Data.List.Induction

/-!
Reading objects. An object with arbitrary keys is read if all its members are, and it is then the
map of its keys to what their last members are read as. An object with known keys is read by the values
of each key, for which neither the order of the members nor that of the keys counts.
-/

namespace FieldUsage

variable {α : Type}

namespace Dict

/-- Of several entries under one name, the last one counts. -/
theorem get?_ofList (entries : List (String × α)) (name : String) :
    (ofList entries).get? name = entries.reverse.lookup name := by
  induction entries using List.reverseRecOn with
  | nil => rfl
  | append_singleton entries last ih =>
      have step : ofList (entries ++ [last]) = (ofList entries).insert last.1 last.2 := by
        simp [ofList]
      rw [step, get?_insert, ih, List.reverse_append, List.reverse_singleton, List.singleton_append,
        lookup_entry]

/-- A map is the map of its entries, in whatever order they are listed. -/
theorem ofList_of_perm {dict : Dict α} {entries : List (String × α)}
    (listed : entries.Perm dict.entries) : ofList entries = dict := by
  have reversed : entries.reverse.Perm dict.entries := (List.reverse_perm entries).trans listed
  have apart : (entries.reverse.map (·.1)).Nodup :=
    ((reversed.map _).nodup_iff).2 dict.keys_nodup
  apply ext_get?
  intro name
  rw [get?_ofList]
  apply Option.ext
  intro value
  rw [← mem_iff_lookup apart, reversed.mem_iff, mem_entries_iff]

end Dict

namespace Json

variable {read : Json → Option α} {members : List (String × Json)}

/-- What is read under a name is read from the member of that name. -/
theorem lookup_of_read {values : List (String × α)}
    (all : members.map (fun member => (read member.2).map (member.1, ·)) = values.map some)
    (name : String) : values.lookup name = (members.lookup name).bind read := by
  induction members generalizing values with
  | nil =>
      obtain rfl := List.map_eq_nil_iff.1 all.symm
      rfl
  | cons member rest ih =>
      obtain ⟨key, inner⟩ := member
      cases values with
      | nil => cases all
      | cons value more =>
          rw [List.map_cons, List.map_cons, List.cons.injEq] at all
          obtain ⟨first, others⟩ := all
          obtain ⟨found, here, rfl⟩ := Option.map_eq_some_iff.1 first
          rw [Dict.lookup_entry, Dict.lookup_entry, ih others]
          split
          · exact here.symm
          · rfl

/-- An object is read as a map if all its values can be read. -/
theorem dict?_isSome_iff :
    (dict? read (.object members)).isSome = true ↔
      ∀ member ∈ members, (read member.2).isSome = true := by
  rw [dict?, Option.isSome_map, Option.isSome_iff_exists]
  simp only [mapM_eq_some_iff]
  constructor
  · rintro ⟨values, all⟩ member inside
    have found := List.mem_map_of_mem (f := fun member => (read member.2).map (member.1, ·)) inside
    rw [all] at found
    obtain ⟨value, -, same⟩ := List.mem_map.1 found
    cases here : read member.2 with
    | none => simp [here] at same
    | some => rfl
  · intro all
    refine ⟨members.filterMap fun member => (read member.2).map (member.1, ·), ?_⟩
    induction members with
    | nil => rfl
    | cons member rest ih =>
        obtain ⟨here, others⟩ := List.forall_mem_cons.1 all
        obtain ⟨value, found⟩ := Option.isSome_iff_exists.1 here
        simp [found, ih others]

/-- The value of a name is what the last member of that name is read as. -/
theorem get?_of_dict? {dict : Dict α} (given : dict? read (.object members) = some dict)
    (name : String) : dict.get? name = (lastOf name members).bind read := by
  obtain ⟨values, all, rfl⟩ := Option.map_eq_some_iff.1 given
  rw [mapM_eq_some_iff] at all
  have backwards : members.reverse.map (fun member => (read member.2).map (member.1, ·)) =
      values.reverse.map some := by
    rw [List.map_reverse, all, List.map_reverse]
  rw [Dict.get?_ofList, lookup_of_read backwards]
  rfl

theorem lastOf_isSome_iff {name : String} :
    (lastOf name members).isSome = true ↔ name ∈ members.map (·.1) := by
  unfold lastOf
  rw [List.lookup_isSome_iff]
  constructor
  · rintro ⟨member, inside, same⟩
    exact List.mem_map.2 ⟨member, List.mem_reverse.1 inside, (eq_of_beq same).symm⟩
  · intro known
    obtain ⟨member, inside, rfl⟩ := List.mem_map.1 known
    exact ⟨member, List.mem_reverse.2 inside, beq_self_eq_true _⟩

/-- The names of a map that is read from an object are the keys of the object. -/
theorem mem_keys_of_dict? {dict : Dict α} (given : dict? read (.object members) = some dict)
    (name : String) : name ∈ dict.keys ↔ name ∈ members.map (·.1) := by
  have all : ∀ member ∈ members, (read member.2).isSome = true := by
    apply dict?_isSome_iff.1
    rw [given]
    rfl
  rw [Dict.mem_keys_iff, get?_of_dict? given, ← lastOf_isSome_iff]
  cases last : lastOf name members with
  | none => rfl
  | some value =>
      have member : (name, value) ∈ members := by
        unfold lastOf at last
        obtain ⟨before, after, split, -⟩ := List.lookup_eq_some_iff.1 last
        rw [← List.mem_reverse, split]
        simp
      simp [all _ member]

/-- Members that are read as the entries of a map, in whatever order, are read as the map. -/
theorem dict?_of_forall₂ {dict : Dict α} {entries : List (String × α)}
    (each : List.Forall₂ (fun member entry => member.1 = entry.1 ∧ read member.2 = some entry.2)
      members entries)
    (listed : entries.Perm dict.entries) : dict? read (.object members) = some dict := by
  have all : members.mapM (fun member => (read member.2).map (member.1, ·)) = some entries := by
    rw [mapM_eq_some_iff]
    clear listed
    induction each with
    | nil => rfl
    | cons first others ih =>
        obtain ⟨key, value⟩ := first
        simp [key, value, ih]
  rw [dict?, all, Option.map_some, Dict.ofList_of_perm listed]

/-! Objects with known keys. -/

theorem mem_valuesOf_singleton {key : String} {value : Json} :
    value ∈ valuesOf [key] members ↔ (key, value) ∈ members := by
  simp only [valuesOf, List.mem_map, List.mem_filter, List.contains_eq_mem, List.mem_singleton,
    decide_eq_true_eq]
  constructor
  · rintro ⟨⟨_, _⟩, ⟨inside, rfl⟩, rfl⟩
    exact inside
  · intro inside
    exact ⟨_, ⟨inside, rfl⟩, rfl⟩

/-- The order of members does not count for a key that is given once. -/
theorem valuesOf_of_perm {first second : List (String × Json)} (listed : first.Perm second)
    {keys : List String} {value : Option Json} (once : valuesOf keys second = value.toList) :
    valuesOf keys first = value.toList := by
  have values : (valuesOf keys first).Perm (valuesOf keys second) := (listed.filter _).map _
  rw [once] at values
  cases value with
  | none => exact List.perm_nil.1 values
  | some value => exact values.eq_singleton

/-- An object is read by the values of its keys, if none of these is given more than once. -/
theorem record?_eq_some_iff {keys : List String} {required : Nat} {values : List (Option Json)} :
    record? keys required (.object members) = some values ↔
      keys.map (fun key => valuesOf [key] members) = values.map Option.toList := by
  rw [record?, mapM_eq_some_iff]
  induction keys generalizing values with
  | nil => simp
  | cons key rest ih =>
      cases values with
      | nil => simp
      | cons value more =>
          simp only [List.map_cons, List.cons.injEq, ih]
          apply and_congr_left'
          -- a key has no value, one or several, and only the last is refused
          generalize valuesOf [key] members = found
          rcases found with _ | ⟨first, _ | ⟨second, others⟩⟩ <;> cases value <;> simp

/-- The order of members does not count for an object with known keys. -/
theorem record?_of_perm {first second : List (String × Json)} (listed : first.Perm second)
    {keys : List String} {required : Nat} {values : List (Option Json)}
    (recorded : record? keys required (.object second) = some values) :
    record? keys required (.object first) = some values := by
  rw [record?_eq_some_iff] at recorded ⊢
  induction keys generalizing values with
  | nil => exact recorded
  | cons key rest ih =>
      cases values with
      | nil => cases recorded
      | cons value more =>
          obtain ⟨here, others⟩ := List.cons.inj recorded
          exact List.cons_eq_cons.2 ⟨valuesOf_of_perm listed here, ih others⟩

end Json

end FieldUsage
