import FieldUsage.Dict
import Mathlib.Data.List.Sort

/-!
Maps by their look-ups. The entries of a map are strictly increasing, so a name stands in one entry
at most: membership of an entry is a look-up, and the look-ups determine the map.
-/

namespace FieldUsage.Dict

variable {α : Type}

theorem keys_nodup (dict : Dict α) : dict.keys.Nodup := by
  refine dict.keys_pairwise.imp ?_
  rintro first _ below rfl
  exact String.lt_irrefl first below

/-- Where names are different, an entry is what a look-up of its name finds. -/
theorem mem_iff_lookup {entries : List (String × α)} (apart : (entries.map (·.1)).Nodup)
    (key : String) (value : α) : (key, value) ∈ entries ↔ entries.lookup key = some value := by
  induction entries with
  | nil => simp
  | cons first rest ih =>
      obtain ⟨name, old⟩ := first
      obtain ⟨fresh, others⟩ := List.nodup_cons.1 apart
      rw [List.mem_cons, lookup_entry, Prod.mk.injEq, ih others]
      by_cases same : key = name
      · subst same
        have absent : rest.lookup key ≠ some value := by
          intro found
          exact fresh (List.mem_map.2 ⟨(key, value), (ih others).2 found, rfl⟩)
        simp [absent, eq_comm]
      · simp [same]

/-- The entries are what can be looked up. -/
theorem mem_entries_iff (dict : Dict α) (key : String) (value : α) :
    (key, value) ∈ dict.entries ↔ dict.get? key = some value :=
  mem_iff_lookup dict.keys_nodup key value

theorem entries_nodup (dict : Dict α) : dict.entries.Nodup :=
  dict.keys_nodup.of_map

/-- Maps with the same look-ups are equal. -/
theorem ext_get? {first second : Dict α}
    (same : ∀ name, first.get? name = second.get? name) : first = second := by
  have members : first.entries.Perm second.entries := by
    rw [List.perm_ext_iff_of_nodup first.entries_nodup second.entries_nodup]
    rintro ⟨key, value⟩
    rw [mem_entries_iff, mem_entries_iff, same]
  have asymmetric (a b : String × α) (below : a.1 < b.1) (above : b.1 < a.1) : a = b :=
    absurd above (String.lt_asymm below)
  exact Dict.ext (members.eq_of_pairwise (fun a b _ _ => asymmetric a b) first.sorted second.sorted)

/-- The values of a map bear the names under which they are stored. -/
theorem map_values_of_keyed {nameOf : α → String} {dict : Dict α} (keyed : dict.Keyed nameOf) :
    dict.values.map nameOf = dict.keys := by
  unfold values keys
  rw [List.map_map, List.map_inj_left]
  intro entry member
  exact keyed entry.1 entry.2 ((dict.mem_entries_iff _ _).1 member)

theorem mem_values_iff {dict : Dict α} {value : α} :
    value ∈ dict.values ↔ ∃ key, dict.get? key = some value := by
  unfold values
  rw [List.mem_map]
  constructor
  · rintro ⟨⟨key, stored⟩, member, rfl⟩
    exact ⟨key, (dict.mem_entries_iff key stored).1 member⟩
  · rintro ⟨key, found⟩
    exact ⟨(key, value), (dict.mem_entries_iff key value).2 found, rfl⟩

/-- Maps with values under the same names list the same names. -/
theorem keys_eq_of_isSome {first second : Dict α}
    (same : ∀ name, (first.get? name).isSome = (second.get? name).isSome) :
    first.keys = second.keys := by
  have members : first.keys.Perm second.keys := by
    rw [List.perm_ext_iff_of_nodup first.keys_nodup second.keys_nodup]
    intro name
    rw [mem_keys_iff, mem_keys_iff, same]
  apply members.eq_of_pairwise _ first.keys_pairwise second.keys_pairwise
  intro a b _ _ below above
  exact absurd above (String.lt_asymm below)

end FieldUsage.Dict
