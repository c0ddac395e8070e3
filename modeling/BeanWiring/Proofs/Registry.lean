import BeanWiring.Registry

/-!
Looking into tables after they were changed.
-/
namespace BeanWiring.Registry

variable {κ α : Type} [DecidableEq κ]

theorem get?_insert (r : Registry κ α) (key other : κ) (value : α) :
    (r.insert key value).get? other = if key = other then some value else r.get? other := by
  obtain ⟨entries⟩ := r
  change lookup other (put key value entries) =
    if key = other then some value else lookup other entries
  induction entries with
  | nil => rfl
  | cons entry rest ih =>
    obtain ⟨k, a⟩ := entry
    by_cases here : k = key
    · subst here
      by_cases same : k = other <;> simp [put, lookup, same]
    · by_cases same : k = other
      · subst same
        have apart : key ≠ k := fun h => here h.symm
        simp [put, lookup, here, apart]
      · simp [put, lookup, here, same, ih]

theorem get?_insert_self (r : Registry κ α) (key : κ) (value : α) :
    (r.insert key value).get? key = some value := by
  rw [get?_insert, if_pos rfl]

theorem get?_erase (r : Registry κ α) (key other : κ) :
    (r.erase key).get? other = if key = other then none else r.get? other := by
  obtain ⟨entries⟩ := r
  change lookup other (entries.filter fun e => e.1 ≠ key) =
    if key = other then none else lookup other entries
  induction entries with
  | nil => simp [lookup]
  | cons entry rest ih =>
    obtain ⟨k, a⟩ := entry
    by_cases here : k = key
    · subst here
      by_cases same : k = other <;> simp_all [lookup]
    · by_cases same : k = other
      · subst same
        have apart : key ≠ k := fun h => here h.symm
        simp [lookup, here, apart]
      · simp [lookup, here, same] at ih ⊢
        exact ih

theorem exists_of_mem_keys {r : Registry κ α} {key : κ} (member : key ∈ r.keys) :
    ∃ value, r.get? key = some value := by
  obtain ⟨entries⟩ := r
  change key ∈ entries.map (·.1) at member
  change ∃ value, lookup key entries = some value
  induction entries with
  | nil => cases member
  | cons entry rest ih =>
    obtain ⟨k, a⟩ := entry
    by_cases here : k = key
    · exact ⟨a, by simp [lookup, here]⟩
    · rw [lookup, if_neg here]
      refine ih ?_
      rcases List.mem_cons.mp member with same | later
      · exact absurd same.symm here
      · exact later

theorem mem_keys {r : Registry κ α} {key : κ} {value : α} (found : r.get? key = some value) :
    key ∈ r.keys := by
  obtain ⟨entries⟩ := r
  change lookup key entries = some value at found
  change key ∈ entries.map (·.1)
  induction entries with
  | nil => cases found
  | cons entry rest ih =>
    obtain ⟨k, a⟩ := entry
    rw [lookup] at found
    split at found
    · rename_i here
      exact here ▸ List.mem_cons_self
    · exact List.mem_cons_of_mem k (ih found)

theorem contains_iff {r : Registry κ α} {key : κ} : r.contains key = true ↔ key ∈ r.keys := by
  unfold contains
  rw [Option.isSome_iff_exists]
  exact ⟨fun ⟨_, found⟩ => mem_keys found, exists_of_mem_keys⟩

theorem keys_insert (r : Registry κ α) (key : κ) (value : α) :
    (r.insert key value).keys = if key ∈ r.keys then r.keys else r.keys ++ [key] := by
  obtain ⟨entries⟩ := r
  change (put key value entries).map (·.1) =
    if key ∈ entries.map (·.1) then entries.map (·.1) else entries.map (·.1) ++ [key]
  induction entries with
  | nil => rfl
  | cons entry rest ih =>
    obtain ⟨k, a⟩ := entry
    by_cases here : k = key
    · simp [put, here]
    · have apart : key ≠ k := fun h => here h.symm
      rw [put, if_neg here, List.map_cons, ih]
      by_cases later : key ∈ rest.map (·.1) <;> simp_all

theorem keys_erase (r : Registry κ α) (key : κ) :
    (r.erase key).keys = r.keys.filter (· ≠ key) := by
  unfold erase keys
  rw [List.filter_map]
  rfl

end BeanWiring.Registry
