import Mathlib.Data.List.Nodup
import Mathlib.Data.List.Lemmas

/-!
# Tables with one entry per key

A map as the list of its entries. `emplace` keeps an entry that is already there, as the
unordered containers do; `assign` replaces its value where it stands, as a map in insertion
order does; `drop` removes the entry of a key. In a table with distinct keys the entries are
exactly what lookups find.
-/

namespace SimplexAgent.Verified.KeyedTable

variable {κ β : Type*} [DecidableEq κ]
variable {table : List (κ × β)}

def Keyed (table : List (κ × β)) : Prop := (table.map Prod.fst).Nodup

/-- Add an entry, unless the key has one. -/
def emplace (table : List (κ × β)) (key : κ) (value : β) : List (κ × β) :=
  if (table.lookup key).isSome then table else table ++ [(key, value)]

/-- Set the value of a key: an entry keeps its place, a new key goes to the end. -/
def assign (table : List (κ × β)) (key : κ) (value : β) : List (κ × β) :=
  if (table.lookup key).isSome then table.map fun e => if e.1 = key then (key, value) else e
  else table ++ [(key, value)]

/-- Remove the entry of a key. -/
def drop (table : List (κ × β)) (key : κ) : List (κ × β) := table.filter fun e => e.1 ≠ key

theorem lookup_isSome_iff {key : κ} :
    (table.lookup key).isSome = true ↔ key ∈ table.map Prod.fst := by
  induction table with
  | nil => simp
  | cons entry rest ih =>
    obtain ⟨k, v⟩ := entry
    by_cases h : key = k
    · simp [h]
    · simp [List.lookup_cons, beq_eq_false_iff_ne.mpr h, h, ih]

theorem lookup_eq_some_iff (hKeyed : Keyed table) {key : κ} {value : β} :
    table.lookup key = some value ↔ (key, value) ∈ table := by
  induction table with
  | nil => simp
  | cons entry rest ih =>
    obtain ⟨k, v⟩ := entry
    have hParts := List.nodup_cons.mp (show (k :: rest.map Prod.fst).Nodup from hKeyed)
    by_cases h : key = k
    · subst h
      have hAbsent : (key, value) ∉ rest := fun hMem =>
        hParts.1 (List.mem_map.mpr ⟨_, hMem, rfl⟩)
      simp [hAbsent, eq_comm]
    · simp [List.lookup_cons, beq_eq_false_iff_ne.mpr h, h, ih hParts.2]

theorem Keyed.emplace (h : Keyed table) (key : κ) (value : β) :
    Keyed (emplace table key value) := by
  unfold KeyedTable.emplace
  split
  · exact h
  · rename_i hAbsent
    rw [lookup_isSome_iff] at hAbsent
    unfold Keyed
    rw [List.map_append]
    exact List.Nodup.append h (List.nodup_singleton key) (by simpa using hAbsent)

theorem mem_emplace {key : κ} {value : β} {entry : κ × β} (h : entry ∈ emplace table key value) :
    entry ∈ table ∨ entry = (key, value) := by
  unfold emplace at h
  split at h
  · exact Or.inl h
  · simpa using h

theorem length_emplace_le (table : List (κ × β)) (key : κ) (value : β) :
    (emplace table key value).length ≤ table.length + 1 := by
  unfold emplace
  split
  · exact Nat.le_succ _
  · simp

theorem keys_assign (table : List (κ × β)) (key : κ) (value : β) :
    (assign table key value).map Prod.fst =
      if key ∈ table.map Prod.fst then table.map Prod.fst else table.map Prod.fst ++ [key] := by
  unfold assign
  by_cases h : key ∈ table.map Prod.fst
  · rw [if_pos h, if_pos (lookup_isSome_iff.mpr h), List.map_map]
    apply List.map_congr_left
    intro entry _
    by_cases hKey : entry.1 = key
    · simp [hKey]
    · simp [hKey]
  · rw [if_neg h, if_neg (fun hSome => h (lookup_isSome_iff.mp hSome)), List.map_append]
    rfl

theorem Keyed.assign (h : Keyed table) (key : κ) (value : β) : Keyed (assign table key value) := by
  unfold Keyed
  rw [keys_assign]
  split
  · exact h
  · rename_i hAbsent
    exact List.Nodup.append h (List.nodup_singleton key) (by simpa using hAbsent)

theorem mem_assign_self (table : List (κ × β)) (key : κ) (value : β) :
    (key, value) ∈ assign table key value := by
  unfold assign
  split
  · rename_i hSome
    obtain ⟨entry, hMem, hKey⟩ := List.mem_map.mp (lookup_isSome_iff.mp hSome)
    exact List.mem_map.mpr ⟨entry, hMem, by rw [if_pos hKey]⟩
  · simp

theorem mem_assign_of_ne {key : κ} {value : β} {entry : κ × β} (hKey : entry.1 ≠ key) :
    entry ∈ assign table key value ↔ entry ∈ table := by
  unfold assign
  split
  · rw [List.mem_map]
    constructor
    · rintro ⟨old, hMem, hOld⟩
      by_cases hSame : old.1 = key
      · rw [if_pos hSame] at hOld
        exact absurd (by rw [← hOld]) hKey
      · rw [if_neg hSame] at hOld
        exact hOld ▸ hMem
    · intro hMem
      exact ⟨entry, hMem, if_neg hKey⟩
  · rw [List.mem_append, List.mem_singleton]
    constructor
    · rintro (hMem | hNew)
      · exact hMem
      · exact absurd (by rw [hNew]) hKey
    · exact Or.inl

theorem mem_assign {key : κ} {value : β} {entry : κ × β} (h : entry ∈ assign table key value) :
    entry ∈ table ∨ entry = (key, value) := by
  unfold assign at h
  split at h
  · obtain ⟨old, hMem, hOld⟩ := List.mem_map.mp h
    by_cases hSame : old.1 = key
    · rw [if_pos hSame] at hOld
      exact Or.inr hOld.symm
    · rw [if_neg hSame] at hOld
      exact Or.inl (hOld ▸ hMem)
  · simpa using h

theorem Keyed.drop (h : Keyed table) (key : κ) : Keyed (drop table key) :=
  h.sublist (List.Sublist.map _ List.filter_sublist)

theorem mem_drop {key : κ} {entry : κ × β} :
    entry ∈ drop table key ↔ entry ∈ table ∧ entry.1 ≠ key := by
  simp [drop]

theorem length_drop_le (table : List (κ × β)) (key : κ) : (drop table key).length ≤ table.length :=
  List.length_filter_le _ _

end SimplexAgent.Verified.KeyedTable
