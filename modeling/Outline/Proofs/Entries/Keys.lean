/-
Module: Outline.Proofs.Entries.Keys
Layer: Proofs
Purpose: The keys of maps that remember their order. Storing a value adds its key if it is new, so the keys of a map that
  arises by storing are distinct, and of several pairs stored under one key the last is found.
Main exports: Entries.mem_of_get?, Entries.get?_eq_none_iff, Entries.get?_of_mem, Entries.keys_put, Entries.nodup_put,
  Entries.get?_put, Entries.get?_merge, Entries.mem_merge, Entries.nodup_ofPairs, Entries.get?_ofPairs
-/
import Mathlib.Data.List.Basic
import Outline.Entries

namespace Outline.Entries

variable {α : Type} {m : Entries α} {key other : String} {value : α}

theorem mem_of_get? (found : get? m key = some value) : (key, value) ∈ m := by
  induction m with
  | nil => cases found
  | cons e rest ih =>
      rw [get?] at found
      split at found
      next same =>
        cases found
        exact same ▸ List.mem_cons_self
      next => exact List.mem_cons_of_mem e (ih found)

theorem mem_keys_of_mem (mem : (key, value) ∈ m) : key ∈ keys m := List.mem_map_of_mem (f := Prod.fst) mem

theorem get?_eq_none_iff : get? m key = none ↔ key ∉ keys m := by
  induction m with
  | nil => simp [get?, keys]
  | cons e rest ih =>
      rw [get?, keys, List.map_cons, List.mem_cons, not_or]
      split
      next same => simp [same]
      next differ => exact ih.trans ⟨fun none => ⟨Ne.symm differ, none⟩, And.right⟩

theorem isSome_get?_iff : (get? m key).isSome = true ↔ key ∈ keys m := by
  rw [← not_iff_not, ← get?_eq_none_iff, Bool.not_eq_true, Option.isSome_eq_false_iff, Option.isNone_iff_eq_none]

/-- With distinct keys every entry is found under its key. -/
theorem get?_of_mem (distinct : (keys m).Nodup) (mem : (key, value) ∈ m) : get? m key = some value := by
  induction m with
  | nil => cases mem
  | cons e rest ih =>
      rw [keys, List.map_cons, List.nodup_cons] at distinct
      rw [get?]
      split
      next same =>
        rcases List.mem_cons.1 mem with rfl | among
        · rfl
        · exact absurd (same ▸ mem_keys_of_mem among) distinct.1
      next differ =>
        rcases List.mem_cons.1 mem with rfl | among
        · exact absurd rfl differ
        · exact ih distinct.2 among

/-- After storing, the stored value is found under its key and what was there under the others. -/
theorem get?_put (m : Entries α) (key other : String) (value : α) :
    get? (put m key value) other = if other = key then some value else get? m other := by
  split
  next same => rw [same, get?_put_self]
  next differ => exact get?_put_of_ne m value differ

/-- The entries after storing are the stored one and earlier ones. -/
theorem mem_put {e : String × α} (mem : e ∈ put m key value) : e = (key, value) ∨ e ∈ m := by
  induction m with
  | nil => exact .inl (List.mem_singleton.1 mem)
  | cons first rest ih =>
      obtain ⟨k, v⟩ := first
      rw [put] at mem
      split at mem
      next same =>
        rcases List.mem_cons.1 mem with rfl | among
        · exact .inl (by rw [same])
        · exact .inr (List.mem_cons_of_mem _ among)
      next =>
        rcases List.mem_cons.1 mem with rfl | among
        · exact .inr List.mem_cons_self
        · exact (ih among).imp_right (List.mem_cons_of_mem _)

/-- Storing adds the key at the end if it is new. -/
theorem keys_put (m : Entries α) (key : String) (value : α) :
    keys (put m key value) = if key ∈ keys m then keys m else keys m ++ [key] := by
  induction m with
  | nil => rfl
  | cons first rest ih =>
      obtain ⟨k, v⟩ := first
      rw [put]
      split
      next same => simp [keys, same]
      next differ =>
        have split : keys ((k, v) :: put rest key value) = k :: keys (put rest key value) := rfl
        have whole : keys ((k, v) :: rest) = k :: keys rest := rfl
        rw [split, whole, ih]
        by_cases mem : key ∈ keys rest <;> simp [mem, Ne.symm differ]

theorem nodup_put (distinct : (keys m).Nodup) (key : String) (value : α) : (keys (put m key value)).Nodup := by
  rw [keys_put]
  split
  next => exact distinct
  next fresh =>
    rw [List.nodup_append]
    refine ⟨distinct, List.pairwise_singleton _ key, ?_⟩
    intro k mem k' single
    rw [List.mem_singleton.1 single]
    exact fun same => fresh (same ▸ mem)

/-- Of the pairs stored under a key the last counts. -/
theorem get?_merge (m pairs : Entries α) (key : String) :
    get? (merge m pairs) key = ((pairs.reverse.find? (·.1 = key)).map Prod.snd).or (get? m key) := by
  induction pairs generalizing m with
  | nil => rfl
  | cons p pairs ih =>
      have first : merge m (p :: pairs) = merge (put m p.1 p.2) pairs := rfl
      rw [first, ih, List.reverse_cons, List.find?_append, get?_put]
      by_cases same : p.1 = key
      · cases pairs.reverse.find? (·.1 = key) <;> simp [same]
      · cases pairs.reverse.find? (·.1 = key) <;> simp [same, Ne.symm same]

/-- The entries of a merged table come from one of the two. -/
theorem mem_merge {e : String × α} {pairs : Entries α} (mem : e ∈ merge m pairs) : e ∈ m ∨ e ∈ pairs := by
  induction pairs generalizing m with
  | nil => exact .inl mem
  | cons p pairs ih =>
      rcases ih mem with before | further
      · rcases mem_put before with rfl | old
        · exact .inr List.mem_cons_self
        · exact .inl old
      · exact .inr (List.mem_cons_of_mem p further)

/-- Merging keeps the keys of the first table distinct. -/
theorem nodup_merge (distinct : (keys m).Nodup) (pairs : Entries α) : (keys (merge m pairs)).Nodup := by
  induction pairs generalizing m with
  | nil => exact distinct
  | cons p pairs ih => exact ih (nodup_put distinct p.1 p.2)

theorem nodup_ofPairs (pairs : Entries α) : (keys (ofPairs pairs)).Nodup :=
  nodup_merge (show (keys ([] : Entries α)).Nodup from List.nodup_nil) pairs

theorem get?_ofPairs (pairs : Entries α) (key : String) :
    get? (ofPairs pairs) key = (pairs.reverse.find? (·.1 = key)).map Prod.snd :=
  (get?_merge [] pairs key).trans Option.or_none

end Outline.Entries
