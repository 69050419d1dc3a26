/-
Module: Outline.Proofs.Dependency.Names
Layer: Proofs
Purpose: Which names the dependencies of a piece of code hold, taken together: the identifiers of the code that are
  imported. Grouping by module moves names about and loses none.
Main exports: isSome_get?_put, nameSet, mem_nameSet_findDependencies
-/
import Mathlib.Data.Finset.Dedup
import Outline.Dependency
import Outline.Proofs.Entries.Distinct

namespace Outline

open Specifier (Resolved)

/-- The keys after storing are those before and the one stored. -/
theorem Entries.isSome_get?_put {α : Type} (m : Entries α) (key other : String) (value : α) :
    (get? (put m key value) other).isSome = (decide (other = key) || (get? m other).isSome) := by
  by_cases same : other = key
  · subst same
    rw [get?_put_self]
    simp
  · rw [get?_put_of_ne m value same]
    simp [same]

/-- The names that some dependencies hold, taken together. -/
def nameSet (ds : List Dependency) : Finset String := (ds.flatMap Dependency.names).toFinset

/-- The name set holds the names of all dependencies. -/
theorem mem_nameSet {name : String} {ds : List Dependency} : name ∈ nameSet ds ↔ ∃ d ∈ ds, name ∈ d.names := by
  rw [nameSet, List.mem_toFinset, List.mem_flatMap]

/-- A group stands for a dependency with the names of the group. -/
theorem DependencyGroup.names_dependency (g : DependencyGroup) : g.dependency.names = g.names := by
  unfold DependencyGroup.dependency
  split <;> rfl

/-- Adding a name to its group adds that name and no other. -/
theorem mem_names_addToGroup {name other : String} {b : Resolved} {groups : List DependencyGroup} :
    (∃ g ∈ addToGroup name b groups, other ∈ g.names) ↔ other = name ∨ ∃ g ∈ groups, other ∈ g.names := by
  induction groups with
  | nil => simp [addToGroup]
  | cons g rest ih =>
      rw [addToGroup]
      split
      · simp only [List.mem_cons, exists_eq_or_imp, List.mem_append, List.not_mem_nil, or_false]
        rw [or_assoc, or_left_comm]
      · simp only [List.mem_cons, exists_eq_or_imp, ih]
        rw [or_left_comm]

/-- Grouping names one after the other keeps every name. -/
theorem mem_names_grouped (other : String) (used : List (String × Resolved)) (groups : List DependencyGroup) :
    (∃ g ∈ used.foldl (fun groups (name, b) => addToGroup name b groups) groups, other ∈ g.names) ↔
      other ∈ used.map (·.1) ∨ ∃ g ∈ groups, other ∈ g.names := by
  induction used generalizing groups with
  | nil => simp
  | cons p used ih =>
      obtain ⟨name, b⟩ := p
      rw [List.foldl_cons, ih, mem_names_addToGroup, List.map_cons, List.mem_cons]
      rw [or_left_comm, or_assoc]

/-- The used names are the identifiers that were imported. -/
theorem mem_usedNames {imports : Entries Resolved} {code name : String} :
    name ∈ (usedNames imports code).map (·.1) ↔ name ∈ identifiers code ∧ (Entries.get? imports name).isSome := by
  simp only [usedNames, List.mem_map, List.mem_filterMap, mem_distinct, Option.isSome_iff_exists]
  constructor
  · rintro ⟨_, ⟨n, mem, found⟩, rfl⟩
    obtain ⟨b, bound, rfl⟩ := Option.map_eq_some_iff.1 found
    exact ⟨mem, b, bound⟩
  · rintro ⟨mem, b, bound⟩
    exact ⟨(name, b), ⟨name, mem, by rw [bound]; rfl⟩, rfl⟩

/-- The dependencies of a piece of code hold exactly the identifiers in it that are imported. -/
theorem mem_nameSet_findDependencies {imports : Entries Resolved} {code name : String} :
    name ∈ nameSet (findDependencies imports code) ↔
      name ∈ identifiers code ∧ (Entries.get? imports name).isSome := by
  have grouped := mem_names_grouped name (usedNames imports code) []
  simp only [mem_usedNames, List.not_mem_nil, false_and, exists_false, or_false] at grouped
  rw [← grouped, mem_nameSet, findDependencies]
  simp only [List.mem_map, exists_exists_and_eq_and, DependencyGroup.names_dependency]

end Outline
