/-
Module: Outline.Proofs.Dependency.Grouping
Layer: Proofs
Purpose: How the dependencies of a piece of code are arranged: one for each module, each with at least one name, and
  no name twice. The names are put into groups one after the other; a step adds its name to the one group of its
  module, or opens a new group, so that the arrangement is kept from step to step.
Main exports: Dependency.origin, Arranged, findDependencies_arranged, Covers, findDependencies_covers
-/
import Outline.Proofs.Specifier.Tables

namespace Outline

open Specifier (Resolved)

/-- The module that a dependency is on: whether it is a package, and its path or specifier. -/
def Dependency.origin : Dependency → Bool × String
  | internal path _ => (false, path)
  | external _ specifier _ => (true, specifier)

/-- Dependencies on imported names, arranged by module. -/
structure Arranged (imports : Entries Resolved) (ds : List Dependency) : Prop where
  nonempty : ∀ d ∈ ds, d.names ≠ []
  /-- No name occurs twice, neither within a dependency nor in two of them. -/
  names : (ds.flatMap Dependency.names).Nodup
  /-- No two dependencies are on the same module. -/
  origins : (ds.map Dependency.origin).Nodup
  imported : ∀ name ∈ ds.flatMap Dependency.names, (Entries.get? imports name).isSome

/-- Dependencies stay arranged while more names are imported. -/
theorem Arranged.mono {imports imports' : Entries Resolved} {ds : List Dependency} (arranged : Arranged imports ds)
    (grown : ∀ name, (Entries.get? imports name).isSome → (Entries.get? imports' name).isSome) :
    Arranged imports' ds :=
  ⟨arranged.nonempty, arranged.names, arranged.origins, fun name mem => grown name (arranged.imported name mem)⟩

/-!
### Names that are used
-/

/-- The used names are the distinct identifiers that were imported. -/
theorem map_fst_usedNames (imports : Entries Resolved) (code : String) :
    (usedNames imports code).map (·.1) =
      (distinct (identifiers code)).filter fun name => (Entries.get? imports name).isSome := by
  unfold usedNames
  induction distinct (identifiers code) with
  | nil => rfl
  | cons name rest ih => cases bound : Entries.get? imports name <;> simp [bound, ih]

theorem nodup_usedNames (imports : Entries Resolved) (code : String) :
    ((usedNames imports code).map (·.1)).Nodup := by
  rw [map_fst_usedNames]
  exact (nodup_distinctFrom [] _).filter _

/-- What a used name is bound to is what the table says. -/
theorem get?_of_mem_usedNames {imports : Entries Resolved} {code : String} {p : String × Resolved}
    (used : p ∈ usedNames imports code) : Entries.get? imports p.1 = some p.2 := by
  obtain ⟨name, _, found⟩ := List.mem_filterMap.1 used
  obtain ⟨b, bound, rfl⟩ := Option.map_eq_some_iff.1 found
  exact bound

/-!
### Groups
-/

/-- The module that a group is for. -/
def DependencyGroup.key (g : DependencyGroup) : Bool × String := (g.isExternal, g.source)

/-- A name is put in once. -/
theorem perm_names_addToGroup (name : String) (b : Resolved) (groups : List DependencyGroup) :
    ((addToGroup name b groups).flatMap DependencyGroup.names).Perm
      (name :: groups.flatMap DependencyGroup.names) := by
  induction groups with
  | nil => simp [addToGroup]
  | cons g rest ih =>
      rw [addToGroup]
      split
      · simp only [List.flatMap_cons, List.append_assoc, List.singleton_append]
        exact List.perm_middle
      · simp only [List.flatMap_cons]
        exact (ih.append_left g.names).trans List.perm_middle

/-- A group is opened only if its module has none. -/
theorem map_key_addToGroup (name : String) (b : Resolved) (groups : List DependencyGroup) :
    (addToGroup name b groups).map DependencyGroup.key =
      if (b.isExternal, b.source) ∈ groups.map DependencyGroup.key then groups.map DependencyGroup.key
      else groups.map DependencyGroup.key ++ [(b.isExternal, b.source)] := by
  induction groups with
  | nil => rfl
  | cons g rest ih =>
      rw [addToGroup]
      split
      next same => simp [DependencyGroup.key, same]
      next other =>
        have differs : (b.isExternal, b.source) ≠ g.key := by
          intro same
          simp only [DependencyGroup.key, Prod.mk.injEq] at same
          exact other ⟨same.1.symm, same.2.symm⟩
        simp only [List.map_cons, ih, List.mem_cons, differs, false_or]
        split <;> rfl

/-- What holds of a new group and survives the adding of a name goes on holding of all groups. -/
theorem forall_mem_addToGroup {P : DependencyGroup → Prop} {name : String} {b : Resolved}
    {groups : List DependencyGroup} (each : ∀ g ∈ groups, P g)
    (opened : P ⟨b.isExternal, b.source, b.specifier, [name]⟩)
    (added : ∀ g, P g → P { g with names := g.names ++ [name] }) : ∀ g ∈ addToGroup name b groups, P g := by
  induction groups with
  | nil => simpa [addToGroup] using opened
  | cons g rest ih =>
      rw [List.forall_mem_cons] at each
      rw [addToGroup]
      split
      · exact List.forall_mem_cons.2 ⟨added g each.1, each.2⟩
      · exact List.forall_mem_cons.2 ⟨each.1, ih each.2⟩

/-- Groups with names in them, one for each module, packages by their specifiers. -/
structure Grouped (groups : List DependencyGroup) : Prop where
  nonempty : ∀ g ∈ groups, g.names ≠ []
  keys : (groups.map DependencyGroup.key).Nodup
  coherent : ∀ g ∈ groups, g.isExternal = true → g.source = g.specifier

theorem Grouped.nil : Grouped [] := ⟨by simp, by simp, by simp⟩

theorem Grouped.add {groups : List DependencyGroup} (grouped : Grouped groups) (name : String) {b : Resolved}
    (coherent : b.Coherent) : Grouped (addToGroup name b groups) := by
  constructor
  · exact forall_mem_addToGroup grouped.nonempty (by simp) (by simp)
  · rw [map_key_addToGroup]
    split
    next => exact grouped.keys
    next fresh =>
      rw [← List.concat_eq_append]
      exact grouped.keys.concat fresh
  · exact forall_mem_addToGroup grouped.coherent coherent fun _ kept => kept

/-- After all names are put in, the groups hold just these names. -/
theorem perm_names_foldl (used : List (String × Resolved)) (groups : List DependencyGroup) :
    ((used.foldl (fun groups (name, b) => addToGroup name b groups) groups).flatMap DependencyGroup.names).Perm
      (used.map (·.1) ++ groups.flatMap DependencyGroup.names) := by
  induction used generalizing groups with
  | nil => exact .refl _
  | cons p used ih =>
      obtain ⟨name, b⟩ := p
      have put := perm_names_addToGroup name b groups
      exact (ih (addToGroup name b groups)).trans ((put.append_left _).trans List.perm_middle)

/-- After all names are put in, the groups are as they should be. -/
theorem Grouped.foldl {used : List (String × Resolved)} {groups : List DependencyGroup} (grouped : Grouped groups)
    (coherent : ∀ p ∈ used, p.2.Coherent) :
    Grouped (used.foldl (fun groups (name, b) => addToGroup name b groups) groups) := by
  induction used generalizing groups with
  | nil => exact grouped
  | cons p used ih =>
      obtain ⟨name, b⟩ := p
      rw [List.forall_mem_cons] at coherent
      exact ih (grouped.add name coherent.1) coherent.2

/-- The names of the dependencies are the used names. -/
theorem perm_names_findDependencies (imports : Entries Resolved) (code : String) :
    ((findDependencies imports code).flatMap Dependency.names).Perm ((usedNames imports code).map (·.1)) := by
  have put := perm_names_foldl (usedNames imports code) []
  rw [List.flatMap_nil, List.append_nil] at put
  rw [findDependencies, List.flatMap_map]
  simpa only [DependencyGroup.names_dependency] using put

/-!
### Dependencies
-/

/-- The dependency of a group comes from the module of the group. -/
theorem DependencyGroup.origin_dependency {g : DependencyGroup} (coherent : g.isExternal = true → g.source = g.specifier) :
    g.dependency.origin = g.key := by
  unfold DependencyGroup.dependency DependencyGroup.key
  split
  next package => rw [coherent package, package]; rfl
  next internal => rw [Bool.eq_false_iff.2 internal]; rfl

/-- The dependencies of a piece of code are arranged by module, if packages go by their specifiers. -/
theorem findDependencies_arranged {imports : Entries Resolved} (code : String)
    (coherent : ∀ name b, Entries.get? imports name = some b → b.Coherent) :
    Arranged imports (findDependencies imports code) := by
  have each : ∀ p ∈ usedNames imports code, p.2.Coherent := fun p used =>
    coherent p.1 p.2 (get?_of_mem_usedNames used)
  have perm := perm_names_findDependencies imports code
  have grouped := Grouped.nil.foldl each
  unfold findDependencies at perm ⊢
  generalize (usedNames imports code).foldl _ [] = groups at grouped perm ⊢
  constructor
  · simpa [DependencyGroup.names_dependency] using grouped.nonempty
  · exact perm.nodup_iff.2 (nodup_usedNames imports code)
  · have origins : (groups.map DependencyGroup.dependency).map Dependency.origin =
        groups.map DependencyGroup.key := by
      rw [List.map_map]
      exact List.map_congr_left fun g mem => DependencyGroup.origin_dependency (grouped.coherent g mem)
    rw [origins]
    exact grouped.keys
  · intro name mem
    exact (mem_usedNames.1 (perm.mem_iff.1 mem)).2

/-!
### The modules that names come from
-/

/-- Every group holds names bound to its module only. -/
def BoundTo (imports : Entries Resolved) (g : DependencyGroup) : Prop :=
  ∀ name ∈ g.names, ∃ b, Entries.get? imports name = some b ∧ g.key = (b.isExternal, b.source)

/-- Adding a bound name to groups of bound names leaves groups of bound names. -/
theorem BoundTo.addToGroup {imports : Entries Resolved} {name : String} {b : Resolved}
    {groups : List DependencyGroup} (bound : Entries.get? imports name = some b)
    (each : ∀ g ∈ groups, BoundTo imports g) : ∀ g ∈ addToGroup name b groups, BoundTo imports g := by
  have own : ∀ g : DependencyGroup, g.key = (b.isExternal, b.source) → BoundTo imports g →
      BoundTo imports { g with names := g.names ++ [name] } := by
    intro g same before other mem
    rcases List.mem_append.1 mem with earlier | added
    · exact before other earlier
    · rw [List.mem_singleton.1 added]
      exact ⟨b, bound, same⟩
  induction groups with
  | nil =>
      intro g mem
      rw [List.mem_singleton.1 mem]
      exact own ⟨b.isExternal, b.source, b.specifier, []⟩ rfl fun other mem => absurd mem List.not_mem_nil
  | cons g rest ih =>
      rw [List.forall_mem_cons] at each
      rw [Outline.addToGroup]
      split
      next same => exact List.forall_mem_cons.2 ⟨own g (Prod.ext same.1 same.2) each.1, each.2⟩
      next => exact List.forall_mem_cons.2 ⟨each.1, ih each.2⟩

theorem BoundTo.foldl {imports : Entries Resolved} {used : List (String × Resolved)} {groups : List DependencyGroup}
    (bound : ∀ p ∈ used, Entries.get? imports p.1 = some p.2) (each : ∀ g ∈ groups, BoundTo imports g) :
    ∀ g ∈ used.foldl (fun groups (name, b) => Outline.addToGroup name b groups) groups, BoundTo imports g := by
  induction used generalizing groups with
  | nil => exact each
  | cons p used ih =>
      rw [List.forall_mem_cons] at bound
      exact ih bound.2 (BoundTo.addToGroup bound.1 each)

/-- A name stands under the module that it is bound to. -/
theorem origin_of_mem_findDependencies {imports : Entries Resolved} {code name : String} {d : Dependency}
    (coherent : ∀ name b, Entries.get? imports name = some b → b.Coherent) (mem : d ∈ findDependencies imports code)
    (holds : name ∈ d.names) : ∃ b, Entries.get? imports name = some b ∧ d.origin = (b.isExternal, b.source) := by
  have each : ∀ p ∈ usedNames imports code, p.2.Coherent := fun p used =>
    coherent p.1 p.2 (get?_of_mem_usedNames used)
  obtain ⟨g, among, rfl⟩ := List.mem_map.1 mem
  have boundTo := BoundTo.foldl (fun p (used : p ∈ usedNames imports code) => get?_of_mem_usedNames used)
    (by simp) g among
  rw [DependencyGroup.names_dependency] at holds
  obtain ⟨b, bound, key⟩ := boundTo name holds
  have origin := DependencyGroup.origin_dependency ((Grouped.nil.foldl each).coherent g among)
  exact ⟨b, bound, origin.trans key⟩

/-- Every name of some dependencies occurs in others, under the same module. -/
def Covers (outer inner : List Dependency) : Prop :=
  ∀ d ∈ inner, ∀ name ∈ d.names, ∃ e ∈ outer, e.origin = d.origin ∧ name ∈ e.names

/-- With the same imports, code with more identifiers has all the dependencies of code with fewer. -/
theorem findDependencies_covers {imports : Entries Resolved} {outer inner : String}
    (coherent : ∀ name b, Entries.get? imports name = some b → b.Coherent)
    (fewer : identifiers inner ⊆ identifiers outer) :
    Covers (findDependencies imports outer) (findDependencies imports inner) := by
  intro d mem name holds
  obtain ⟨occurs, imported⟩ := mem_nameSet_findDependencies.1 (mem_nameSet.2 ⟨d, mem, holds⟩)
  obtain ⟨e, among, holdsToo⟩ := mem_nameSet.1 (mem_nameSet_findDependencies.2 ⟨fewer occurs, imported⟩)
  obtain ⟨b, bound, origin⟩ := origin_of_mem_findDependencies coherent mem holds
  obtain ⟨c, boundToo, originToo⟩ := origin_of_mem_findDependencies coherent among holdsToo
  cases bound.symm.trans boundToo
  exact ⟨e, among, originToo.trans origin.symm, holdsToo⟩

end Outline
