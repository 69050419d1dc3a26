/-
Module: Outline.Proofs.Dependency.FirstUse
Layer: Proofs
Purpose: What the dependencies of a piece of code are, said without going through it: the imported names that stand in
  it, in the order of their first uses, taken together by module, the modules in the order in which the names lead to
  them. Places give the order of the names; the groups are followed name by name.
Main exports: IdentifierAt, mem_identifiers, FirstUses, FirstUses.unique, firstUses_usedNames, modulesOf, namesFrom,
  dependencyOn, findDependencies_of_firstUses
-/
import Mathlib.Data.List.Induction
import Outline.Proofs.Dependency.Grouping
import Outline.Proofs.Dependency.Runs

namespace Outline

open Specifier (Resolved)

/-!
### Identifiers where they stand
-/

/-- An identifier stands in a piece of code, from a place on: a maximal run of word characters that does not start with
    a digit. -/
def IdentifierAt (code : String) (place : Nat) (name : String) : Prop :=
  RunAt isWordChar code.toList place name.toList ∧ name.toList.head?.any Char.isDigit = false

/-- The identifiers of a piece of code, each with the place where it begins. -/
def placedIdentifiers (code : String) : List (Nat × String) :=
  ((placedRuns isWordChar 0 code.toList).filter fun r => !(r.2.head?.any Char.isDigit)).map
    fun r => (r.1, String.ofList r.2)

variable {code name : String} {place : Nat}

/-- The identifiers with their places are the identifiers. -/
theorem map_snd_placedIdentifiers (code : String) : (placedIdentifiers code).map Prod.snd = identifiers code := by
  rw [placedIdentifiers, identifiers, ← map_snd_placedRuns 0, List.filter_map, List.map_map, List.map_map]
  rfl

/-- An identifier with its place stands there in the code. -/
theorem mem_placedIdentifiers : (place, name) ∈ placedIdentifiers code ↔ IdentifierAt code place name := by
  have placed : (place, name.toList) ∈ placedRuns isWordChar 0 code.toList ↔
      RunAt isWordChar code.toList place name.toList := by
    rw [mem_placedRuns]
    simp only [Nat.zero_add, exists_eq_left']
  constructor
  · intro mem
    obtain ⟨⟨start, run⟩, among, same⟩ := List.mem_map.1 mem
    cases same
    obtain ⟨isRun, proper⟩ := List.mem_filter.1 among
    rw [String.toList_ofList] at placed
    rw [IdentifierAt, String.toList_ofList]
    exact ⟨placed.1 isRun, by simpa using proper⟩
  · rintro ⟨stands, proper⟩
    refine List.mem_map.2 ⟨(place, name.toList), List.mem_filter.2 ⟨placed.2 stands, by simp [proper]⟩, ?_⟩
    rw [String.ofList_toList]

theorem pairwise_placedIdentifiers (code : String) : (placedIdentifiers code).Pairwise fun x y => x.1 < y.1 :=
  List.pairwise_map.2 (pairwise_placedRuns.filter _)

/-- The identifiers are the names that stand somewhere in the code. -/
theorem mem_identifiers : name ∈ identifiers code ↔ ∃ place, IdentifierAt code place name := by
  simp only [← map_snd_placedIdentifiers, List.mem_map, Prod.exists, mem_placedIdentifiers, exists_eq_right]

/-!
### The order of first uses
-/

/-- The imported names that stand in a piece of code as identifiers, in the order of their first uses. -/
structure FirstUses (imports : Entries Resolved) (code : String) (names : List String) : Prop where
  mem : ∀ name, name ∈ names ↔ (∃ place, IdentifierAt code place name) ∧ (Entries.get? imports name).isSome
  /-- Each name is used somewhere before all uses of those behind it. -/
  order : names.Pairwise fun first later =>
    ∃ place, IdentifierAt code place first ∧ ∀ other, IdentifierAt code other later → place < other

namespace FirstUses

variable {imports : Entries Resolved} {names names' : List String}

/-- No name stands before itself. -/
theorem nodup (uses : FirstUses imports code names) : names.Nodup := by
  refine uses.order.imp ?_
  rintro first later ⟨place, stands, least⟩ rfl
  exact Nat.lt_irrefl place (least place stands)

/-- There is one list of them. -/
theorem unique (uses : FirstUses imports code names) (uses' : FirstUses imports code names') : names = names' := by
  have perm : names.Perm names' := by
    rw [List.perm_ext_iff_of_nodup uses.nodup uses'.nodup]
    intro name
    exact (uses.mem name).trans (uses'.mem name).symm
  refine perm.eq_of_pairwise ?_ uses.order uses'.order
  rintro a b _ _ ⟨i, standsA, beforeB⟩ ⟨j, standsB, beforeA⟩
  exact absurd (beforeB j standsB) (Nat.lt_asymm (beforeA i standsA))

end FirstUses

/-- The used names come in the order of their first uses. -/
theorem firstUses_usedNames (imports : Entries Resolved) (code : String) :
    FirstUses imports code ((usedNames imports code).map (·.1)) := by
  constructor
  · intro name
    rw [mem_usedNames, mem_identifiers]
  · have order := pairwise_distinctFrom (pairwise_placedIdentifiers code) []
    simp only [map_snd_placedIdentifiers, mem_placedIdentifiers] at order
    rw [map_fst_usedNames]
    exact order.filter _

/-!
### Names by module
-/

section Modules

variable {imports : Entries Resolved} {names : List String} {b : Resolved} {m : Bool × String}

/-- The module that an imported name comes from: whether it is a package, and its path or specifier. -/
def moduleOf? (imports : Entries Resolved) (name : String) : Option (Bool × String) :=
  (Entries.get? imports name).map fun b => (b.isExternal, b.source)

/-- The modules that some names come from, in the order in which the names first lead to them. -/
def modulesOf (imports : Entries Resolved) (names : List String) : List (Bool × String) :=
  (names.filterMap (moduleOf? imports)).eraseDups

/-- Those of some names that come from one module. -/
def namesFrom (imports : Entries Resolved) (names : List String) (m : Bool × String) : List String :=
  names.filter fun name => moduleOf? imports name == some m

/-- The specifier under which the first of some names is imported. -/
def firstSpecifier (imports : Entries Resolved) (names : List String) : String :=
  ((names.head?.bind (Entries.get? imports)).map (·.specifier)).getD ""

/-- The dependency on one module that some names make: a file goes by its path, a package by the specifier of the first
    name. -/
def dependencyOn (imports : Entries Resolved) (names : List String) (m : Bool × String) : Dependency :=
  let own := namesFrom imports names m
  match m with
  | (false, path) => .internal path own
  | (true, _) => .external (Specifier.packageName (firstSpecifier imports own)) (firstSpecifier imports own) own

/-- The group of the names from one module. -/
def groupOn (imports : Entries Resolved) (names : List String) (m : Bool × String) : DependencyGroup :=
  let own := namesFrom imports names m
  ⟨m.1, m.2, firstSpecifier imports own, own⟩

theorem dependency_groupOn : (groupOn imports names m).dependency = dependencyOn imports names m := by
  obtain ⟨_ | _, source⟩ := m <;> rfl

/-- The module of an imported name is that of its answer. -/
theorem moduleOf?_of_get? (bound : Entries.get? imports name = some b) :
    moduleOf? imports name = some (b.isExternal, b.source) := by
  rw [moduleOf?, bound]
  rfl

end Modules

/-!
### Names put into groups
-/

section Repetitions

variable {α : Type} [BEq α] [LawfulBEq α]

/-- Erasing duplicates from a list with one more item at the end. -/
theorem eraseDups_concat (as : List α) (a : α) [Decidable (a ∈ as)] :
    (as ++ [a]).eraseDups = if a ∈ as then as.eraseDups else as.eraseDups ++ [a] := by
  rw [List.eraseDups_append, List.removeAll, List.filter_cons, List.filter_nil]
  split <;> simp_all [List.eraseDups_cons]

theorem nodup_eraseDups (as : List α) : as.eraseDups.Nodup := by
  classical
  induction as using List.reverseRecOn with
  | nil => exact List.nodup_nil
  | append_singleton as a ih =>
      rw [eraseDups_concat]
      split
      next => exact ih
      next new =>
        rw [← List.concat_eq_append]
        exact ih.concat (by simpa using new)

end Repetitions

section Groups

variable {imports : Entries Resolved} {names : List String} {b : Resolved} {m : Bool × String}

/-- The module of a further name is one of those before, or comes last. -/
theorem modulesOf_concat (bound : Entries.get? imports name = some b) :
    modulesOf imports (names ++ [name]) =
      if (b.isExternal, b.source) ∈ modulesOf imports names then modulesOf imports names
      else modulesOf imports names ++ [(b.isExternal, b.source)] := by
  simp only [modulesOf, List.filterMap_append, List.filterMap_cons, moduleOf?_of_get? bound, List.filterMap_nil,
    eraseDups_concat, List.mem_eraseDups]

/-- A further name goes to its own module. -/
theorem namesFrom_concat (bound : Entries.get? imports name = some b) (m : Bool × String) :
    namesFrom imports (names ++ [name]) m =
      if (b.isExternal, b.source) = m then namesFrom imports names m ++ [name] else namesFrom imports names m := by
  rw [namesFrom, List.filter_append, List.filter_cons, List.filter_nil, moduleOf?_of_get? bound]
  split <;> simp_all [namesFrom]

/-- A module is among those of some names exactly if one of the names comes from it. -/
theorem mem_modulesOf : m ∈ modulesOf imports names ↔ namesFrom imports names m ≠ [] := by
  simp [modulesOf, namesFrom, List.filter_eq_nil_iff]

/-- A name of another module leaves a group as it is. -/
theorem groupOn_concat_of_ne (bound : Entries.get? imports name = some b) (other : (b.isExternal, b.source) ≠ m) :
    groupOn imports (names ++ [name]) m = groupOn imports names m := by
  rw [groupOn, namesFrom_concat bound, if_neg other]
  rfl

/-- A further name from a module with names is put behind them, and the specifier stays that of the first. -/
theorem groupOn_concat_self (bound : Entries.get? imports name = some b)
    (known : (b.isExternal, b.source) ∈ modulesOf imports names) :
    groupOn imports (names ++ [name]) (b.isExternal, b.source) =
      { groupOn imports names (b.isExternal, b.source) with
        names := namesFrom imports names (b.isExternal, b.source) ++ [name] } := by
  obtain ⟨first, rest, own⟩ := List.exists_cons_of_ne_nil (mem_modulesOf.1 known)
  rw [groupOn, groupOn, namesFrom_concat bound, if_pos rfl, own]
  rfl

/-- The first name from a module gives the specifier. -/
theorem groupOn_concat_new (bound : Entries.get? imports name = some b)
    (new : (b.isExternal, b.source) ∉ modulesOf imports names) :
    groupOn imports (names ++ [name]) (b.isExternal, b.source) = ⟨b.isExternal, b.source, b.specifier, [name]⟩ := by
  have none : namesFrom imports names (b.isExternal, b.source) = [] := by
    by_contra some
    exact new (mem_modulesOf.2 some)
  rw [groupOn, namesFrom_concat bound, if_pos rfl, none, List.nil_append, firstSpecifier, List.head?_cons,
    Option.bind_some, bound]
  rfl

/-- Groups of other modules are passed over. -/
theorem addToGroup_append {before rest : List DependencyGroup}
    (others : ∀ g ∈ before, g.key ≠ (b.isExternal, b.source)) :
    addToGroup name b (before ++ rest) = before ++ addToGroup name b rest := by
  induction before with
  | nil => rfl
  | cons g before ih =>
      rw [List.forall_mem_cons] at others
      have other : ¬(g.isExternal = b.isExternal ∧ g.source = b.source) := fun same =>
        others.1 (Prod.ext same.1 same.2)
      rw [List.cons_append, addToGroup, if_neg other, ih others.2, List.cons_append]

/-- Putting in a further name turns the groups of the names before into those of all. -/
theorem addToGroup_groupOn (bound : Entries.get? imports name = some b) :
    addToGroup name b ((modulesOf imports names).map (groupOn imports names)) =
      (modulesOf imports (names ++ [name])).map (groupOn imports (names ++ [name])) := by
  have passed : ∀ ms : List (Bool × String), (b.isExternal, b.source) ∉ ms →
      ∀ g ∈ ms.map (groupOn imports names), g.key ≠ (b.isExternal, b.source) := by
    intro ms absent g mem
    obtain ⟨m, among, rfl⟩ := List.mem_map.1 mem
    exact fun same => absent (same ▸ among)
  have kept : ∀ ms : List (Bool × String), (b.isExternal, b.source) ∉ ms →
      ms.map (groupOn imports (names ++ [name])) = ms.map (groupOn imports names) := by
    intro ms absent
    exact List.map_congr_left fun m mem => groupOn_concat_of_ne bound fun same => absent (same ▸ mem)
  rw [modulesOf_concat bound]
  split
  next known =>
    obtain ⟨before, after, parts, fresh⟩ := List.eq_append_cons_of_mem known
    have once : (b.isExternal, b.source) ∉ after := by
      have nodup := nodup_eraseDups (names.filterMap (moduleOf? imports))
      rw [← modulesOf, parts] at nodup
      exact (List.nodup_cons.1 nodup.of_append_right).1
    rw [parts, List.map_append, List.map_cons, List.map_append, List.map_cons, addToGroup_append (passed before fresh),
      addToGroup, if_pos ⟨rfl, rfl⟩, kept before fresh, kept after once, groupOn_concat_self bound known]
    rfl
  next new =>
    have atEnd : addToGroup name b ((modulesOf imports names).map (groupOn imports names) ++ []) =
        (modulesOf imports names).map (groupOn imports names) ++ addToGroup name b [] :=
      addToGroup_append (passed _ new)
    rw [List.append_nil] at atEnd
    rw [atEnd, List.map_append, kept _ new, List.map_singleton, groupOn_concat_new bound new]
    rfl

/-- After all names are put in, there is the group of each module. -/
theorem foldl_addToGroup {used : List (String × Resolved)}
    (bound : ∀ p ∈ used, Entries.get? imports p.1 = some p.2) :
    used.foldl (fun groups (name, b) => addToGroup name b groups) [] =
      (modulesOf imports (used.map (·.1))).map (groupOn imports (used.map (·.1))) := by
  induction used using List.reverseRecOn with
  | nil => rfl
  | append_singleton used p ih =>
      obtain ⟨earlier, last⟩ := List.forall_mem_append.1 bound
      rw [List.foldl_append, ih earlier, List.foldl_cons, List.foldl_nil, List.map_append, List.map_singleton]
      exact addToGroup_groupOn (last p List.mem_cons_self)

end Groups

/-- The dependencies of a piece of code are its first uses taken together by module: one dependency for each module, in
    the order in which the names first lead to the modules, with just the names from there in their order. So their
    names, one dependency after the other, are the first uses in another order. -/
theorem findDependencies_of_firstUses (imports : Entries Resolved) (code : String) :
    ∃ names, (∀ ns, FirstUses imports code ns ↔ ns = names) ∧
      findDependencies imports code = (modulesOf imports names).map (dependencyOn imports names) ∧
      ((findDependencies imports code).flatMap Dependency.names).Perm names ∧ names.Nodup := by
  have uses := firstUses_usedNames imports code
  refine ⟨(usedNames imports code).map (·.1), ?_, ?_, perm_names_findDependencies imports code, uses.nodup⟩
  · intro ns
    constructor
    · exact fun uses' => uses'.unique uses
    · rintro rfl
      exact uses
  · rw [findDependencies, foldl_addToGroup fun p used => get?_of_mem_usedNames used, List.map_map]
    exact List.map_congr_left fun m _ => dependency_groupOn

/-- Names from one module are taken together, also when others stand between them. -/
example :
    findDependencies [("useState", ⟨"react", "react", true⟩), ("api", ⟨"./api", "src/api", false⟩),
        ("React", ⟨"react", "react", true⟩), ("unused", ⟨"x", "x", true⟩)] "useState(api.get(React), 1api, useState)" =
      [.external "react" "react" ["useState", "React"], .internal "src/api" ["api"]] := by
  decide +kernel

end Outline
