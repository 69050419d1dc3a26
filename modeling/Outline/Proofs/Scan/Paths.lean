/-
Module: Outline.Proofs.Scan.Paths
Layer: Proofs
Purpose: The paths of the files that a scan reads are all different, if the tree is one that a file system can hold:
  the names of a directory are different and have no slash in them.
Main exports: FileTree.wellNamed, FileTree.sources_distinct, collectSources_paths_nodup
-/
import Mathlib.Data.List.Nodup
import Mathlib.Data.List.Perm.Basic
import Outline.Proofs.Text.Split
import Outline.Scan.Collect

namespace Outline

open Text (SlashFree)

mutual

/-- Are the names of every directory different, and free of slashes? -/
def FileTree.wellNamed : FileTree → Bool
  | .file _ => true
  | .directory entries => wellNamedAmong entries

/-- Are the names of some entries of a directory, and those below, different and free of slashes? -/
def wellNamedAmong : List (String × FileTree) → Bool
  | [] => true
  | (name, t) :: rest =>
    !name.toList.contains '/' && !(rest.map (·.1)).contains name && t.wellNamed && wellNamedAmong rest

end

/-- Files below a directory, all at different places and none at the place of the directory itself. -/
structure DistinctBelow (directory : List String) (files : List SourceFile) : Prop where
  nodup : (files.map (·.components)).Nodup
  below : ∀ f ∈ files, ∃ steps, steps ≠ [] ∧ SlashFree steps ∧ f.components = directory ++ steps

variable {skipped : String → Bool} {wanted : List String → Bool} {directory : List String}

/-- The files that an entry of a directory contributes. -/
def filesUnder (skipped : String → Bool) (wanted : List String → Bool) (directory : List String) :
    String × Found → List SourceFile
  | (name, .file content) => if wanted (directory ++ [name]) then [⟨directory ++ [name], content⟩] else []
  | (name, .below files) => if skipped name then [] else files

/-- A directory holds, in some order, what its entries contribute. -/
theorem arrange_perm (found : List (String × Found)) :
    (arrange skipped wanted directory found).Perm (found.flatMap (filesUnder skipped wanted directory)) := by
  unfold arrange
  dsimp only
  generalize sorted : found.mergeSort (fun a b => decide (a.1 ≤ b.1)) = entries
  have perm : entries.Perm found := sorted ▸ List.mergeSort_perm _ _
  rw [List.filterMap_eq_flatMap_toList]
  apply (List.flatMap_append_perm entries _ _).trans
  apply List.Perm.trans _ (perm.flatMap_right _)
  apply List.Perm.of_eq
  apply List.flatMap_congr
  rintro ⟨name, content | files⟩ _
  · dsimp only [filesUnder]
    split <;> rfl
  · rfl

/-- What an entry contributes lies under its name. -/
theorem components_of_mem_filesUnder {name : String} {found : Found} {f : SourceFile}
    (below : ∀ files, found = .below files → DistinctBelow (directory ++ [name]) files)
    (mem : f ∈ filesUnder skipped wanted directory (name, found)) :
    ∃ steps, SlashFree steps ∧ f.components = directory ++ name :: steps := by
  cases found with
  | file content =>
      rw [filesUnder] at mem
      split at mem
      · rw [List.mem_singleton.1 mem]
        exact ⟨[], fun s none => absurd none List.not_mem_nil, rfl⟩
      · cases mem
  | below files =>
      rw [filesUnder] at mem
      split at mem
      · cases mem
      · obtain ⟨steps, _, free, place⟩ := (below files rfl).below f mem
        exact ⟨steps, free, by rw [place, List.append_assoc]; rfl⟩

/-- Entries with different names, each with different files below it, have different files together. -/
theorem arrange_distinct {found : List (String × Found)} (names : (found.map (·.1)).Nodup)
    (free : SlashFree (found.map (·.1)))
    (below : ∀ name files, (name, Found.below files) ∈ found → DistinctBelow (directory ++ [name]) files) :
    DistinctBelow directory (arrange skipped wanted directory found) := by
  have inner : ∀ e ∈ found, ∀ files, e.2 = .below files → DistinctBelow (directory ++ [e.1]) files := by
    rintro ⟨name, x⟩ mem files rfl
    exact below name files mem
  have perm : (arrange skipped wanted directory found).Perm (found.flatMap (filesUnder skipped wanted directory)) :=
    arrange_perm found
  constructor
  · apply (perm.map (·.components)).nodup_iff.2
    rw [List.map_flatMap, List.nodup_flatMap]
    constructor
    · rintro ⟨name, content | files⟩ mem
      · rw [filesUnder]
        split
        · exact List.nodup_singleton _
        · exact List.nodup_nil
      · rw [filesUnder]
        split
        · exact List.nodup_nil
        · exact (below name files mem).nodup
    · -- the names, in which the places differ, come right behind the directory
      have apart := List.pairwise_map.1 names
      apply apart.imp_of_mem
      intro a b memA memB differ place fromA fromB
      obtain ⟨f, memF, rfl⟩ := List.mem_map.1 fromA
      obtain ⟨g, memG, same⟩ := List.mem_map.1 fromB
      obtain ⟨stepsF, _, placeF⟩ := components_of_mem_filesUnder (inner a memA) memF
      obtain ⟨stepsG, _, placeG⟩ := components_of_mem_filesUnder (inner b memB) memG
      rw [placeF, placeG] at same
      exact differ (List.cons.inj (List.append_cancel_left same)).1.symm
  · intro f mem
    obtain ⟨e, among, contributes⟩ := List.mem_flatMap.1 (perm.mem_iff.1 mem)
    obtain ⟨steps, freeSteps, place⟩ := components_of_mem_filesUnder (inner e among) contributes
    refine ⟨e.1 :: steps, List.cons_ne_nil _ _, ?_, place⟩
    exact List.forall_mem_cons.2 ⟨free e.1 (List.mem_map_of_mem among), freeSteps⟩

/-!
### Trees
-/

/-- Entries are well named if the first has a name of its own without slashes, and so on. -/
theorem wellNamedAmong_cons {name : String} {t : FileTree} {rest : List (String × FileTree)} :
    wellNamedAmong ((name, t) :: rest) ↔
      '/' ∉ name.toList ∧ name ∉ rest.map (·.1) ∧ t.wellNamed ∧ wellNamedAmong rest := by
  simp only [wellNamedAmong, Bool.and_eq_true, Bool.not_eq_true', List.contains_eq_mem, decide_eq_false_iff_not,
    and_assoc]

theorem map_fst_foundAmong (entries : List (String × FileTree)) :
    (foundAmong skipped wanted directory entries).map (·.1) = entries.map (·.1) := by
  induction entries with
  | nil => rfl
  | cons e rest ih => rw [foundAmong, List.map_cons, List.map_cons, ih]

/-- The names of well named entries are distinct and have no slashes. -/
theorem names_of_wellNamedAmong {entries : List (String × FileTree)} (named : wellNamedAmong entries) :
    (entries.map (·.1)).Nodup ∧ SlashFree (entries.map (·.1)) := by
  induction entries with
  | nil => exact ⟨List.nodup_nil, fun s none => absurd none List.not_mem_nil⟩
  | cons e rest ih =>
      obtain ⟨free, fresh, _, others⟩ := wellNamedAmong_cons.1 named
      obtain ⟨nodup, freeRest⟩ := ih others
      exact ⟨List.nodup_cons.2 ⟨fresh, nodup⟩, List.forall_mem_cons.2 ⟨free, freeRest⟩⟩

mutual

/-- What is found below a well named tree has distinct paths. -/
theorem foundAt_distinct (directory : List String) : (t : FileTree) → t.wellNamed →
    ∀ files, foundAt skipped wanted directory t = .below files → DistinctBelow directory files
  | .file _, _, _, found => by cases found
  | .directory entries, named, _, found => by
    cases found
    obtain ⟨names, free⟩ := names_of_wellNamedAmong named
    have same : (foundAmong skipped wanted directory entries).map (·.1) = entries.map (·.1) :=
      map_fst_foundAmong entries
    rw [← same] at names free
    exact arrange_distinct names free (foundAmong_distinct directory entries named)

theorem foundAmong_distinct (directory : List String) : (entries : List (String × FileTree)) →
    wellNamedAmong entries → ∀ name files, (name, Found.below files) ∈ foundAmong skipped wanted directory entries →
      DistinctBelow (directory ++ [name]) files
  | [], _, _, _, mem => absurd mem List.not_mem_nil
  | (other, t) :: rest, named, name, files, mem => by
    obtain ⟨_, _, inner, others⟩ := wellNamedAmong_cons.1 named
    rw [foundAmong, List.mem_cons] at mem
    rcases mem with first | mem
    · obtain ⟨rfl, found⟩ := Prod.mk.inj first
      exact foundAt_distinct (directory ++ [name]) t inner files found.symm
    · exact foundAmong_distinct directory rest others name files mem

end

/-- The sources of a well named tree have distinct paths. -/
theorem FileTree.sources_distinct {tree : FileTree} (named : tree.wellNamed) :
    DistinctBelow [] (tree.sources skipped wanted) := by
  unfold sources
  split
  next files found => exact foundAt_distinct [] tree named files found
  next => exact ⟨List.nodup_nil, fun f none => absurd none List.not_mem_nil⟩

/-- The files that a scan reads have different paths. -/
theorem collectSources_paths_nodup {settings : Settings} {rules : List Ignore.Rule} {tree : FileTree}
    (named : tree.wellNamed) : ((collectSources settings rules tree).map (·.path)).Nodup := by
  have distinct : DistinctBelow [] (collectSources settings rules tree) := FileTree.sources_distinct named
  have places : (collectSources settings rules tree).Pairwise fun f g => f.components ≠ g.components :=
    List.pairwise_map.1 distinct.nodup
  apply List.pairwise_map.2
  apply places.imp_of_mem
  intro f g memF memG differ same
  obtain ⟨stepsF, someF, freeF, placeF⟩ := distinct.below f memF
  obtain ⟨stepsG, someG, freeG, placeG⟩ := distinct.below g memG
  rw [List.nil_append] at placeF placeG
  rw [SourceFile.path, SourceFile.path, placeF, placeG] at same
  rw [placeF, placeG] at differ
  exact differ (Text.joinWith_injective someF freeF someG freeG same)

end Outline
