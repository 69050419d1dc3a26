/-
Module: Outline.Proofs.Scan.Visited
Layer: Proofs
Purpose: The order in which a scan collects the files of a directory: its own files come before those of its
  subdirectories, and both follow their names. No file comes before itself in that order, so each comes once.
Main exports: VisitedBefore, collectSources_visited, collectSources_exactly
-/
import Outline.Proofs.Scan.Sources
import Outline.Proofs.Scan.Tally

namespace Outline

variable {skipped : String → Bool} {wanted : List String → Bool} {place : List String} {f : SourceFile}

/-- Of two files below a directory, given by the names on the way to them, the first is visited before the second. -/
inductive VisitedBefore : List String → List String → Prop where
  /-- Files of one directory follow their names. -/
  | files {a b : String} (less : a < b) : VisitedBefore [a] [b]
  /-- The files of a directory come before all that is in its subdirectories. -/
  | fileFirst {a b c : String} {steps : List String} : VisitedBefore [a] (b :: c :: steps)
  /-- Subdirectories follow their names. -/
  | directories {a b c d : String} {p q : List String} (less : a < b) : VisitedBefore (a :: c :: p) (b :: d :: q)
  | inside {a : String} {p q : List String} (inner : VisitedBefore p q) : VisitedBefore (a :: p) (a :: q)

/-- No file comes before itself. -/
theorem VisitedBefore.irrefl {p q : List String} (before : VisitedBefore p q) : p ≠ q := by
  induction before with
  | files less =>
      rintro ⟨⟩
      exact String.lt_irrefl _ less
  | fileFirst => rintro ⟨⟩
  | directories less =>
      rintro ⟨⟩
      exact String.lt_irrefl _ less
  | inside _ ih =>
      rintro ⟨⟩
      exact ih rfl

/-- What is visited first below a place is visited first behind it. -/
theorem VisitedBefore.behind {p q : List String} (before : VisitedBefore p q) (place : List String) :
    VisitedBefore (place ++ p) (place ++ q) := by
  induction place with
  | nil => exact before
  | cons name place ih => exact .inside ih

/-- Files in the order in which they are visited. -/
def Visited (files : List SourceFile) : Prop := files.Pairwise fun f g => VisitedBefore f.components g.components

/-- What stands below a directory has at least one more name on the way to it. -/
theorem components_of_lists {files : List SourceFile} {name : String} {t : FileTree}
    (lists : (Found.below files).Lists skipped wanted (place ++ [name]) t) (mem : f ∈ files) :
    ∃ next steps, f.components = place ++ name :: next :: steps := by
  obtain ⟨⟨entries, rfl⟩, mem_iff⟩ := lists
  obtain ⟨steps, listed⟩ := (mem_iff f).1 mem
  obtain ⟨next, steps, rfl⟩ := List.exists_cons_of_ne_nil listed.holds.names_ne_nil
  exact ⟨next, steps, by rw [listed.components, List.append_assoc, List.singleton_append]⟩

/-- The wanted file that an entry of a directory is, if it is one. -/
def ownFile? (wanted : List String → Bool) (place : List String) : String × Found → Option SourceFile
  | (name, .file content) => if wanted (place ++ [name]) then some ⟨place ++ [name], content⟩ else none
  | _ => none

/-- The files below an entry of a directory. -/
def deeperFiles (skipped : String → Bool) : String × Found → List SourceFile
  | (name, .below files) => if skipped name then [] else files
  | _ => []

/-- The files of a directory come first, then those further down, each in the order of the names. -/
theorem arrange_eq (found : List (String × Found)) :
    arrange skipped wanted place found =
      (sortedBy Prod.fst found).filterMap (ownFile? wanted place) ++
        (sortedBy Prod.fst found).flatMap (deeperFiles skipped) := rfl

/-- A file of a directory stands at the directory's place and its own name. -/
theorem components_of_ownFile? {e : String × Found} (own : ownFile? wanted place e = some f) :
    f.components = place ++ [e.1] := by
  obtain ⟨name, content | files⟩ := e
  · rw [ownFile?] at own
    split at own
    · cases own
      rfl
    · cases own
  · cases own

theorem found_of_mem_deeperFiles {e : String × Found} (mem : f ∈ deeperFiles skipped e) :
    ∃ files, e.2 = .below files ∧ f ∈ files := by
  obtain ⟨name, content | files⟩ := e
  · cases mem
  · rw [deeperFiles] at mem
    split at mem
    · cases mem
    · exact ⟨files, rfl, mem⟩

/-- Entries with different names, each with its files in order, are arranged in order. -/
theorem arrange_visited {found : List (String × Found)} (names : (found.map (·.1)).Nodup)
    (inner : ∀ name files, (name, Found.below files) ∈ found →
      Visited files ∧ ∀ f ∈ files, ∃ next steps, f.components = place ++ name :: next :: steps) :
    Visited (arrange skipped wanted place found) := by
  have increasing : (sortedBy Prod.fst found).Pairwise fun a b => a.1 < b.1 := sortedBy_increasing _ names
  have deeper : ∀ e ∈ sortedBy Prod.fst found, ∀ f ∈ deeperFiles skipped e,
      ∃ next steps, f.components = place ++ e.1 :: next :: steps := by
    rintro ⟨name, x⟩ mem f memF
    obtain ⟨files, rfl, memFiles⟩ := found_of_mem_deeperFiles memF
    exact (inner name files ((sortedBy_perm _ _).mem_iff.1 mem)).2 f memFiles
  rw [arrange_eq, Visited, List.pairwise_append]
  refine ⟨?_, List.pairwise_flatMap.2 ⟨?_, ?_⟩, ?_⟩
  · refine List.pairwise_filterMap.2 (increasing.imp ?_)
    intro a b less f fromA g fromB
    rw [components_of_ownFile? fromA, components_of_ownFile? fromB]
    exact (VisitedBefore.files less).behind place
  · rintro ⟨name, content | files⟩ mem
    · exact .nil
    · rw [deeperFiles]
      split
      · exact .nil
      · exact (inner name files ((sortedBy_perm _ _).mem_iff.1 mem)).1
  · refine increasing.imp_of_mem ?_
    intro a b memA memB less f fromA g fromB
    obtain ⟨next, steps, componentsF⟩ := deeper a memA f fromA
    obtain ⟨next', steps', componentsG⟩ := deeper b memB g fromB
    rw [componentsF, componentsG]
    exact (VisitedBefore.directories less).behind place
  · -- files against what is further down
    intro f own g below
    obtain ⟨a, _, fromA⟩ := List.mem_filterMap.1 own
    obtain ⟨b, memB, fromB⟩ := List.mem_flatMap.1 below
    obtain ⟨next, steps, componentsG⟩ := deeper b memB g fromB
    rw [components_of_ownFile? fromA, componentsG]
    exact VisitedBefore.fileFirst.behind place

mutual

/-- What is found below a well named tree is in the order of visiting. -/
theorem foundAt_visited (place : List String) : (t : FileTree) → t.wellNamed →
    ∀ files, foundAt skipped wanted place t = .below files → Visited files
  | .file _, _, _, found => by cases found
  | .directory entries, named, _, found => by
    cases found
    apply arrange_visited
    · rw [map_fst_foundAmong]
      exact (names_of_wellNamedAmong named).1
    · intro name files among
      rw [foundAmong_eq_map] at among
      obtain ⟨⟨first, t⟩, entry, same⟩ := List.mem_map.1 among
      obtain ⟨rfl, below⟩ := Prod.mk.inj same
      have lists : (foundAt skipped wanted (place ++ [first]) t).Lists skipped wanted (place ++ [first]) t :=
        foundAt_lists _ t
      rw [below] at lists
      exact ⟨foundAmong_visited place entries named first t entry files below, fun f mem => components_of_lists lists mem⟩

/-- What is found below each of well named entries is in the order of visiting. -/
theorem foundAmong_visited (place : List String) : (entries : List (String × FileTree)) → wellNamedAmong entries →
    ∀ name t, (name, t) ∈ entries → ∀ files, foundAt skipped wanted (place ++ [name]) t = .below files → Visited files
  | [], _, _, _, mem, _, _ => absurd mem List.not_mem_nil
  | (first, u) :: rest, named, name, t, mem, files, found => by
    obtain ⟨_, _, inner, others⟩ := wellNamedAmong_cons.1 named
    rcases List.mem_cons.1 mem with same | further
    · obtain ⟨rfl, rfl⟩ := Prod.mk.inj same
      exact foundAt_visited (place ++ [name]) t inner files found
    · exact foundAmong_visited place rest others name t further files found

end

/-- The sources of a well named tree are in the order of visiting. -/
theorem collectSources_visited {settings : Settings} {rules : List Ignore.Rule} {tree : FileTree}
    (named : tree.wellNamed) : Visited (collectSources settings rules tree) := by
  unfold collectSources FileTree.sources
  split
  next files found => exact foundAt_visited [] tree named files found
  next => exact .nil

/-- A scan of a directory collects exactly the files that it is to collect, each once and in the order in which they are
    visited. -/
theorem collectSources_exactly {settings : Settings} {rules : List Ignore.Rule} {entries : List (String × FileTree)}
    (named : (FileTree.directory entries).wellNamed) :
    (∀ f, f ∈ collectSources settings rules (.directory entries) ↔
      Collected settings rules (.directory entries) f) ∧
    ((collectSources settings rules (.directory entries)).map (·.components)).Nodup ∧
    Visited (collectSources settings rules (.directory entries)) := by
  have visited : Visited (collectSources settings rules (.directory entries)) := collectSources_visited named
  refine ⟨fun f => mem_collectSources_iff, ?_, visited⟩
  exact List.pairwise_map.2 (visited.imp VisitedBefore.irrefl)

/-- A directory with a file that a rule ignores, a directory of the ignored ones, and one with a source file in capital
    letters and another file. -/
def yardEntries : List (String × FileTree) :=
  [("src", .directory [("notes.md", .file ⟨#[]⟩), ("Z.TS", .file ⟨#[0x3B]⟩)]),
   ("dist", .directory [("x.ts", .file ⟨#[]⟩)]), ("b.ts", .file ⟨#[]⟩)]

/-- The rule that ignores the file at the top of `yardEntries`. -/
def yardRules : List Ignore.Rule := [⟨false, .pieces ("b.ts".toList.map .char ++ [.ending])⟩]

/-- In the yard the file in capital letters is collected, but neither the ignored one nor the one in a skipped
    directory. -/
theorem collectSources_exactly_yard :
    (FileTree.directory yardEntries).wellNamed ∧
      ⟨["src", "Z.TS"], ⟨#[0x3B]⟩⟩ ∈ collectSources {} yardRules (.directory yardEntries) ∧
      (∀ content, ⟨["b.ts"], content⟩ ∉ collectSources {} yardRules (.directory yardEntries)) ∧
      (∀ content, ⟨["dist", "x.ts"], content⟩ ∉ collectSources {} yardRules (.directory yardEntries)) ∧
      ((collectSources {} yardRules (.directory yardEntries)).map (·.components)).Nodup ∧
      Visited (collectSources {} yardRules (.directory yardEntries)) := by
  have named : (FileTree.directory yardEntries).wellNamed := by decide +kernel
  obtain ⟨exact, once, visited⟩ := @collectSources_exactly {} yardRules yardEntries named
  refine ⟨named, (exact _).2 ⟨?_, by decide, ⟨"Z.TS", rfl, ".ts", by decide, by decide +kernel⟩, by decide +kernel⟩,
    ?_, ?_, once, visited⟩
  · exact .inside List.mem_cons_self (.inside (List.mem_cons_of_mem _ List.mem_cons_self) .here)
  · intro content mem
    have ignored : Ignore.ignoresPath yardRules "b.ts" = true := by decide +kernel
    exact Bool.false_ne_true (((exact _).1 mem).kept.symm.trans ignored)
  · intro content mem
    exact ((exact _).1 mem).entered "dist" List.mem_cons_self (by decide)

end Outline
