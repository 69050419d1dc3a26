/-
Module: Outline.Proofs.Scan.IgnoreFiles
Layer: Proofs
Purpose: Which ignore files a scan reads, and in what order: those at every place of the tree that no skipped directory
  is passed on the way to, each once, in the lexicographic order of the components of their paths. The name of an
  ignore file takes part in this order like the name of a directory.
Main exports: IgnoreFile.place, mem_ignoreFiles, componentsLe_iff, ignoreFiles_increasing
-/
import Outline.Proofs.Disk.Places

namespace Outline

open Ignore (IgnoreFile)

/-!
### Files found
-/

/-- The names on the way to an ignore file, with its own. -/
def Ignore.IgnoreFile.place (f : IgnoreFile) : List String := f.directory ++ [".gitignore"]

section Found

variable {skipped : String → Bool} {f : IgnoreFile}

/-- An ignore file stands in a tree, which is at a place, and no skipped directory leads to it. -/
def IsReached (skipped : String → Bool) (directory : List String) (tree : FileTree) (f : IgnoreFile) : Prop :=
  ∃ steps, f.directory = directory ++ steps ∧ tree.Holds (steps ++ [".gitignore"]) f.content ∧
    ∀ step ∈ steps, skipped step = false

variable {directory : List String} {name : String} {t : FileTree} {rest : List (String × FileTree)}

/-- At no distance a tree holds itself, if it is a file. -/
theorem holds_nil_iff {content : ByteArray} : t.Holds [] content ↔ t = .file content := by
  constructor
  · intro holds
    cases holds
    rfl
  · rintro rfl
    exact .here

/-- A directory holds what its first entry holds under its name, and what the other entries hold. -/
theorem holds_cons_iff {place : String} {steps : List String} {content : ByteArray} :
    (FileTree.directory ((name, t) :: rest)).Holds (place :: steps) content ↔
      (place = name ∧ t.Holds steps content) ∨ (FileTree.directory rest).Holds (place :: steps) content := by
  constructor
  · intro holds
    cases holds with
    | inside entry inner =>
        rcases List.mem_cons.1 entry with same | further
        · obtain ⟨rfl, rfl⟩ := Prod.mk.inj same
          exact .inl ⟨rfl, inner⟩
        · exact .inr (.inside further inner)
  · rintro (⟨rfl, inner⟩ | holds)
    · exact .inside List.mem_cons_self inner
    · cases holds with
      | inside entry inner => exact .inside (List.mem_cons_of_mem _ entry) inner

/-- An entry is an ignore file if it has the name of one and is a file. -/
theorem mem_ignoreFile? : f ∈ ignoreFile? directory name t ↔
    name = ".gitignore" ∧ t = .file f.content ∧ f.directory = directory := by
  obtain ⟨place, content'⟩ := f
  cases t with
  | directory entries => simp [ignoreFile?]
  | file content =>
      by_cases named : name = ".gitignore"
      · simp [ignoreFile?, named, and_comm, eq_comm]
      · simp [ignoreFile?, named]

/-- A file of a directory is the first entry, or stands below it, or belongs to the other entries. -/
theorem isReached_cons : IsReached skipped directory (.directory ((name, t) :: rest)) f ↔
    (f ∈ ignoreFile? directory name t ∨ skipped name = false ∧ IsReached skipped (directory ++ [name]) t f) ∨
      IsReached skipped directory (.directory rest) f := by
  constructor
  · rintro ⟨steps, place, holds, unskipped⟩
    cases steps with
    | nil =>
        rcases holds_cons_iff.1 holds with ⟨named, inner⟩ | holds
        · rw [List.append_nil] at place
          exact .inl (.inl (mem_ignoreFile?.2 ⟨named.symm, holds_nil_iff.1 inner, place⟩))
        · exact .inr ⟨[], place, holds, unskipped⟩
    | cons step steps =>
        rcases holds_cons_iff.1 holds with ⟨rfl, inner⟩ | holds
        · obtain ⟨first, unskipped⟩ := List.forall_mem_cons.1 unskipped
          refine .inl (.inr ⟨first, steps, ?_, inner, unskipped⟩)
          rw [place, List.append_assoc, List.singleton_append]
        · exact .inr ⟨step :: steps, place, holds, unskipped⟩
  · rintro ((own | ⟨first, steps, place, holds, unskipped⟩) | ⟨steps, place, holds, unskipped⟩)
    · obtain ⟨rfl, rfl, place⟩ := mem_ignoreFile?.1 own
      refine ⟨[], ?_, holds_cons_iff.2 (.inl ⟨rfl, .here⟩), fun step none => absurd none List.not_mem_nil⟩
      rw [place, List.append_nil]
    · refine ⟨name :: steps, ?_, holds_cons_iff.2 (.inl ⟨rfl, holds⟩), List.forall_mem_cons.2 ⟨first, unskipped⟩⟩
      rw [place, List.append_assoc, List.singleton_append]
    · refine ⟨steps, place, ?_, unskipped⟩
      cases steps with
      | nil => exact holds_cons_iff.2 (.inr holds)
      | cons step steps => exact holds_cons_iff.2 (.inr holds)

mutual

/-- The ignore files found in a tree are those that are reached in it. -/
theorem mem_ignoreFilesIn (directory : List String) : (t : FileTree) →
    (f ∈ ignoreFilesIn skipped directory t ↔ IsReached skipped directory t f)
  | .file content => by
    rw [ignoreFilesIn]
    constructor
    · exact fun none => absurd none List.not_mem_nil
    · rintro ⟨steps, _, holds, _⟩
      cases steps <;> cases holds
  | .directory entries => by
    rw [ignoreFilesIn]
    exact mem_ignoreFilesAmong directory entries

/-- The ignore files found among entries are those that are reached among them. -/
theorem mem_ignoreFilesAmong (directory : List String) : (entries : List (String × FileTree)) →
    (f ∈ ignoreFilesAmong skipped directory entries ↔ IsReached skipped directory (.directory entries) f)
  | [] => by
    rw [ignoreFilesAmong]
    constructor
    · exact fun none => absurd none List.not_mem_nil
    · rintro ⟨steps, _, holds, _⟩
      generalize steps ++ [".gitignore"] = place at holds
      cases holds with
      | inside entry _ => cases entry
  | (name, t) :: rest => by
    rw [ignoreFilesAmong, isReached_cons, List.mem_append, List.mem_append, mem_ignoreFilesAmong directory rest]
    apply or_congr_left
    apply or_congr_right
    split
    next skips => simp [skips]
    next passes => simp [passes, mem_ignoreFilesIn (directory ++ [name]) t]

end

/-- The ignore files that a scan reads: those that stand in the tree where no skipped directory leads to them. -/
theorem mem_ignoreFiles {tree : FileTree} : f ∈ ignoreFiles skipped tree ↔
    tree.Holds f.place f.content ∧ ∀ part ∈ f.directory, skipped part = false := by
  rw [ignoreFiles, List.mem_mergeSort, mem_ignoreFilesIn]
  constructor
  · rintro ⟨steps, place, holds, unskipped⟩
    rw [List.nil_append] at place
    rw [Ignore.IgnoreFile.place, place]
    exact ⟨holds, unskipped⟩
  · rintro ⟨holds, unskipped⟩
    exact ⟨f.directory, rfl, holds, unskipped⟩

/-- The ignore files of the first entry come before those of the others. -/
theorem ignoreFilesAmong_cons (directory : List String) (e : String × FileTree) (rest : List (String × FileTree)) :
    ignoreFilesAmong skipped directory (e :: rest) =
      ignoreFilesAmong skipped directory [e] ++ ignoreFilesAmong skipped directory rest := by
  simp only [ignoreFilesAmong, List.append_nil]

/-- What the entries of a directory contribute lies under their names. -/
theorem place_of_mem_ignoreFilesAmong {entries : List (String × FileTree)}
    (mem : f ∈ ignoreFilesAmong skipped directory entries) :
    ∃ name ∈ entries.map (·.1), ∃ steps, f.place = directory ++ name :: steps := by
  obtain ⟨steps, place, holds, _⟩ := (mem_ignoreFilesAmong directory entries).1 mem
  have whole : f.place = directory ++ (steps ++ [".gitignore"]) := by
    rw [Ignore.IgnoreFile.place, place, List.append_assoc]
  rw [whole]
  generalize steps ++ [".gitignore"] = further at holds
  cases holds with
  | inside entry inner => exact ⟨_, List.mem_map_of_mem entry, _, rfl⟩

mutual

/-- In a well named tree no two ignore files have one place. -/
theorem ignoreFilesIn_places_nodup (directory : List String) : (t : FileTree) → t.wellNamed →
    ((ignoreFilesIn skipped directory t).map (·.place)).Nodup
  | .file _, _ => List.nodup_nil
  | .directory entries, named => ignoreFilesAmong_places_nodup directory entries named

/-- Among well named entries no two ignore files have one place. -/
theorem ignoreFilesAmong_places_nodup (directory : List String) : (entries : List (String × FileTree)) →
    wellNamedAmong entries → ((ignoreFilesAmong skipped directory entries).map (·.place)).Nodup
  | [], _ => List.nodup_nil
  | (name, t) :: rest, named => by
    obtain ⟨_, fresh, inner, others⟩ := wellNamedAmong_cons.1 named
    have further := ignoreFilesAmong_places_nodup directory rest others
    have first : ((ignoreFilesAmong skipped directory [(name, t)]).map (·.place)).Nodup := by
      cases t with
      | file content =>
          simp only [ignoreFilesAmong, ignoreFile?, ignoreFilesIn, ite_self, List.append_nil]
          split
          · exact List.nodup_singleton _
          · exact List.nodup_nil
      | directory entries =>
          have below := ignoreFilesIn_places_nodup (directory ++ [name]) (.directory entries) inner
          simp only [ignoreFilesAmong, ignoreFile?, List.append_nil, List.nil_append]
          split
          · exact List.nodup_nil
          · exact below
    rw [ignoreFilesAmong_cons, List.map_append, List.nodup_append]
    refine ⟨first, further, ?_⟩
    -- the names of the two entries come right behind the directory
    intro p among q among' same
    obtain ⟨f, mem, rfl⟩ := List.mem_map.1 among
    obtain ⟨g, mem', rfl⟩ := List.mem_map.1 among'
    obtain ⟨here, isHere, steps, place⟩ := place_of_mem_ignoreFilesAmong mem
    obtain ⟨there, isThere, steps', place'⟩ := place_of_mem_ignoreFilesAmong mem'
    rw [place, place'] at same
    have names := (List.cons.inj (List.append_cancel_left same)).1
    rw [← names, List.mem_singleton.1 isHere] at isThere
    exact fresh isThere

end

end Found

/-!
### The order
-/

section Order

variable {p q r : List String}

/-- The components are compared lexicographically. -/
theorem componentsLe_iff : componentsLe p q = true ↔ p = q ∨ List.Lex (· < ·) p q := by
  induction p generalizing q with
  | nil => cases q <;> simp [componentsLe]
  | cons a p ih =>
      cases q with
      | nil => simp [componentsLe]
      | cons b q =>
          rw [componentsLe, List.cons.injEq, List.cons_lex_cons_iff]
          split
          next same => simp [ih, same]
          next differ => simp [differ]

theorem componentsLe_trans (first : componentsLe p q = true) (second : componentsLe q r = true) :
    componentsLe p r = true := by
  rw [componentsLe_iff] at first second ⊢
  rcases first with rfl | first
  · exact second
  · rcases second with rfl | second
    · exact .inr first
    · exact .inr (List.lex_trans String.lt_trans first second)

/-- Any two paths are in order, one way or the other. -/
theorem componentsLe_total (p q : List String) : (componentsLe p q || componentsLe q p) = true := by
  induction p generalizing q with
  | nil => rfl
  | cons a p ih =>
      cases q with
      | nil => rfl
      | cons b q =>
          rw [componentsLe, componentsLe, Bool.or_eq_true]
          by_cases same : a = b
          · rw [if_pos same, if_pos same.symm]
            exact Bool.or_eq_true _ _ ▸ ih q
          · rw [if_neg same, if_neg (Ne.symm same), decide_eq_true_iff, decide_eq_true_iff]
            apply Classical.byContradiction
            rw [not_or, String.not_lt, String.not_lt]
            exact fun both => same (String.le_antisymm both.2 both.1)

/-- Behind a common beginning the rest decides. -/
theorem lex_append_left_iff (common : List String) :
    List.Lex (· < ·) (common ++ p) (common ++ q) ↔ List.Lex (· < ·) p q := by
  induction common with
  | nil => rfl
  | cons a common ih =>
      rw [List.cons_append, List.cons_append, List.cons_lex_cons_iff, ih]
      simp

/-- One ignore file after the other, each at a later place. -/
def Increasing (files : List IgnoreFile) : Prop := files.Pairwise fun f g => List.Lex (· < ·) f.place g.place

/-- The ignore files of a tree come in the order of their paths. -/
theorem ignoreFiles_increasing {skipped : String → Bool} {tree : FileTree} (named : tree.wellNamed) :
    Increasing (ignoreFiles skipped tree) := by
  have ordered : (ignoreFiles skipped tree).Pairwise fun f g => componentsLe f.place g.place = true := by
    apply List.pairwise_mergeSort
    · exact fun f g h => componentsLe_trans
    · exact fun f g => componentsLe_total f.place g.place
  have perm : (ignoreFiles skipped tree).Perm (ignoreFilesIn skipped [] tree) := List.mergeSort_perm _ _
  have apart : (ignoreFiles skipped tree).Pairwise fun f g => f.place ≠ g.place :=
    List.pairwise_map.1 ((perm.map IgnoreFile.place).nodup_iff.2 (ignoreFilesIn_places_nodup [] tree named))
  apply (ordered.and apart).imp
  rintro f g ⟨le, differ⟩
  exact (componentsLe_iff.1 le).resolve_left differ

/-- Of two files that come one after the other the first is the one with the smaller place. -/
theorem Increasing.sublist_iff {files : List IgnoreFile} (increasing : Increasing files) {f g : IgnoreFile}
    (mem : f ∈ files) (mem' : g ∈ files) : [f, g].Sublist files ↔ List.Lex (· < ·) f.place g.place := by
  constructor
  · intro before
    exact List.pairwise_iff_forall_sublist.1 increasing before
  · intro less
    unfold Increasing at increasing
    induction files with
    | nil => cases mem
    | cons h files ih =>
        obtain ⟨least, increasing⟩ := List.pairwise_cons.1 increasing
        rcases List.mem_cons.1 mem with rfl | memTail
        · rcases List.mem_cons.1 mem' with rfl | memTail'
          · exact absurd less (List.lex_irrefl String.lt_irrefl _)
          · exact (List.singleton_sublist.2 memTail').cons_cons f
        · rcases List.mem_cons.1 mem' with rfl | memTail'
          · have around : List.Lex (· < ·) f.place f.place :=
              List.lex_trans String.lt_trans less (least f memTail)
            exact absurd around (List.lex_irrefl String.lt_irrefl _)
          · exact (ih increasing memTail memTail').cons h

end Order

end Outline
