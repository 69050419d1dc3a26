/-
Module: Outline.Proofs.Scan.Sources
Layer: Proofs
Purpose: Which files of a directory a scan collects: those that stand in it, with their content, at the place that their
  components name, have a source ending, are not ignored by a rule and have no ignored directory on the way to them.
Main exports: ListedBelow, foundAt_lists, Collected, mem_collectSources_iff, holds_of_mem_collectSources
-/
import Outline.Proofs.Disk.Places

namespace Outline

variable {skipped : String → Bool} {wanted : List String → Bool} {place : List String} {f : SourceFile}

/-- A wanted file below the directory at a place, with no skipped directory on the way to it. -/
structure ListedBelow (skipped : String → Bool) (wanted : List String → Bool) (place : List String) (t : FileTree)
    (f : SourceFile) (steps : List String) : Prop where
  components : f.components = place ++ steps
  holds : t.Holds steps f.content
  entered : ∀ name ∈ steps.dropLast, skipped name = false
  isWanted : wanted f.components = true

/-- What was found at a place of a tree is the file there, or what is listed below the directory there. -/
def Found.Lists (skipped : String → Bool) (wanted : List String → Bool) (place : List String) (t : FileTree) :
    Found → Prop
  | .file content => t = .file content
  | .below files =>
    (∃ entries, t = .directory entries) ∧ ∀ f, f ∈ files ↔ ∃ steps, ListedBelow skipped wanted place t f steps

/-- A file that an entry of the directory at a place contributes: itself, or one listed below it. -/
inductive ContributedBy (skipped : String → Bool) (wanted : List String → Bool) (place : List String) (name : String)
    (f : SourceFile) : FileTree → Prop where
  | itself (components : f.components = place ++ [name]) (isWanted : wanted f.components = true) :
      ContributedBy skipped wanted place name f (.file f.content)
  | below {entries : List (String × FileTree)} {steps : List String} (entered : skipped name = false)
      (listed : ListedBelow skipped wanted (place ++ [name]) (.directory entries) f steps) :
      ContributedBy skipped wanted place name f (.directory entries)

/-- What is listed below a directory is contributed by its entries. -/
theorem listedBelow_directory_iff {entries : List (String × FileTree)} :
    (∃ steps, ListedBelow skipped wanted place (.directory entries) f steps) ↔
      ∃ name t, (name, t) ∈ entries ∧ ContributedBy skipped wanted place name f t := by
  constructor
  · rintro ⟨steps, components, holds, entered, isWanted⟩
    cases holds with
    | @inside _ name t behind _ entry inner =>
        refine ⟨name, t, entry, ?_⟩
        cases inner with
        | here => exact .itself components isWanted
        | inside entry' inner' =>
            rw [List.dropLast_cons_of_ne_nil (List.cons_ne_nil _ _)] at entered
            obtain ⟨first, others⟩ := List.forall_mem_cons.1 entered
            refine .below first ⟨?_, .inside entry' inner', others, isWanted⟩
            rw [components, List.append_assoc, List.singleton_append]
  · rintro ⟨name, t, entry, contributed⟩
    cases contributed with
    | itself components isWanted =>
        exact ⟨[name], components, .inside entry .here, fun s none => absurd none List.not_mem_nil, isWanted⟩
    | @below _ steps entered listed =>
        refine ⟨name :: steps, ?_, .inside entry listed.holds, ?_, listed.isWanted⟩
        · rw [listed.components, List.append_assoc, List.singleton_append]
        · rw [List.dropLast_cons_of_ne_nil listed.holds.names_ne_nil]
          exact List.forall_mem_cons.2 ⟨entered, listed.entered⟩

/-- The files under an entry are those that the entry contributes. -/
theorem mem_filesUnder_iff {name : String} {t : FileTree} {found : Found}
    (lists : found.Lists skipped wanted (place ++ [name]) t) :
    f ∈ filesUnder skipped wanted place (name, found) ↔ ContributedBy skipped wanted place name f t := by
  cases found with
  | file content =>
      have isFile : t = .file content := lists
      subst isFile
      rw [filesUnder]
      constructor
      · intro mem
        split at mem
        next isWanted =>
          rw [List.mem_singleton.1 mem]
          exact .itself rfl isWanted
        next => cases mem
      · intro contributed
        cases contributed with
        | itself components isWanted =>
            rw [components] at isWanted
            rw [if_pos isWanted, ← components]
            exact List.mem_singleton_self f
  | below files =>
      obtain ⟨⟨entries, isDirectory⟩, mem_iff⟩ := lists
      subst isDirectory
      rw [filesUnder]
      constructor
      · intro mem
        split at mem
        next => cases mem
        next entered =>
          obtain ⟨steps, listed⟩ := (mem_iff f).1 mem
          exact .below (Bool.eq_false_iff.2 entered) listed
      · intro contributed
        cases contributed with
        | below entered listed =>
            rw [entered, if_neg Bool.false_ne_true]
            exact (mem_iff f).2 ⟨_, listed⟩

theorem foundAmong_eq_map (entries : List (String × FileTree)) :
    foundAmong skipped wanted place entries =
      entries.map fun e => (e.1, foundAt skipped wanted (place ++ [e.1]) e.2) := by
  induction entries with
  | nil => rfl
  | cons e rest ih => rw [foundAmong, ih, List.map_cons]

mutual

/-- What is found at a place lists the sources there. -/
theorem foundAt_lists (place : List String) :
    (t : FileTree) → (foundAt skipped wanted place t).Lists skipped wanted place t
  | .file _ => rfl
  | .directory entries => by
    rw [foundAt]
    refine ⟨⟨entries, rfl⟩, ?_⟩
    intro f
    rw [(arrange_perm _).mem_iff, List.mem_flatMap, foundAmong_eq_map, listedBelow_directory_iff]
    constructor
    · rintro ⟨_, among, under⟩
      obtain ⟨⟨name, t⟩, entry, rfl⟩ := List.mem_map.1 among
      exact ⟨name, t, entry, (mem_filesUnder_iff (foundAmong_lists place entries name t entry)).1 under⟩
    · rintro ⟨name, t, entry, contributed⟩
      exact ⟨_, List.mem_map_of_mem entry,
        (mem_filesUnder_iff (foundAmong_lists place entries name t entry)).2 contributed⟩

/-- What is found at each entry lists the sources there. -/
theorem foundAmong_lists (place : List String) : (entries : List (String × FileTree)) → ∀ name t, (name, t) ∈ entries →
    (foundAt skipped wanted (place ++ [name]) t).Lists skipped wanted (place ++ [name]) t
  | [], _, _, mem => absurd mem List.not_mem_nil
  | (first, u) :: rest, name, t, mem => by
    rcases List.mem_cons.1 mem with same | further
    · obtain ⟨rfl, rfl⟩ := Prod.mk.inj same
      exact foundAt_lists (place ++ [name]) t
    · exact foundAmong_lists place rest name t further

end

/-- A file that a scan is to collect: it stands in the directory, no directory on the way to it has an ignored name, its
    name ends with a source ending in lower case, and no rule has the last word to ignore it. -/
structure Collected (settings : Settings) (rules : List Ignore.Rule) (tree : FileTree) (f : SourceFile) : Prop where
  holds : tree.Holds f.components f.content
  entered : ∀ name ∈ f.components.dropLast, name ∉ settings.ignoredDirectories
  isSource : ∃ name, f.components.getLast? = some name ∧
    ∃ ending ∈ settings.sourceExtensions, (Text.lower ending).toList <:+ (Text.lower name).toList
  kept : Ignore.ignoresPath rules f.path = false

/-- A name is that of a source if it ends in one of the endings, in any case. -/
theorem isSourceName_iff {extensions : List String} {name : String} :
    isSourceName extensions name = true ↔
      ∃ ending ∈ extensions, (Text.lower ending).toList <:+ (Text.lower name).toList := by
  simp only [isSourceName, List.any_eq_true, Text.endsWith, List.isSuffixOf_iff_suffix]

/-- The collected files are those that are to be collected. -/
theorem mem_collectSources_iff {settings : Settings} {rules : List Ignore.Rule} {entries : List (String × FileTree)} :
    f ∈ collectSources settings rules (.directory entries) ↔ Collected settings rules (.directory entries) f := by
  have lists : (foundAt settings.ignoredDirectories.contains (isWanted settings rules) [] (.directory entries)).Lists
      settings.ignoredDirectories.contains (isWanted settings rules) [] (.directory entries) := foundAt_lists [] _
  have isWanted_iff : isWanted settings rules f.components = true ↔
      isSourceName settings.sourceExtensions (f.components.getLast?.getD "") = true ∧
        Ignore.ignoresPath rules f.path = false := by
    rw [isWanted, Bool.and_eq_true, Bool.not_eq_true', SourceFile.path]
  rw [foundAt] at lists
  rw [collectSources, FileTree.sources, foundAt, lists.2 f]
  constructor
  · rintro ⟨steps, components, holds, entered, isWanted⟩
    rw [List.nil_append] at components
    subst components
    obtain ⟨source, kept⟩ := isWanted_iff.1 isWanted
    obtain ⟨name, last⟩ := Option.ne_none_iff_exists'.1 (mt List.getLast?_eq_none_iff.1 holds.names_ne_nil)
    rw [last, Option.getD_some, isSourceName_iff] at source
    refine ⟨holds, ?_, ⟨name, last, source⟩, kept⟩
    intro directory mem
    simpa using entered directory mem
  · rintro ⟨holds, entered, ⟨name, last, source⟩, kept⟩
    refine ⟨f.components, rfl, holds, ?_, isWanted_iff.2 ⟨?_, kept⟩⟩
    · intro directory mem
      simpa using entered directory mem
    · rw [last, Option.getD_some]
      exact isSourceName_iff.2 source

/-- A collected file stands in the directory, at the place that its components name. -/
theorem holds_of_mem_collectSources {settings : Settings} {rules : List Ignore.Rule} {tree : FileTree}
    (mem : f ∈ collectSources settings rules tree) : tree.Holds f.components f.content := by
  cases tree with
  | file content => cases mem
  | directory entries => exact (mem_collectSources_iff.1 mem).holds

end Outline
