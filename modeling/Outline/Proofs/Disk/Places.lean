/-
Module: Outline.Proofs.Disk.Places
Layer: Proofs
Purpose: The files of a tree by the names on the way to them, and paths that lead to them. What a path leads to is also
  found under its components counted from the top; put behind the path of a directory, the names on the way from there
  to a file lead to the file.
Main exports: FileTree.Holds, FileTree.Holds.unique, IsEntryName, Leads, Thinned, Trail, Disk.Standard, Disk.pathSteps,
  Disk.trail_of_find?, Disk.find?_absolute, Disk.find?_joinPath, Disk.canonical_joinPath
-/
import Outline.Disk.Probe
import Outline.Proofs.Entries.Keys
import Outline.Proofs.Scan.Paths

namespace Outline

open Text (split joinWith SlashFree)

/-!
### Places of a tree
-/

/-- A file with some content stands at a place, given by the names on the way to it. -/
inductive FileTree.Holds : FileTree → List String → ByteArray → Prop where
  | here {content : ByteArray} : Holds (.file content) [] content
  | inside {entries : List (String × FileTree)} {name : String} {t : FileTree} {steps : List String}
      {content : ByteArray} (entry : (name, t) ∈ entries) (inner : t.Holds steps content) :
      Holds (.directory entries) (name :: steps) content

/-- Under a name of a directory there is one entry. -/
theorem wellNamedAmong_unique {entries : List (String × FileTree)} {name : String} {t t' : FileTree}
    (named : wellNamedAmong entries) (mem : (name, t) ∈ entries) (mem' : (name, t') ∈ entries) : t = t' := by
  induction entries with
  | nil => cases mem
  | cons e rest ih =>
      obtain ⟨_, fresh, _, others⟩ := wellNamedAmong_cons.1 named
      rcases List.mem_cons.1 mem with rfl | among
      · rcases List.mem_cons.1 mem' with same | among'
        · exact (Prod.mk.inj same).2.symm
        · exact absurd (List.mem_map_of_mem (f := Prod.fst) among') fresh
      · rcases List.mem_cons.1 mem' with rfl | among'
        · exact absurd (List.mem_map_of_mem (f := Prod.fst) among) fresh
        · exact ih others among among'

theorem wellNamed_of_mem {entries : List (String × FileTree)} {name : String} {t : FileTree}
    (named : wellNamedAmong entries) (mem : (name, t) ∈ entries) : t.wellNamed := by
  induction entries with
  | nil => cases mem
  | cons e rest ih =>
      obtain ⟨_, _, inner, others⟩ := wellNamedAmong_cons.1 named
      rcases List.mem_cons.1 mem with rfl | mem
      · exact inner
      · exact ih others mem

/-- At the place of a file there is nothing else, and nothing stands below it. -/
theorem FileTree.Holds.unique {tree : FileTree} {place behind : List String} {content content' : ByteArray}
    (named : tree.wellNamed) (holds : tree.Holds place content) (holds' : tree.Holds (place ++ behind) content') :
    behind = [] ∧ content = content' := by
  induction holds with
  | here =>
      cases holds'
      exact ⟨rfl, rfl⟩
  | inside entry inner ih =>
      rw [List.cons_append] at holds'
      cases holds' with
      | inside entry' inner' =>
          cases wellNamedAmong_unique named entry entry'
          exact ih (wellNamed_of_mem named entry) inner'

/-- In a well named directory each entry is found under its name. -/
theorem get?_of_mem {entries : List (String × FileTree)} {name : String} {t : FileTree} (named : wellNamedAmong entries)
    (mem : (name, t) ∈ entries) : Entries.get? entries name = some t := by
  induction entries with
  | nil => cases mem
  | cons e rest ih =>
      obtain ⟨_, fresh, _, others⟩ := wellNamedAmong_cons.1 named
      rw [Entries.get?]
      split
      next same =>
        rcases List.mem_cons.1 mem with rfl | among
        · rfl
        · exact absurd (same ▸ List.mem_map_of_mem (f := Prod.fst) among) fresh
      next differ =>
        rcases List.mem_cons.1 mem with rfl | among
        · exact absurd rfl differ
        · exact ih others among

/-!
### Steps down
-/

/-- A step of a path that goes down, to the entry of that name. -/
def IsEntryName (s : String) : Prop := s ≠ "" ∧ s ≠ "." ∧ s ≠ ".."

instance (s : String) : Decidable (IsEntryName s) := inferInstanceAs (Decidable (_ ∧ _ ∧ _))

mutual

/-- Can every entry of a tree be named in a path? -/
def FileTree.nameable : FileTree → Bool
  | .file _ => true
  | .directory entries => nameableAmong entries

/-- Can each of some entries of a directory, and those below, be named in a path? -/
def nameableAmong : List (String × FileTree) → Bool
  | [] => true
  | (name, t) :: rest => decide (IsEntryName name) && t.nameable && nameableAmong rest

end

/-- In a nameable directory each entry has the name of an entry, and what stands under it is nameable. -/
theorem nameable_of_mem {entries : List (String × FileTree)} {name : String} {t : FileTree}
    (nameable : nameableAmong entries) (mem : (name, t) ∈ entries) : IsEntryName name ∧ t.nameable := by
  induction entries with
  | nil => cases mem
  | cons e rest ih =>
      simp only [nameableAmong, Bool.and_eq_true, decide_eq_true_iff] at nameable
      rcases List.mem_cons.1 mem with rfl | among
      · exact nameable.1
      · exact ih nameable.2 among

/-!
### Single steps
-/

/-- A step from a directory, with the directories around it, and what it leads to. -/
inductive Goes : List FileTree → FileTree → String → List FileTree → FileTree → Prop where
  | stays {above : List FileTree} {entries : List (String × FileTree)} {step : String} (none : step = "" ∨ step = ".") :
      Goes above (.directory entries) step above (.directory entries)
  /-- The top is its own parent. -/
  | top {entries : List (String × FileTree)} : Goes [] (.directory entries) ".." [] (.directory entries)
  | up {parent : FileTree} {above : List FileTree} {entries : List (String × FileTree)} :
      Goes (parent :: above) (.directory entries) ".." above parent
  | down {above : List FileTree} {entries : List (String × FileTree)} {name : String} {t : FileTree}
      (isName : IsEntryName name) (found : Entries.get? entries name = some t) :
      Goes above (.directory entries) name (.directory entries :: above) t

section Steps

variable {above around : List FileTree} {here there t : FileTree} {step : String} {steps : List String}

theorem Goes.descend (goes : Goes above here step around there) (steps : List String) :
    FileTree.descend above here (step :: steps) = FileTree.descend around there steps := by
  cases goes with
  | stays none => simp [FileTree.descend, none]
  | top => simp [FileTree.descend]
  | up => simp [FileTree.descend]
  | down isName found =>
      obtain ⟨some, notDot, notDots⟩ := isName
      simp [FileTree.descend, some, notDot, notDots, found]

/-- A path that leads somewhere begins with a step. -/
theorem exists_goes (led : FileTree.descend above here (step :: steps) = some t) :
    ∃ around there, Goes above here step around there := by
  cases here with
  | file content => cases led
  | directory entries =>
      simp only [FileTree.descend] at led
      split at led
      next none => exact ⟨above, _, .stays (by simpa using none)⟩
      next some =>
        split at led
        next up =>
          subst up
          cases above with
          | nil => exact ⟨[], _, .top⟩
          | cons parent above => exact ⟨above, parent, .up⟩
        next notUp =>
          cases found : Entries.get? entries step with
          | none =>
              rw [found] at led
              cases led
          | some next =>
              simp only [Bool.or_eq_true, decide_eq_true_iff, not_or] at some
              exact ⟨_, next, .down ⟨some.1, some.2, notUp⟩ found⟩

theorem exists_directory_of_descend {entries : List (String × FileTree)}
    (led : FileTree.descend above here steps = some (.directory entries)) : ∃ tops, here = .directory tops := by
  cases here with
  | directory tops => exact ⟨tops, rfl⟩
  | file content => cases steps <;> cases led

/-- The single steps of a path, one after the other. -/
inductive Leads : List FileTree → FileTree → List String → List FileTree → FileTree → Prop where
  | here {above : List FileTree} {here : FileTree} : Leads above here [] above here
  | step {above between around : List FileTree} {here next there : FileTree} {step : String} {steps : List String}
      (goes : Goes above here step between next) (further : Leads between next steps around there) :
      Leads above here (step :: steps) around there

/-- A path that leads somewhere leads there by single steps. -/
theorem exists_leads (led : FileTree.descend above here steps = some t) : ∃ around, Leads above here steps around t := by
  induction steps generalizing above here with
  | nil =>
      cases led
      exact ⟨above, .here⟩
  | cons step steps ih =>
      obtain ⟨between, next, goes⟩ := exists_goes led
      rw [goes.descend] at led
      obtain ⟨around, further⟩ := ih led
      exact ⟨around, .step goes further⟩

/-- A path goes on from where its first steps lead. -/
theorem Leads.descend (leads : Leads above here steps around there) (further : List String) :
    FileTree.descend above here (steps ++ further) = FileTree.descend around there further := by
  induction leads with
  | here => rfl
  | step goes _ ih => exact (goes.descend _).trans ih

/-- A list without some of its empty elements, none of which was the last. -/
inductive Thinned {α : Type} (empty : α) : List α → List α → Prop where
  | nil : Thinned empty [] []
  | keep {s : α} {xs ys : List α} (rest : Thinned empty xs ys) : Thinned empty (s :: xs) (s :: ys)
  | drop {xs ys : List α} (some : xs ≠ []) (rest : Thinned empty xs ys) : Thinned empty (empty :: xs) ys

theorem Thinned.refl {α : Type} {empty : α} (xs : List α) : Thinned empty xs xs := by
  induction xs with
  | nil => exact .nil
  | cons x xs ih => exact .keep ih

theorem Thinned.ne_nil {α : Type} {empty : α} {xs ys : List α} (thinned : Thinned empty xs ys) (some : xs ≠ []) :
    ys ≠ [] := by
  induction thinned with
  | nil => exact some
  | keep => exact List.cons_ne_nil _ _
  | drop some' _ ih => exact ih some'

theorem Thinned.behind {α : Type} {empty : α} {xs ys : List α} (thinned : Thinned empty xs ys) (front : List α) :
    Thinned empty (front ++ xs) (front ++ ys) := by
  induction front with
  | nil => exact thinned
  | cons x front ih => exact .keep ih

/-- Empty steps can be left out, but for one at the end, which only a directory has. -/
theorem Thinned.descend {xs ys : List String} (thinned : Thinned "" xs ys) :
    FileTree.descend above here xs = FileTree.descend above here ys := by
  induction thinned generalizing above here with
  | nil => rfl
  | @keep step xs ys _ ih =>
      cases led : FileTree.descend above here (step :: xs) with
      | some t =>
          obtain ⟨around, there, goes⟩ := exists_goes led
          rw [← led, goes.descend, goes.descend, ih]
      | none =>
          cases led' : FileTree.descend above here (step :: ys) with
          | none => rfl
          | some t =>
              obtain ⟨around, there, goes⟩ := exists_goes led'
              rw [← led, ← led', goes.descend, goes.descend, ih]
  | drop some thin ih =>
      cases here with
      | directory entries => exact ((Goes.stays (.inl rfl)).descend _).trans ih
      | file content =>
          -- below a file there is nothing, and something is left to look for
          obtain ⟨s, ys, rfl⟩ := List.exists_cons_of_ne_nil (thin.ne_nil some)
          rfl

/-- Empty steps count for nothing when no disk is looked at. -/
theorem Thinned.foldl_step {xs ys names : List String} (thinned : Thinned "" xs ys) :
    xs.foldl Disk.step names = ys.foldl Disk.step names := by
  induction thinned generalizing names with
  | nil => rfl
  | keep _ ih => exact ih
  | drop _ _ ih => exact ih

/-- A directory holds its files under at least one name. -/
theorem FileTree.Holds.names_ne_nil {entries : List (String × FileTree)} {content : ByteArray}
    (holds : (FileTree.directory entries).Holds steps content) : steps ≠ [] := by
  rintro rfl
  cases holds

/-- The names on the way to a file in a well named directory have no slashes. -/
theorem FileTree.Holds.slashFree {content : ByteArray} (holds : here.Holds steps content) (named : here.wellNamed) :
    SlashFree steps := by
  induction holds with
  | here => exact fun s none => absurd none List.not_mem_nil
  | inside entry inner ih =>
      intro s mem
      rcases List.mem_cons.1 mem with rfl | further
      · exact (names_of_wellNamedAmong named).2 s (List.mem_map_of_mem (f := Prod.fst) entry)
      · exact ih (wellNamed_of_mem named entry) s further

/-- The names on the way to a file in a nameable directory are names of entries. -/
theorem FileTree.Holds.isEntryName {content : ByteArray} (holds : here.Holds steps content) (nameable : here.nameable) :
    ∀ s ∈ steps, IsEntryName s := by
  induction holds with
  | here => exact fun s none => absurd none List.not_mem_nil
  | inside entry inner ih =>
      obtain ⟨isName, below⟩ := nameable_of_mem nameable entry
      exact List.forall_mem_cons.2 ⟨isName, ih below⟩

/-- The names on the way to a file lead to it. -/
theorem FileTree.Holds.descend {content : ByteArray} (holds : here.Holds steps content) (named : here.wellNamed)
    (nameable : here.nameable) (above : List FileTree) : FileTree.descend above here steps = some (.file content) := by
  induction holds generalizing above with
  | here => rfl
  | @inside entries name t steps content entry inner ih =>
      obtain ⟨isName, below⟩ := nameable_of_mem nameable entry
      have goes : Goes above (.directory entries) name (.directory entries :: above) t :=
        .down isName (get?_of_mem named entry)
      rw [goes.descend]
      exact ih (wellNamed_of_mem named entry) below _

end Steps

/-!
### Whole paths
-/

/-- Names that lead from the top of a tree straight down, with the directories passed on the way, the last first. -/
inductive Trail (root : FileTree) : List String → List FileTree → FileTree → Prop where
  | top : Trail root [] [] root
  | down {names : List String} {above : List FileTree} {entries : List (String × FileTree)} {name : String}
      {t : FileTree} (trail : Trail root names above (.directory entries)) (isName : IsEntryName name)
      (found : Entries.get? entries name = some t) :
      Trail root (names ++ [name]) (.directory entries :: above) t

section Trails

variable {root here there t : FileTree} {names steps : List String} {above around : List FileTree} {step : String}

/-- The names of a trail are a path to its end. -/
theorem Trail.descend (trail : Trail root names above here) (steps : List String) :
    FileTree.descend [] root (names ++ steps) = FileTree.descend above here steps := by
  induction trail generalizing steps with
  | top => rfl
  | down _ isName found ih =>
      rw [List.append_assoc, ih]
      exact (Goes.down isName found).descend steps

/-- The components of a path, taken into account without looking at the disk, keep to where the path leads. -/
theorem Trail.goes (trail : Trail root names above here) (goes : Goes above here step around there) :
    Trail root (Disk.step names step) around there := by
  cases goes with
  | stays none =>
      have unchanged : Disk.step names step = names := by simp [Disk.step, none]
      rwa [unchanged]
  | top =>
      cases trail
      exact .top
  | up =>
      cases trail with
      | @down names _ _ name _ trail isName found =>
          have back : Disk.step (names ++ [name]) ".." = names := by simp [Disk.step]
          rwa [back]
  | down isName found =>
      obtain ⟨some, notDot, notDots⟩ := isName
      have down : Disk.step names step = names ++ [step] := by simp [Disk.step, some, notDot, notDots]
      rw [down]
      exact trail.down ⟨some, notDot, notDots⟩ found

theorem Trail.leads (trail : Trail root names above here) (leads : Leads above here steps around there) :
    Trail root (steps.foldl Disk.step names) around there := by
  induction leads generalizing names with
  | here => exact trail
  | step goes _ ih => exact ih (trail.goes goes)

/-- At the end of a trail in a well named tree the tree is well named. -/
theorem Trail.wellNamed (trail : Trail root names above here) (named : root.wellNamed) : here.wellNamed := by
  induction trail with
  | top => exact named
  | down _ _ found ih => exact wellNamed_of_mem ih (Entries.mem_of_get? found)

/-- At the end of a trail in a nameable tree the tree is nameable. -/
theorem Trail.nameable (trail : Trail root names above here) (nameable : root.nameable) : here.nameable := by
  induction trail with
  | top => exact nameable
  | down _ _ found ih => exact (nameable_of_mem ih (Entries.mem_of_get? found)).2

/-- Names that only go down are put behind each other. -/
theorem foldl_step_of_names (down : ∀ s ∈ steps, IsEntryName s) (names : List String) :
    steps.foldl Disk.step names = names ++ steps := by
  induction steps generalizing names with
  | nil => exact (List.append_nil names).symm
  | cons s steps ih =>
      obtain ⟨⟨some, notDot, notDots⟩, others⟩ := List.forall_mem_cons.1 down
      have first : Disk.step names s = names ++ [s] := by simp [Disk.step, some, notDot, notDots]
      rw [List.foldl_cons, first, ih others, List.append_assoc, List.singleton_append]

theorem mem_foldl_step {s : String} (mem : s ∈ steps.foldl Disk.step names) : s ∈ names ∨ s ∈ steps := by
  induction steps generalizing names with
  | nil => exact .inl mem
  | cons step steps ih =>
      rcases ih mem with before | after
      · unfold Disk.step at before
        split at before
        · exact .inl before
        · split at before
          · exact .inl (List.dropLast_subset names before)
          · rcases List.mem_append.1 before with old | new
            · exact .inl old
            · exact .inr (List.mem_singleton.1 new ▸ List.mem_cons_self)
      · exact .inr (List.mem_cons_of_mem step after)

end Trails

namespace Disk

/-- What every disk satisfies: different entries of a directory have different names, each is one that a path can name,
    and the working directory is given by such names. -/
structure Standard (d : Disk) : Prop where
  named : d.root.wellNamed
  nameable : d.root.nameable
  cwdNames : ∀ s ∈ d.cwd, IsEntryName s
  cwdFree : SlashFree d.cwd

variable {d : Disk} {path directory : String} {t : FileTree} {names steps : List String} {above : List FileTree}

/-- The steps of a path, from the top. -/
def pathSteps (d : Disk) (path : String) : List String :=
  if isAbsolute path then split '/' path else d.cwd ++ split '/' path

/-- A path that is not empty is found by taking its steps from the root. -/
theorem find?_eq_descend {path : String} (some : path ≠ "") :
    d.find? path = FileTree.descend [] d.root (d.pathSteps path) := by
  rw [find?, if_neg some, pathSteps]

/-- The components of a path counted from the top are what is left of its steps. -/
theorem canonical_eq_foldl (standard : d.Standard) (path : String) :
    d.canonical path = (d.pathSteps path).foldl step [] := by
  unfold canonical pathSteps
  split
  next => rfl
  next => rw [List.foldl_append, foldl_step_of_names standard.cwdNames, List.nil_append]

/-- What a path leads to is found under its components counted from the top. -/
theorem trail_of_find? (standard : d.Standard) (found : d.find? path = some t) :
    ∃ above, Trail d.root (d.canonical path) above t := by
  have some : path ≠ "" := by
    rintro rfl
    cases found
  rw [find?_eq_descend some] at found
  obtain ⟨around, leads⟩ := exists_leads found
  rw [canonical_eq_foldl standard]
  exact ⟨around, Trail.top.leads leads⟩

theorem slashFree_canonical (standard : d.Standard) (path : String) : SlashFree (d.canonical path) := by
  intro s mem
  rcases mem_foldl_step mem with start | component
  · split at start
    · cases start
    · exact standard.cwdFree s start
  · exact Text.slashFree_split path s component

theorem split_absolute (names : List String) : split '/' (absolute names) = "" :: split '/' (joinWith "/" names) := by
  have front : absolute names = "" ++ "/" ++ joinWith "/" names := by rw [absolute, String.empty_append]
  rw [front, Text.split_append]
  rfl

/-- An absolute path is found from the root, whatever the current directory is. -/
theorem find?_eq_of_absolute {path : String} (absolute : isAbsolute path) :
    d.find? path = FileTree.descend [] d.root (split '/' path) := by
  have some : path ≠ "" := by
    rintro rfl
    exact absurd absolute (by decide)
  rw [find?_eq_descend some, pathSteps, if_pos absolute]

/-- The directory at the end of a trail is found under its names, written as a path. -/
theorem find?_absolute {entries : List (String × FileTree)} (trail : Trail d.root names above (.directory entries))
    (free : SlashFree names) : d.find? (absolute names) = some (.directory entries) := by
  have isPath : isAbsolute (absolute names) := by simp [isAbsolute, absolute, Text.startsWith]
  have led : FileTree.descend [] d.root names = some (.directory entries) := by
    have whole := trail.descend []
    rwa [List.append_nil] at whole
  obtain ⟨tops, isTop⟩ := exists_directory_of_descend led
  have stays : ∀ steps, FileTree.descend [] d.root ("" :: steps) = FileTree.descend [] d.root steps := by
    rw [isTop]
    exact (Goes.stays (.inl rfl)).descend
  rw [find?_eq_of_absolute isPath, split_absolute, stays]
  by_cases none : names = []
  · subst none
    exact (stays []).trans led
  · rw [Text.split_joinWith none free]
    exact led

/-!
### Paths below a directory
-/

/-- A path put behind that of a directory has the components of both, but for an empty one in between. -/
theorem thinned_joinPath (directory path : String) :
    Thinned "" (split '/' directory ++ split '/' path) (split '/' (joinPath directory path)) := by
  unfold joinPath
  split
  next slash =>
    obtain ⟨front, rfl⟩ := Text.endsWith_iff_exists.1 slash
    have closed : split '/' (front ++ "/") = split '/' front ++ [""] := by
      have whole := Text.split_append front ""
      rwa [String.append_empty] at whole
    rw [closed, Text.split_append, List.append_assoc]
    exact (Thinned.drop (Text.split_ne_nil path) (.refl _)).behind _
  next =>
    rw [Text.split_append]
    exact .refl _

/-- A joined path is absolute if the directory is, and is never empty. -/
theorem isAbsolute_joinPath (some : directory ≠ "") (path : String) :
    isAbsolute (joinPath directory path) = isAbsolute directory ∧ joinPath directory path ≠ "" := by
  obtain ⟨c, cs, chars⟩ := List.exists_cons_of_ne_nil (mt String.toList_eq_nil_iff.1 some)
  obtain ⟨behind, whole⟩ : ∃ behind, (joinPath directory path).toList = c :: behind := by
    unfold joinPath
    split
    · exact ⟨_, by rw [String.toList_append, chars]; rfl⟩
    · exact ⟨_, by rw [String.toList_append, String.toList_append, chars]; rfl⟩
  constructor
  · simp only [isAbsolute, Text.startsWith, whole, chars]
    rfl
  · intro empty
    rw [empty] at whole
    cases whole

variable {entries : List (String × FileTree)} {content : ByteArray}

/-- The steps of a joined path are those of the directory and then those of the path, but for empty pieces. -/
theorem thinned_pathSteps (some : directory ≠ "") (path : String) :
    Thinned "" (d.pathSteps directory ++ split '/' path) (d.pathSteps (joinPath directory path)) := by
  unfold pathSteps
  rw [(isAbsolute_joinPath some path).1]
  split
  next => exact thinned_joinPath directory path
  next =>
    rw [List.append_assoc]
    exact (thinned_joinPath directory path).behind d.cwd

/-- The names on the way from a directory to a file, put behind a path of the directory, lead to the file. -/
theorem find?_joinPath (standard : d.Standard) (found : d.find? directory = some (.directory entries))
    (holds : (FileTree.directory entries).Holds names content) :
    d.find? (joinPath directory (joinWith "/" names)) = some (.file content) := by
  obtain ⟨above, trail⟩ := trail_of_find? standard found
  have named : (FileTree.directory entries).wellNamed := trail.wellNamed standard.named
  have nameable : (FileTree.directory entries).nameable := trail.nameable standard.nameable
  have some : directory ≠ "" := by
    rintro rfl
    cases found
  have thinned := thinned_pathSteps (d := d) some (joinWith "/" names)
  rw [Text.split_joinWith holds.names_ne_nil (holds.slashFree named)] at thinned
  rw [find?_eq_descend some] at found
  obtain ⟨around, leads⟩ := exists_leads found
  rw [find?_eq_descend (isAbsolute_joinPath some _).2, ← thinned.descend, leads.descend]
  exact holds.descend named nameable around

/-- Joining names of entries to a directory adds them to its canonical path. -/
theorem canonical_joinPath (some : directory ≠ "") (someNames : names ≠ []) (free : SlashFree names)
    (down : ∀ s ∈ names, IsEntryName s) :
    d.canonical (joinPath directory (joinWith "/" names)) = d.canonical directory ++ names := by
  have thinned := thinned_joinPath directory (joinWith "/" names)
  rw [Text.split_joinWith someNames free] at thinned
  rw [canonical, canonical, (isAbsolute_joinPath some (joinWith "/" names)).1, ← thinned.foldl_step, List.foldl_append,
    foldl_step_of_names down]

end Disk

end Outline
