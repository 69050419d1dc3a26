/-
Module: Outline.Proofs.Disk.Probes
Layer: Proofs
Purpose: The two probes that look at the disk. Slashes in front of a path, doubled ones and halved ones lead to the same
  place, so the command finds what a look at the disk finds, as long as the path of the workspace means the same in the
  workspace as outside. A workspace given relative to the working directory is taken relative to itself by the command,
  which runs inside, so the command looks below the workspace for its path once more. Over a zero character the command
  breaks off.
Main exports: thinned_halved, Disk.find?_target, Disk.entered, Disk.fromInside, Disk.find?_entered,
  commandProbe_testFile, commandProbe_eq, makeProbe_eq_interrupted_iff, KeptInside, makeProbe_agree
-/
import Outline.Proofs.Disk.Places

namespace Outline

open Specifier (Interruption)
open Text (split splitOn)

/-!
### Slashes
-/

theorem Thinned.map {α β : Type} {empty : α} {xs ys : List α} (thinned : Thinned empty xs ys) (f : α → β) :
    Thinned (f empty) (xs.map f) (ys.map f) := by
  induction thinned with
  | nil => exact .nil
  | keep _ ih => exact .keep ih
  | drop some _ ih => exact .drop (mt List.map_eq_nil_iff.1 some) ih

/-- Slashes in front of a text give empty pieces. -/
theorem thinned_splitOn_dropWhile (cs : List Char) :
    Thinned [] (splitOn '/' cs) (splitOn '/' (cs.dropWhile (· = '/'))) := by
  induction cs with
  | nil => exact .refl _
  | cons c cs ih =>
      by_cases slash : c = '/'
      · rw [splitOn, if_pos slash, List.dropWhile_cons_of_pos (by simpa using slash)]
        exact .drop (Text.splitOn_ne_nil cs) ih
      · rw [List.dropWhile_cons_of_neg (by simpa using slash)]
        exact .refl _

/-- Of the pieces of a text, the first is kept when slashes are halved, and some empty ones among the others are left
    out. -/
theorem splitOn_halveSlashes (cs : List Char) : ∃ piece ps qs,
    splitOn '/' cs = piece :: ps ∧ splitOn '/' (halveSlashes cs) = piece :: qs ∧ Thinned [] ps qs := by
  fun_induction halveSlashes cs with
  | case1 rest ih =>
      obtain ⟨piece, ps, qs, whole, halved, thinned⟩ := ih
      refine ⟨[], [] :: piece :: ps, piece :: qs, ?_, ?_, .drop (List.cons_ne_nil _ _) (.keep thinned)⟩
      · rw [splitOn, if_pos rfl, splitOn, if_pos rfl, whole]
      · rw [splitOn, if_pos rfl, halved]
  | case2 c rest _ ih =>
      obtain ⟨piece, ps, qs, whole, halved, thinned⟩ := ih
      by_cases slash : c = '/'
      · refine ⟨[], piece :: ps, piece :: qs, ?_, ?_, .keep thinned⟩
        · rw [splitOn, if_pos slash, whole]
        · rw [splitOn, if_pos slash, halved]
      · refine ⟨c :: piece, ps, qs, ?_, ?_, thinned⟩
        · rw [splitOn, if_neg slash, whole, Text.consLine]
        · rw [splitOn, if_neg slash, halved, Text.consLine]
  | case3 => exact ⟨[], [], [], rfl, rfl, .nil⟩

/-- A text with each pair of slashes made one. -/
def halved (s : String) : String := String.ofList (halveSlashes s.toList)

/-- A text without the slashes in front. -/
def unslashed (s : String) : String := String.ofList (s.toList.dropWhile (· = '/'))

/-- Halving doubled slashes leaves out empty pieces only. -/
theorem thinned_halved (s : String) : Thinned "" (split '/' s) (split '/' (halved s)) := by
  obtain ⟨piece, ps, qs, whole, parts, thinned⟩ := splitOn_halveSlashes s.toList
  rw [split, split, halved, String.toList_ofList, whole, parts]
  exact (Thinned.keep thinned).map String.ofList

/-- Dropping slashes at the end leaves out empty pieces only. -/
theorem thinned_unslashed (s : String) : Thinned "" (split '/' s) (split '/' (unslashed s)) := by
  rw [split, split, unslashed, String.toList_ofList]
  exact (thinned_splitOn_dropWhile s.toList).map String.ofList

/-!
### What is looked at
-/

namespace Disk

variable {d : Disk} {directory path : String} {t : FileTree} {above : List FileTree} {here : FileTree}

/-- Whether a path is counted from the top is told by its first character. -/
theorem isAbsolute_congr {s s' : String} (first : s.toList.head? = s'.toList.head?) :
    isAbsolute s = isAbsolute s' ∧ (s = "" ↔ s' = "") := by
  constructor
  · unfold isAbsolute Text.startsWith
    cases chars : s.toList with
    | nil =>
        rw [chars, List.head?_nil, eq_comm, List.head?_eq_none_iff] at first
        rw [first]
    | cons c cs =>
        rw [chars, List.head?_cons, eq_comm, List.head?_eq_some_iff] at first
        obtain ⟨cs', chars'⟩ := first
        rw [chars']
        rfl
  · rw [← String.toList_eq_nil_iff, ← String.toList_eq_nil_iff, ← List.head?_eq_none_iff, ← List.head?_eq_none_iff, first]

theorem head?_halveSlashes (cs : List Char) : (halveSlashes cs).head? = cs.head? := by
  fun_cases halveSlashes cs <;> rfl

/-- The path that the test is about begins as that of the directory. -/
theorem head?_target (written : directory ≠ "") (path : String) :
    (halved (directory ++ "/" ++ path)).toList.head? = directory.toList.head? := by
  rw [halved, String.toList_ofList, head?_halveSlashes, String.toList_append, String.toList_append, List.append_assoc]
  exact List.head?_append_of_ne_nil _ (mt String.toList_eq_nil_iff.1 written)

/-- The steps of that path, thinned out, are those to the directory and on from there. -/
theorem thinned_target (written : directory ≠ "") (path : String) :
    Thinned "" (d.pathSteps directory ++ split '/' path) (d.pathSteps (halved (directory ++ "/" ++ path))) := by
  have thinned := thinned_halved (directory ++ "/" ++ path)
  rw [Text.split_append] at thinned
  unfold pathSteps
  rw [(isAbsolute_congr (head?_target written path)).1]
  split
  next => exact thinned
  next =>
    rw [List.append_assoc]
    exact thinned.behind d.cwd

/-- Slashes in front of a path below a directory do not count. -/
theorem find?_joinPath_unslashed (written : directory ≠ "") (path : String) :
    d.find? (joinPath directory (unslashed path)) = d.find? (joinPath directory path) := by
  rw [find?_eq_descend (isAbsolute_joinPath written _).2, find?_eq_descend (isAbsolute_joinPath written _).2,
    ← (thinned_pathSteps written _).descend, ← (thinned_pathSteps written _).descend]
  exact ((thinned_unslashed path).behind _).descend.symm

/-- The test is about what a look at the disk finds, seen from the same directory. -/
theorem find?_target (written : directory ≠ "") (path : String) :
    d.find? (halved (directory ++ "/" ++ path)) = d.find? (joinPath directory (unslashed path)) := by
  have someTarget : halved (directory ++ "/" ++ path) ≠ "" :=
    mt (isAbsolute_congr (head?_target written path)).2.1 written
  rw [find?_joinPath_unslashed written, find?_eq_descend someTarget, find?_eq_descend (isAbsolute_joinPath written _).2,
    ← (thinned_target written path).descend, ← (thinned_pathSteps written _).descend]

/-- What has a path below it is a directory. -/
theorem exists_leads_directory {xs ys : List String} (more : ys ≠ [])
    (led : FileTree.descend above here (xs ++ ys) = some t) :
    ∃ around entries, Leads above here xs around (.directory entries) := by
  induction xs generalizing above here with
  | nil =>
      obtain ⟨y, ys, rfl⟩ := List.exists_cons_of_ne_nil more
      cases here with
      | file content => cases led
      | directory entries => exact ⟨above, entries, .here⟩
  | cons x xs ih =>
      obtain ⟨between, next, goes⟩ := exists_goes led
      rw [List.cons_append, goes.descend] at led
      obtain ⟨around, entries, further⟩ := ih led
      exact ⟨around, entries, .step goes further⟩

/-- A path names a directory if a directory is found there. -/
theorem isDirectory_iff : d.isDirectory path = true ↔ ∃ entries, d.find? path = some (.directory entries) := by
  unfold isDirectory
  split
  next entries found => exact ⟨fun _ => ⟨entries, found⟩, fun _ => rfl⟩
  next other =>
    refine ⟨fun no => absurd no Bool.false_ne_true, ?_⟩
    rintro ⟨entries, found⟩
    exact absurd found (other entries)

/-- Where something lies below a path, the path is one of a directory. -/
theorem isDirectory_of_find? (written : directory ≠ "") (found : d.find? (joinPath directory path) = some t) :
    d.isDirectory directory = true := by
  rw [find?_eq_descend (isAbsolute_joinPath written path).2, ← (thinned_pathSteps written path).descend] at found
  obtain ⟨around, entries, leads⟩ := exists_leads_directory (Text.split_ne_nil path) found
  have led := leads.descend []
  rw [List.append_nil] at led
  exact isDirectory_iff.2 ⟨entries, by rw [find?_eq_descend written]; exact led⟩

/-- Nothing is found below a path that names no directory. -/
theorem find?_joinPath_eq_none (written : directory ≠ "") (no : d.isDirectory directory = false) (path : String) :
    d.find? (joinPath directory path) = none := by
  rw [Option.eq_none_iff_forall_ne_some]
  intro t found
  exact Bool.false_ne_true (no.symm.trans (isDirectory_of_find? written found))

/-!
### From inside a directory
-/

/-- The disk as a command sees it that runs in a directory. -/
def entered (d : Disk) (directory : String) : Disk := { d with cwd := d.canonical directory }

/-- A path used inside a directory, as it is written outside: one that is counted from the top is the same, and any other
    stands behind the path of the directory. -/
def fromInside (directory path : String) : String := if isAbsolute path then path else joinPath directory path

theorem fromInside_ne_empty (writtenDirectory : directory ≠ "") (written : path ≠ "") :
    fromInside directory path ≠ "" := by
  unfold fromInside
  split
  next => exact written
  next => exact (isAbsolute_joinPath writtenDirectory path).2

/-- What is no directory is none seen from inside itself either. -/
theorem isDirectory_fromInside (written : directory ≠ "") (no : d.isDirectory directory = false) :
    d.isDirectory (fromInside directory directory) = false := by
  unfold fromInside
  split
  next => exact no
  next => rw [isDirectory, find?_joinPath_eq_none written no directory]

/-- A command sees what the paths that it uses mean outside. -/
theorem find?_entered (standard : d.Standard) (isDirectory : d.isDirectory directory = true) (written : path ≠ "") :
    (d.entered directory).find? path = d.find? (fromInside directory path) := by
  obtain ⟨entries, found⟩ := isDirectory_iff.1 isDirectory
  have writtenDirectory : directory ≠ "" := by
    rintro rfl
    cases found
  unfold fromInside
  split
  next absolute => rw [find?_eq_of_absolute absolute, find?_eq_of_absolute absolute, entered]
  next relative =>
    rw [find?_eq_descend writtenDirectory] at found
    obtain ⟨around, leads⟩ := exists_leads found
    have trail : Trail d.root (d.canonical directory) around (.directory entries) := by
      rw [canonical_eq_foldl standard]
      exact Trail.top.leads leads
    have stepsInside : (d.entered directory).pathSteps path = d.canonical directory ++ split '/' path := if_neg relative
    rw [find?_eq_descend written, stepsInside, entered, find?_eq_descend (isAbsolute_joinPath writtenDirectory path).2,
      ← (thinned_pathSteps writtenDirectory path).descend, leads.descend]
    exact trail.descend _

theorem endsWith_append (front : String) {path : String} (written : path ≠ "") :
    Text.endsWith (front ++ path) "/" = Text.endsWith path "/" := by
  have last : path.toList.getLast? = some (path.toList.getLast (mt String.toList_eq_nil_iff.1 written)) :=
    List.getLast?_eq_some_getLast _
  have ends : ∀ s : String, Text.endsWith s "/" = true ↔ s.toList.getLast? = some '/' := by
    intro s
    rw [Text.endsWith, List.isSuffixOf_iff_suffix, List.getLast?_eq_some_iff, List.IsSuffix]
    exact exists_congr fun _ => eq_comm
  rw [Bool.eq_iff_iff, ends, ends, String.toList_append, List.getLast?_append, last, Option.some_or]

/-- A front before the first path of a joining is one before the joined path. -/
theorem joinPath_append (front : String) {path : String} (written : path ≠ "") (further : String) :
    joinPath (front ++ path) further = front ++ joinPath path further := by
  unfold joinPath
  rw [endsWith_append front written]
  split
  · rw [String.append_assoc]
  · rw [String.append_assoc, String.append_assoc, String.append_assoc]

/-- Of three paths put behind each other the first two, or the last two, may be put together first. -/
theorem joinPath_assoc (a : String) {b : String} (written : b ≠ "") (c : String) :
    joinPath (joinPath a b) c = joinPath a (joinPath b c) := by
  by_cases slash : Text.endsWith a "/" = true
  · have front : ∀ path, joinPath a path = a ++ path := fun _ => if_pos slash
    rw [front, front, joinPath_append a written]
  · have front : ∀ path, joinPath a path = a ++ "/" ++ path := fun _ => if_neg slash
    rw [front, front, joinPath_append _ written]

/-- Whether a path names a file depends on what is found there only. -/
theorem isFile_congr {d' : Disk} {path' : String} (same : d.find? path = d'.find? path') :
    d.isFile path = d'.isFile path' := by
  rw [isFile, isFile, same]

end Disk

/-!
### The probes
-/

section Probes

open Disk (entered fromInside isAbsolute)

variable {d : Disk}

/-- The workspace always has a path that is not empty. -/
theorem workspacePath_ne_empty (d : Disk) (workspace : Option String) : workspacePath d workspace ≠ "" := by
  have isPath : d.cwdPath ≠ "" := by simp [Disk.cwdPath, Disk.absolute]
  unfold workspacePath
  split
  · split
    next => exact isPath
    next written => exact written
  · exact isPath

theorem workspacePath_some {path : String} (written : path ≠ "") : workspacePath d (some path) = path := if_neg written

/-- The probe by paths looks for a file at the path below the workspace. -/
theorem pathProbe_eq (d : Disk) (workspace : Option String) (path : String) :
    pathProbe d workspace path = Answer.ofBool (d.isFile (joinPath (workspacePath d workspace) (unslashed path))) := rfl

theorem hasZero_append (s s' : String) : hasZero (s ++ s') = (hasZero s || hasZero s') := by
  rw [hasZero, hasZero, hasZero, String.toList_append, List.contains_eq_any_beq, List.contains_eq_any_beq,
    List.contains_eq_any_beq, List.any_append]

/-- Only slashes are dropped. -/
theorem hasZero_halved (s : String) : hasZero (halved s) = hasZero s := by
  rw [hasZero, hasZero, halved, String.toList_ofList]
  fun_induction halveSlashes s.toList with
  | case1 rest ih => simpa [List.contains_cons] using ih
  | case2 c rest _ ih => rw [List.contains_cons, List.contains_cons, ih]
  | case3 => rfl

/-- What a probe breaks off over: the workspace or the path has a zero character in it. -/
def hasZeroBelow (d : Disk) (workspace : Option String) (path : String) : Bool :=
  hasZero (workspacePath d workspace) || hasZero path

/-- A word of the command has a null character if the workspace or the path has. -/
theorem hasZero_words (d : Disk) (workspace : Option String) (path : String) :
    (workspacePath d workspace :: (testFile ++ [halved (workspacePath d workspace ++ "/" ++ path)])).any hasZero =
      hasZeroBelow d workspace path := by
  have noZero : hasZero "test" = false ∧ hasZero "-f" = false ∧ hasZero "/" = false := by decide
  simp only [testFile, List.cons_append, List.nil_append, List.any_cons, List.any_nil, hasZero_halved, hasZero_append, noZero,
    Bool.or_false, Bool.false_or]
  rw [← Bool.or_assoc, Bool.or_self]
  rfl

/-- The command breaks off over a zero character. Otherwise it says yes if the workspace is a directory and, inside it,
    the path leads to a file. -/
theorem commandProbe_testFile (d : Disk) (workspace : Option String) (path : String) :
    commandProbe d workspace testFile path =
      if hasZeroBelow d workspace path then .interrupted .zeroCharacter
      else Answer.ofBool (d.isDirectory (workspacePath d workspace) &&
        (d.entered (workspacePath d workspace)).isFile (halved (workspacePath d workspace ++ "/" ++ path))) := by
  have words := hasZero_words d workspace path
  rw [halved] at words
  rw [commandProbe, words]
  congr 1
  cases isDirectory : d.isDirectory (workspacePath d workspace) with
  | false => simp [runCommand, isDirectory]
  | true => simp [runCommand, isDirectory, testFile, testHolds, Disk.entered, halved]

/-- The command looks below the path of the workspace as it is understood in the workspace. -/
theorem commandProbe_eq (standard : d.Standard) {workspace : Option String} {path : String}
    (noZero : hasZeroBelow d workspace path = false) : commandProbe d workspace testFile path =
      pathProbe d (some (fromInside (workspacePath d workspace) (workspacePath d workspace))) path := by
  have written := workspacePath_ne_empty d workspace
  rw [commandProbe_testFile, if_neg (by simp [noZero])]
  generalize workspacePath d workspace = directory at written
  have joined : fromInside directory (joinPath directory (unslashed path)) =
      joinPath (fromInside directory directory) (unslashed path) := by
    unfold fromInside
    rw [(Disk.isAbsolute_joinPath written _).1]
    split
    next => rfl
    next => exact (Disk.joinPath_assoc directory written _).symm
  have writtenInside : fromInside directory directory ≠ "" := Disk.fromInside_ne_empty written written
  rw [pathProbe_eq, workspacePath_some writtenInside]
  cases isDirectory : d.isDirectory directory with
  | true =>
      have found := Disk.find?_entered standard isDirectory (Disk.isAbsolute_joinPath written (unslashed path)).2
      rw [joined, ← Disk.find?_target written path] at found
      rw [Bool.true_and, Disk.isFile_congr found]
  | false =>
      have absent := Disk.find?_joinPath_eq_none writtenInside (Disk.isDirectory_fromInside written isDirectory)
        (unslashed path)
      rw [Bool.false_and, Disk.isFile, absent]

/-- The probes that settings can ask for have an answer for every path, but for the command and zero characters. -/
theorem makeProbe_eq_interrupted_iff {d : Disk} {kind : ProbeKind} {workspace : Option String} {path : String}
    {why : Interruption} : makeProbe d kind workspace path = .interrupted why ↔
      why = .zeroCharacter ∧ kind = .command ∧ hasZeroBelow d workspace path = true := by
  have answers : ∀ b, Answer.ofBool b ≠ .interrupted why := by
    intro b
    cases b <;> exact nofun
  cases kind with
  | none => exact ⟨nofun, nofun⟩
  | path => exact ⟨fun broken => absurd broken (answers _), nofun⟩
  | command =>
      rw [makeProbe, commandProbe_testFile]
      split
      next zero => exact ⟨fun same => ⟨(Specifier.Answer.interrupted.inj same).symm, rfl, zero⟩, fun ⟨same, _⟩ => same ▸ rfl⟩
      next noZero => exact ⟨fun broken => absurd broken (answers _), fun ⟨_, _, zero⟩ => absurd zero noZero⟩

/-- A workspace whose path means the same to a program that runs in it: it is counted from the top, as it is when none is
    given, or it leads to where the program runs already. -/
def KeptInside (d : Disk) (workspace : Option String) : Prop :=
  isAbsolute (workspacePath d workspace) = true ∨ d.canonical (workspacePath d workspace) = d.cwd

/-- Without a workspace the probes stay where they are. -/
theorem keptInside_none (d : Disk) : KeptInside d none :=
  .inl (by simp [workspacePath, Disk.cwdPath, Disk.absolute, isAbsolute, Text.startsWith])

/-- The probe by a command agrees with that by paths where the workspace is seen the same from inside. -/
theorem commandProbe_of_keptInside (standard : d.Standard) {workspace : Option String} {path : String}
    (kept : KeptInside d workspace) (noZero : hasZeroBelow d workspace path = false) :
    commandProbe d workspace testFile path = pathProbe d workspace path := by
  have written := workspacePath_ne_empty d workspace
  rcases kept with absolute | here
  · rw [commandProbe_eq standard noZero, fromInside, if_pos absolute, pathProbe_eq, pathProbe_eq,
      workspacePath_some written]
  · have same : d.entered (workspacePath d workspace) = d := by rw [Disk.entered, here]
    rw [commandProbe_testFile, if_neg (by simp [noZero]), pathProbe_eq, same,
      Disk.isFile_congr (Disk.find?_target written path), Disk.isFile]
    split
    next content found => rw [Disk.isDirectory_of_find? written found, Bool.true_and]
    next => rw [Bool.and_false]

/-- Where there are no zero characters, the command answers as a look at the disk does from the path of the workspace as
    it is understood in the workspace. So the two agree on every path when the workspace is given from the top, or not
    at all, or is the working directory. Where a relative workspace does not contain what its path leads to from inside,
    the command finds nothing, while the look at the disk finds every file below. With a zero character in the path or
    in that of the workspace, and in no other case, the command breaks off. -/
theorem makeProbe_agree (standard : d.Standard) (workspace : Option String) :
    (∀ path, hasZeroBelow d workspace path = false →
      makeProbe d .command workspace path =
          makeProbe d .path (some (fromInside (workspacePath d workspace) (workspacePath d workspace))) path ∧
        (KeptInside d workspace → makeProbe d .command workspace path = makeProbe d .path workspace path) ∧
        (d.find? (fromInside (workspacePath d workspace) (workspacePath d workspace)) = none →
          makeProbe d .command workspace path = .absent)) ∧
      (∀ path, hasZeroBelow d workspace path = true →
        makeProbe d .command workspace path = .interrupted .zeroCharacter) ∧
      ∀ entries, d.find? (workspacePath d workspace) = some (.directory entries) →
        ∀ names content, (FileTree.directory entries).Holds names content →
          makeProbe d .path workspace (Text.joinWith "/" names) = .found := by
  refine ⟨fun path noZero => ⟨commandProbe_eq standard noZero, fun kept => commandProbe_of_keptInside standard kept noZero,
    fun nothing => ?_⟩, fun path zero => ?_, fun entries found names content holds => ?_⟩
  · have written := workspacePath_ne_empty d workspace
    have writtenInside := Disk.fromInside_ne_empty written written
    have noDirectory : d.isDirectory (fromInside (workspacePath d workspace) (workspacePath d workspace)) = false := by
      rw [Disk.isDirectory, nothing]
    rw [makeProbe, commandProbe_eq standard noZero, pathProbe_eq, workspacePath_some writtenInside, Disk.isFile,
      Disk.find?_joinPath_eq_none writtenInside noDirectory (unslashed path)]
    rfl
  · rw [makeProbe, commandProbe_testFile, if_pos zero]
  · have found := Disk.find?_joinPath standard found holds
    rw [← Disk.find?_joinPath_unslashed (workspacePath_ne_empty d workspace)] at found
    rw [makeProbe, pathProbe_eq, Disk.isFile, found]
    rfl

/-- A machine with a file in the directory `lib` of the working directory, and one in the `lib` of that. -/
def nestedDisk : Disk where
  root := .directory [("ws", .directory [("lib", .directory
    [("b.ts", .file .empty), ("lib", .directory [("c.ts", .file .empty)])])])]
  cwd := ["ws"]

theorem standard_nestedDisk : nestedDisk.Standard where
  named := by decide +kernel
  nameable := by decide +kernel
  cwdNames := by decide
  cwdFree := by decide

/-- With a relative workspace the command misses the file in the workspace and finds the one below its path once more,
    and the two agree with the workspace given from the top. -/
theorem makeProbe_agree_nestedDisk :
    makeProbe nestedDisk .command (some "lib") "c.ts" = makeProbe nestedDisk .path (some "lib/lib") "c.ts" ∧
      makeProbe nestedDisk .command (some "/ws/lib") "//b.ts" = makeProbe nestedDisk .path (some "/ws/lib") "//b.ts" ∧
      makeProbe nestedDisk .command (some "/ws/lib") "//b.ts" = .found ∧
      makeProbe nestedDisk .command (some "lib/lib") "c.ts" = .absent ∧
      makeProbe nestedDisk .path (some "lib/lib") "c.ts" = .found ∧
      makeProbe nestedDisk .command (some "lib") "\x00" = .interrupted .zeroCharacter := by
  have kept : KeptInside nestedDisk (some "/ws/lib") := .inl (by decide +kernel)
  obtain ⟨inside, zero, -⟩ := makeProbe_agree standard_nestedDisk (some "lib")
  obtain ⟨top, -, -⟩ := makeProbe_agree standard_nestedDisk (some "/ws/lib")
  obtain ⟨nowhere, -, every⟩ := makeProbe_agree standard_nestedDisk (some "lib/lib")
  have same := (top "//b.ts" (by decide +kernel)).2.1 kept
  have found : makeProbe nestedDisk .path (some "/ws/lib") "//b.ts" = .found := by decide +kernel
  have noLib : nestedDisk.find? (fromInside "lib/lib" "lib/lib") = none := by decide +kernel
  have leads : nestedDisk.find? "lib/lib" = some (.directory [("c.ts", .file .empty)]) := rfl
  exact ⟨(inside "c.ts" (by decide +kernel)).1, same, same.trans found,
    (nowhere "c.ts" (by decide +kernel)).2.2 noLib,
    every _ leads ["c.ts"] .empty (.inside List.mem_cons_self .here), zero "\x00" (by decide +kernel)⟩

/-- A look at the disk finds a file in a relative workspace, and the command does not. -/
theorem astray_relativeWorkspace :
    nestedDisk.Standard ∧ makeProbe nestedDisk .path (some "lib") "b.ts" = .found ∧
      makeProbe nestedDisk .command (some "lib") "b.ts" = .absent :=
  ⟨standard_nestedDisk, by decide +kernel, by decide +kernel⟩

end Probes

end Outline
