/-
Module: Outline.Proofs.Scan.Precedence
Layer: Proofs
Purpose: Which of two ignore files counts more, when one stands in a directory below the other. The deeper one comes
  later, and so decides, if the first name on the way down to it comes after the name of an ignore file; otherwise it
  comes earlier.
Main exports: IgnoreFile.Below, IgnoreFile.YieldsTo, ignored_append_of_accepts, ignoresPath_without, precedence_of_loaded
-/
import Outline.Proofs.Scan.IgnoreRules

namespace Outline

namespace Ignore

/-!
### Rules that decide
-/

section Rules

variable {rules front : List Rule} {path : List Char}

/-- Where a rule matches, the rules in front have no say. -/
theorem ignored_append_of_accepts (accepts : ∃ r ∈ rules, r.matcher.accepts path = true) :
    ignored (front ++ rules) path = ignored rules path := by
  obtain ⟨r, mem, accepts⟩ := accepts
  rw [ignored_eq, ignored_eq, List.reverse_append, List.find?_append]
  cases found : rules.reverse.find? fun r => r.matcher.accepts path with
  | none => exact absurd accepts (List.find?_eq_none.1 found r (List.mem_reverse.2 mem))
  | some last => rfl

theorem ignoresPath_eq (rules : List Rule) (path : String) : ignoresPath rules path = ignored rules (plainPath path) := rfl

end Rules

/-!
### Files above and below each other
-/

/-- A file lies below the directory of another; the name is that of the first directory on the way down. -/
def IgnoreFile.Below (inner outer : IgnoreFile) (step : String) : Prop :=
  ∃ rest, inner.directory = outer.directory ++ step :: rest

/-- Which of two files, one below the other, comes first: the outer one if the first name on the way down comes after
    the name of an ignore file, and the inner one if it comes before that. -/
inductive IgnoreFile.YieldsTo : IgnoreFile → IgnoreFile → Prop where
  | outer {f g : IgnoreFile} {step : String} (below : g.Below f step) (after : ".gitignore" < step) : YieldsTo f g
  | inner {f g : IgnoreFile} {step : String} (below : f.Below g step) (before : step < ".gitignore") : YieldsTo f g

/-- Some rule of a file is about a path. -/
def IgnoreFile.Matches (f : IgnoreFile) (path : String) : Prop :=
  ∃ r ∈ f.rules, r.matcher.accepts (plainPath path) = true

section Files

variable {f g outer inner : IgnoreFile} {step : String}

/-- The places of an ignore file and of one further down, from the outer directory on. -/
theorem IgnoreFile.Below.places (below : inner.Below outer step) :
    ∃ rest, inner.place = outer.directory ++ step :: rest ∧ outer.place = outer.directory ++ [".gitignore"] := by
  obtain ⟨rest, directory⟩ := below
  refine ⟨rest ++ [".gitignore"], ?_, rfl⟩
  rw [IgnoreFile.place, directory, List.append_assoc, List.cons_append]

/-- An outer ignore file comes first if its name is before that of the directory with the inner one. -/
theorem IgnoreFile.Below.outer_lex_iff (below : inner.Below outer step) (differs : step ≠ ".gitignore") :
    List.Lex (· < ·) outer.place inner.place ↔ ".gitignore" < step := by
  obtain ⟨rest, placeInner, placeOuter⟩ := below.places
  rw [placeOuter, placeInner, lex_append_left_iff, List.cons_lex_cons_iff]
  simp [differs.symm]

/-- An inner ignore file comes first if the name of its directory is before that of the outer file. -/
theorem IgnoreFile.Below.inner_lex_iff (below : inner.Below outer step) (differs : step ≠ ".gitignore") :
    List.Lex (· < ·) inner.place outer.place ↔ step < ".gitignore" := by
  obtain ⟨rest, placeInner, placeOuter⟩ := below.places
  rw [placeOuter, placeInner, lex_append_left_iff, List.cons_lex_cons_iff]
  simp [differs]

theorem IgnoreFile.YieldsTo.lex (yields : f.YieldsTo g) : List.Lex (· < ·) f.place g.place := by
  cases yields with
  | outer below after => exact (below.outer_lex_iff (String.ne_of_lt after).symm).2 after
  | inner below before => exact (below.inner_lex_iff (String.ne_of_lt before)).2 before

/-- Where a file has a rule about a path, the files that yield to it can be dropped. -/
theorem ignoresPath_without {files : List IgnoreFile} (increasing : Increasing files) (mem : g ∈ files) {path : String}
    (own : g.Matches path) (dropped : IgnoreFile → Bool) (yielding : ∀ f, dropped f = true → f.YieldsTo g) :
    ignoresPath ((files.filter fun f => !dropped f).flatMap IgnoreFile.rules) path =
      ignoresPath (files.flatMap IgnoreFile.rules) path := by
  obtain ⟨before, after, rfl⟩ := List.append_of_mem mem
  have kept : ∀ f ∈ g :: after, (!dropped f) = true := by
    intro f among
    rw [Bool.not_eq_true']
    apply Classical.byContradiction
    intro isDropped
    have less : List.Lex (· < ·) f.place g.place := (yielding f (by simpa using isDropped)).lex
    rcases List.mem_cons.1 among with rfl | among
    · exact List.lex_irrefl String.lt_irrefl _ less
    · obtain ⟨_, fromHere, _⟩ := List.pairwise_append.1 increasing
      have greater : List.Lex (· < ·) g.place f.place := (List.pairwise_cons.1 fromHere).1 f among
      exact List.lex_irrefl String.lt_irrefl _ (List.lex_trans String.lt_trans less greater)
  have accepts : ∃ r ∈ (g :: after).flatMap IgnoreFile.rules, r.matcher.accepts (plainPath path) = true := by
    obtain ⟨r, isRule, accepts⟩ := own
    exact ⟨r, List.mem_flatMap.2 ⟨g, List.mem_cons_self, isRule⟩, accepts⟩
  rw [ignoresPath_eq, ignoresPath_eq, List.filter_append, List.filter_eq_self.2 kept, List.flatMap_append,
    List.flatMap_append, ignored_append_of_accepts accepts, ignored_append_of_accepts accepts]

end Files

end Ignore

/-!
### The files of a tree
-/

open Ignore (IgnoreFile Rule ignoresPath)

/-- A name that is taken by an ignore file leads to no other file. -/
theorem step_ne_of_below {tree : FileTree} (named : tree.wellNamed) {outer inner : IgnoreFile} {step : String}
    (holdsOuter : tree.Holds outer.place outer.content) (holdsInner : tree.Holds inner.place inner.content)
    (below : inner.Below outer step) : step ≠ ".gitignore" := by
  rintro rfl
  obtain ⟨rest, directory⟩ := below
  have place : inner.place = outer.place ++ (rest ++ [".gitignore"]) := by
    simp [IgnoreFile.place, directory]
  rw [place] at holdsInner
  have nothing := (holdsOuter.unique named holdsInner).1
  exact absurd nothing (by simp)

/-- Of two ignore files in a tree, one below the other, the deeper comes later exactly if the first name on the way down
    to it comes after the name of an ignore file, and earlier exactly if it comes before that. The later one counts
    more: where it has a rule about a path, the files that yield to it have no say. -/
theorem precedence_of_loaded {tree : FileTree} (named : tree.wellNamed) {ignoredDirectories : List String}
    {rules : List Rule} (loaded : loadRules ignoredDirectories tree = .ok rules) :
    let files := ignoreFiles ignoredDirectories.contains tree
    rules = files.flatMap IgnoreFile.rules ∧
      (∀ outer ∈ files, ∀ inner ∈ files, ∀ step, inner.Below outer step →
        step ≠ ".gitignore" ∧ ([outer, inner].Sublist files ↔ ".gitignore" < step) ∧
          ([inner, outer].Sublist files ↔ step < ".gitignore")) ∧
      ∀ g ∈ files, ∀ path, g.Matches path →
        ∀ dropped : IgnoreFile → Bool, (∀ f, dropped f = true → f.YieldsTo g) →
          ignoresPath ((files.filter fun f => !dropped f).flatMap IgnoreFile.rules) path = ignoresPath rules path := by
  intro files
  have increasing : Increasing files := ignoreFiles_increasing named
  have combined : rules = files.flatMap IgnoreFile.rules := Ignore.eq_of_combineFiles loaded
  refine ⟨combined, ?_, ?_⟩
  · intro outer memOuter inner memInner step below
    have differs : step ≠ ".gitignore" :=
      step_ne_of_below named (mem_ignoreFiles.1 memOuter).1 (mem_ignoreFiles.1 memInner).1 below
    exact ⟨differs, (increasing.sublist_iff memOuter memInner).trans (below.outer_lex_iff differs),
      (increasing.sublist_iff memInner memOuter).trans (below.inner_lex_iff differs)⟩
  · intro g mem path own dropped yielding
    rw [combined]
    exact Ignore.ignoresPath_without increasing mem own dropped yielding

/-- A file at the top ignores all sources, and one in a directory takes the source `a.ts` back. -/
def takenBackTree : FileTree :=
  .directory [(".gitignore", .file "*.ts".toUTF8), ("src", .directory [(".gitignore", .file "!a.ts".toUTF8)])]

/-- The rules of the two files. -/
def takenBackRules : List Rule :=
  [⟨false, .pieces (.leading :: .many :: ".ts".toList.map .char ++ [.ending])⟩,
    ⟨true, .pieces ("src".toList.map .char ++ .inner :: "/a.ts".toList.map .char ++ [.ending])⟩]

/-- In the example the file further down takes back what the one at the top ignores, so the rules further down decide.
    -/
theorem precedence_of_loaded_takenBack :
    let outer : IgnoreFile := ⟨[], "*.ts".toUTF8⟩
    let inner : IgnoreFile := ⟨["src"], "!a.ts".toUTF8⟩
    takenBackTree.wellNamed ∧ loadRules [] takenBackTree = .ok takenBackRules ∧
      [outer, inner].Sublist (ignoreFiles [].contains takenBackTree) ∧ inner.Matches "src/a.ts" ∧
      ignoresPath (((ignoreFiles [].contains takenBackTree).filter fun f => !f.directory.isEmpty).flatMap
        IgnoreFile.rules) "src/a.ts" = ignoresPath takenBackRules "src/a.ts" := by
  intro outer inner
  have named : takenBackTree.wellNamed := by decide +kernel
  have files : ignoreFiles [].contains takenBackTree = [outer, inner] := by
    rw [ignoreFiles, List.mergeSort_of_pairwise (by decide +kernel)]
    rfl
  have loaded : loadRules [] takenBackTree = .ok takenBackRules := by
    show Ignore.combineFiles (ignoreFiles [].contains takenBackTree) = _
    rw [files]
    decide +kernel
  have below : inner.Below outer "src" := ⟨[], rfl⟩
  have own : inner.Matches "src/a.ts" := by
    refine ⟨_, (?_ : takenBackRules[1] ∈ inner.rules), ?_⟩
    · have parsed : inner.parsed = .ok [takenBackRules[1]] := by
        show Ignore.parseFile ["src"] "!a.ts".toUTF8 = _
        decide +kernel
      rw [IgnoreFile.rules, parsed]
      exact List.mem_cons_self
    · decide +kernel
  obtain ⟨_, order, decides⟩ := precedence_of_loaded named loaded
  rw [files] at order decides ⊢
  have after : ".gitignore" < "src" := by decide +kernel
  refine ⟨named, loaded, ?_, own, ?_⟩
  · exact (order outer List.mem_cons_self inner (List.mem_cons_of_mem _ List.mem_cons_self) "src" below).2.1.2 after
  · apply decides inner (List.mem_cons_of_mem _ List.mem_cons_self) "src/a.ts" own (fun f => f.directory.isEmpty)
    intro f isTop
    have belowTop : inner.Below f "src" := ⟨[], by rw [List.isEmpty_iff.1 isTop]; rfl⟩
    exact .outer belowTop after

/-- The name of a directory that begins with a dot can come before that of an ignore file: then the file at the top has
    the last word, and what the deeper file takes back stays ignored. -/
theorem overruled_in_dotDirectory :
    let tree : FileTree :=
      .directory [(".github", .directory [(".gitignore", .file "!a.ts".toUTF8)]), (".gitignore", .file "*.ts".toUTF8)]
    let outer : IgnoreFile := ⟨[], "*.ts".toUTF8⟩
    let inner : IgnoreFile := ⟨[".github"], "!a.ts".toUTF8⟩
    tree.wellNamed ∧ tree.Holds outer.place outer.content ∧ tree.Holds inner.place inner.content ∧
      inner.Below outer ".github" ∧ ¬[outer, inner].Sublist (ignoreFiles [].contains tree) ∧
      ∃ rules, loadRules [] tree = .ok rules ∧ inner.Matches ".github/a.ts" ∧
        ignoresPath (outer.rules ++ inner.rules) ".github/a.ts" = false ∧ ignoresPath rules ".github/a.ts" = true := by
  intro tree outer inner
  let all : Rule := ⟨false, .pieces (.leading :: .many :: ".ts".toList.map .char ++ [.ending])⟩
  let back : Rule := ⟨true, .pieces (".github".toList.map .char ++ .inner :: "/a.ts".toList.map .char ++ [.ending])⟩
  have files : ignoreFiles [].contains tree = [inner, outer] := by
    rw [ignoreFiles, List.mergeSort_of_pairwise (by decide +kernel)]
    rfl
  have ofOuter : outer.rules = [all] := by
    have parsed : Ignore.parseFile [] "*.ts".toUTF8 = .ok [all] := by decide +kernel
    rw [IgnoreFile.rules, IgnoreFile.parsed, parsed]
  have ofInner : inner.rules = [back] := by
    have parsed : Ignore.parseFile [".github"] "!a.ts".toUTF8 = .ok [back] := by decide +kernel
    rw [IgnoreFile.rules, IgnoreFile.parsed, parsed]
  have loaded : loadRules [] tree = .ok [back, all] := by
    show Ignore.combineFiles (ignoreFiles [].contains tree) = _
    rw [files]
    decide +kernel
  have named : tree.wellNamed := by decide +kernel
  refine ⟨named, .inside (List.mem_cons_of_mem _ List.mem_cons_self) .here,
    .inside List.mem_cons_self (.inside List.mem_cons_self .here), ⟨[], rfl⟩, ?_, [back, all], loaded, ?_, ?_, ?_⟩
  · intro outerFirst
    have less : List.Lex (· < ·) outer.place inner.place :=
      List.pairwise_iff_forall_sublist.1 (ignoreFiles_increasing named) outerFirst
    have greater : List.Lex (· < ·) inner.place outer.place :=
      (Ignore.IgnoreFile.YieldsTo.inner ⟨[], rfl⟩ (by decide +kernel)).lex
    exact List.lex_irrefl String.lt_irrefl _ (List.lex_trans String.lt_trans less greater)
  · rw [IgnoreFile.Matches, ofInner]
    exact ⟨back, List.mem_cons_self, by decide +kernel⟩
  · rw [ofOuter, ofInner]
    decide +kernel
  · decide +kernel

end Outline
