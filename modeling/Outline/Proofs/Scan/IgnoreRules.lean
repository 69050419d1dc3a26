/-
Module: Outline.Proofs.Scan.IgnoreRules
Layer: Proofs
Purpose: What becomes of malformed ignore files. Those that do not parse on their own contribute no rules and keep no
  other file from contributing; only a reversed range in some file ends the reading of all of them.
Main exports: IgnoreFile.parsed, IgnoreFile.rules, IgnoreFile.Reversed, combineFiles_of_unreversed,
  combineFiles_of_reversed, eq_of_combineFiles, loadRules_unless_reversed
-/
import Outline.Proofs.Ignore.Ranges
import Outline.Proofs.Scan.IgnoreFiles
import Outline.Scan.Directory

namespace Outline

namespace Ignore

/-!
### Files one after the other
-/

/-- What an ignore file says on its own. -/
def IgnoreFile.parsed (f : IgnoreFile) : Except PatternError (List Rule) := parseFile f.directory f.content

/-- The rules that an ignore file contributes. A file that does not parse has none. -/
def IgnoreFile.rules (f : IgnoreFile) : List Rule :=
  match f.parsed with
  | .ok rules => rules
  | .error _ => []

/-- A pattern of the file has a reversed range, and all before it could be read. -/
def IgnoreFile.Reversed (f : IgnoreFile) : Prop := f.parsed = .error .reversedRange

section Combine

variable {f : IgnoreFile} {files rest : List IgnoreFile}

/-- A file without a reversed range puts its rules before those of the others. -/
theorem combineFiles_cons_of_unreversed (unreversed : ¬f.Reversed) :
    combineFiles (f :: rest) = (combineFiles rest).map (f.rules ++ ·) := by
  rw [combineFiles, IgnoreFile.rules, IgnoreFile.parsed]
  cases own : parseFile f.directory f.content with
  | ok rules => cases combineFiles rest <;> rfl
  | error e =>
      cases e with
      | malformed pattern => cases combineFiles rest <;> rfl
      | reversedRange => exact absurd own unreversed

theorem combineFiles_cons_of_reversed (reversed : f.Reversed) :
    combineFiles (f :: rest) = .error .reversedRange := by
  have own : parseFile f.directory f.content = .error .reversedRange := reversed
  rw [combineFiles, own]

/-- Without a reversed range every file contributes what it says on its own. -/
theorem combineFiles_of_unreversed (unreversed : ∀ f ∈ files, ¬f.Reversed) :
    combineFiles files = .ok (files.flatMap IgnoreFile.rules) := by
  induction files with
  | nil => rfl
  | cons f rest ih =>
      obtain ⟨first, others⟩ := List.forall_mem_cons.1 unreversed
      rw [combineFiles_cons_of_unreversed first, ih others]
      rfl

/-- A reversed range in one file ends the reading of all. -/
theorem combineFiles_of_reversed (reversed : ∃ f ∈ files, f.Reversed) : combineFiles files = .error .reversedRange := by
  obtain ⟨bad, mem, reversed⟩ := reversed
  induction files with
  | nil => cases mem
  | cons f rest ih =>
      by_cases first : f.Reversed
      · exact combineFiles_cons_of_reversed first
      · rcases List.mem_cons.1 mem with rfl | further
        · exact absurd reversed first
        · rw [combineFiles_cons_of_unreversed first, ih further]
          rfl

/-- Rules that were read are those of the files one after the other. -/
theorem eq_of_combineFiles {rules : List Rule} (combined : combineFiles files = .ok rules) :
    rules = files.flatMap IgnoreFile.rules := by
  by_cases reversed : ∃ f ∈ files, f.Reversed
  · rw [combineFiles_of_reversed reversed] at combined
    cases combined
  · have unreversed : ∀ f ∈ files, ¬f.Reversed := fun f mem bad => reversed ⟨f, mem, bad⟩
    rw [combineFiles_of_unreversed unreversed] at combined
    exact (Except.ok.inj combined).symm

end Combine

end Ignore

/-!
### The files of a tree
-/

open Ignore (IgnoreFile Rule)

/-- The ignore files of a tree that lie in no ignored directory contribute, in the order of their paths, the rules that
    they state on their own; a file that does not parse is left out. A reversed range is the one exception: then nothing
    is read at all. It takes a bracket in the file, or in the name of a directory on the way to it. -/
theorem loadRules_unless_reversed {tree : FileTree} (named : tree.wellNamed) (ignoredDirectories : List String) :
    ∃ files : List IgnoreFile, Increasing files ∧
      (∀ f, f ∈ files ↔ tree.Holds f.place f.content ∧ ∀ part ∈ f.directory, part ∉ ignoredDirectories) ∧
      ((∀ f ∈ files, ¬f.Reversed) → loadRules ignoredDirectories tree = .ok (files.flatMap IgnoreFile.rules)) ∧
      ((∃ f ∈ files, f.Reversed) → loadRules ignoredDirectories tree = .error .reversedRange) ∧
      ∀ f ∈ files, f.Reversed →
        (∃ part ∈ f.directory, '[' ∈ part.toList) ∨ '[' ∈ Text.Utf8.decodeReplacing f.content.data.toList := by
  refine ⟨ignoreFiles ignoredDirectories.contains tree, ignoreFiles_increasing named, ?_, ?_, ?_, ?_⟩
  · intro f
    rw [mem_ignoreFiles]
    simp only [List.contains_eq_mem, decide_eq_false_iff_not]
  · exact Ignore.combineFiles_of_unreversed
  · exact Ignore.combineFiles_of_reversed
  · exact fun f _ reversed => Ignore.bracket_of_reversed reversed

/-- An ignore file at the top, whose only pattern names nothing, and one in a directory. -/
def halfReadTree : FileTree :=
  .directory [(".gitignore", .file "!".toUTF8), ("lib", .directory [(".gitignore", .file "/a.ts".toUTF8)])]

/-- The rules of the half read tree: one, from the file in the directory. -/
theorem loadRules_halfReadTree :
    loadRules [] halfReadTree = .ok [⟨false, .pieces ("lib/a.ts".toList.map .char ++ [.ending])⟩] := by
  rw [loadRules, ignoreFiles, List.mergeSort_of_pairwise (by decide +kernel)]
  decide +kernel

/-- The file at the top gives no rule and the one in the directory gives one; no range is reversed. -/
theorem loadRules_unless_reversed_halfRead :
    halfReadTree.wellNamed ∧ ∃ files : List IgnoreFile, Increasing files ∧
      (∀ f, f ∈ files ↔ halfReadTree.Holds f.place f.content ∧ ∀ part ∈ f.directory, part ∉ []) ∧
      .ok (files.flatMap IgnoreFile.rules) = loadRules [] halfReadTree ∧
      loadRules [] halfReadTree = .ok [⟨false, .pieces ("lib/a.ts".toList.map .char ++ [.ending])⟩] := by
  have named : halfReadTree.wellNamed := by decide +kernel
  obtain ⟨files, increasing, exact, read, ended, _⟩ := loadRules_unless_reversed named []
  have unreversed : ∀ f ∈ files, ¬f.Reversed := by
    intro f mem reversed
    have stopped := ended ⟨f, mem, reversed⟩
    rw [loadRules_halfReadTree] at stopped
    cases stopped
  exact ⟨named, files, increasing, exact, (read unreversed).symm, loadRules_halfReadTree⟩

/-- The same with a reversed range in the directory: not even the file at the top is read, and no file is scanned. -/
theorem lost_reversedRange :
    let tree : FileTree :=
      .directory [(".gitignore", .file "*.ts".toUTF8), ("lib", .directory [(".gitignore", .file "[z-a]".toUTF8)])]
    (¬∃ rules, loadRules [] tree = .ok rules) ∧ loadRules [] tree = .error .reversedRange ∧
      scannedFiles {} tree = .error (.badPattern .reversedRange) := by
  intro tree
  have ended : ∀ ignored : List String, ignored.contains "lib" = false → loadRules ignored tree = .error .reversedRange := by
    intro ignored reached
    apply Ignore.combineFiles_of_reversed
    refine ⟨⟨["lib"], "[z-a]".toUTF8⟩, mem_ignoreFiles.2 ⟨?_, ?_⟩, ?_⟩
    · exact .inside (List.mem_cons_of_mem _ List.mem_cons_self) (.inside List.mem_cons_self .here)
    · exact fun part mem => List.mem_singleton.1 mem ▸ reached
    · show Ignore.parseFile ["lib"] "[z-a]".toUTF8 = .error .reversedRange
      decide +kernel
  refine ⟨?_, ended [] rfl, ?_⟩
  · rintro ⟨rules, read⟩
    rw [ended [] rfl] at read
    cases read
  · rw [scannedFiles, ended _ (by decide +kernel)]
    rfl

end Outline
