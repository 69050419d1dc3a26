/-
Module: Outline.Scan.Pool
Layer: Scan
Purpose: The worker threads of a scan. Files are begun in their order, as many at a time as there are workers, and
  are done in any order; and of the results that are there, any may be the next one to be taken into account. With the
  first interruption among them the scan is over.
Main exports: Pool, Pool.start, Pool.ended, Pool.Step, Pool.Reaches
-/
import Outline.Scan.Directory

namespace Outline

open Specifier (Interruption)

/-- A scan under way. -/
structure Pool where
  /-- Files not begun yet. -/
  waiting : List SourceFile
  /-- Files that a worker is busy with. -/
  running : List SourceFile := []
  /-- Results not yet taken into account. -/
  finished : List (Except Interruption FileResult) := []
  /-- What is known so far, or the interruption that ended the scan. -/
  tally : Except Interruption Tally := .ok {}

namespace Pool

/-- A scan of some files that is about to begin. -/
def start (files : List SourceFile) : Pool := { waiting := files }

/-- Is the scan over, with everything taken into account or by an interruption? -/
def ended (p : Pool) : Bool :=
  match p.tally with
  | .ok _ => p.waiting.isEmpty && p.running.isEmpty && p.finished.isEmpty
  | .error _ => true

/-- What can happen next in a scan of `total` files. -/
inductive Step (workers total : Nat) (process : SourceFile → Except Interruption FileResult) : Pool → Pool → Prop where
  /-- A free worker begins with the next file. -/
  | begin {f : SourceFile} {waiting running : List SourceFile} {finished : List (Except Interruption FileResult)}
      {tally : Except Interruption Tally} (free : running.length < workers) :
      Step workers total process ⟨f :: waiting, running, finished, tally⟩ ⟨waiting, f :: running, finished, tally⟩
  /-- A worker is done with a file. -/
  | finish {f : SourceFile} {waiting before after : List SourceFile}
      {finished : List (Except Interruption FileResult)} {tally : Except Interruption Tally} :
      Step workers total process ⟨waiting, before ++ f :: after, finished, tally⟩
        ⟨waiting, before ++ after, process f :: finished, tally⟩
  /-- A result is taken into account. -/
  | take {r : Except Interruption FileResult} {waiting running : List SourceFile}
      {before after : List (Except Interruption FileResult)} {tally : Tally} :
      Step workers total process ⟨waiting, running, before ++ r :: after, .ok tally⟩
        ⟨waiting, running, before ++ after, tally.take total r⟩

/-- What a scan can come to. -/
inductive Reaches (workers total : Nat) (process : SourceFile → Except Interruption FileResult) (p : Pool) :
    Pool → Prop where
  | here : Reaches workers total process p p
  | next {q r : Pool} (reached : Reaches workers total process p q) (step : Step workers total process q r) :
      Reaches workers total process p r

end Pool

end Outline
