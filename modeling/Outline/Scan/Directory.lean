/-
Module: Outline.Scan.Directory
Layer: Scan
Purpose: Scanning a directory: each source file is outlined on its own, the results are taken into account as they
  come, and in the end put in the order of their paths. A file that fails is reported and stops no other; a probe that
  breaks off stops the scan.
Main exports: Grammar, FileOutline, FileResult, Reader, processFile, ScanResult, Tally, ScanError, scanDirectory
-/
import Outline.Hash.Sha256
import Outline.Module.Extract
import Outline.Scan.Collect
import Outline.Tree.Dialect

namespace Outline

open Ignore (PatternError)
open Specifier (Interruption)

/-- A parser: the syntax tree of a text in a dialect. -/
abbrev Grammar := Dialect → String → Node

/-- Text of a file: its bytes decoded, with unified line breaks. -/
def fileText (content : ByteArray) : Except Text.Utf8.IllFormed String :=
  (Text.Utf8.decode content).map fun s => String.ofList (Text.unifyBreaks s.toList)

/-- Report of a span that cuts a character, as an ill-formed byte sequence. -/
def Undecodable.report (src : Source) (span : Undecodable) : String :=
  match Text.Utf8.decode (src.bytes.extract span.start span.stop) with
  | .error e => e.message
  | .ok _ => ""

/-- Report of a failure. -/
def Failure.report (src : Source) : Failure → String
  | .unparsable fault => fault.report
  | .undecodable span => span.report src
  | .interrupted why => why.message

/-- The outline of a text under the settings: specifiers are confirmed unless probing is off. -/
def extractWith (disk : Disk) (grammar : Grammar) (settings : Settings) (path text : String) : Extraction :=
  let src : Source := ⟨text⟩
  let root := grammar (Dialect.ofPath path) text
  if settings.probe = .none then extract src path root settings.aliases
  else
    (extractProbing src path root settings.aliases settings.search
      (makeProbe disk settings.probe settings.workspace)).1

/-- What a scan tells of a file. -/
structure FileOutline where
  path : String
  hash : String
  declarations : List Declaration

/-- The result for one file: its outline, or the report of what went wrong. -/
structure FileResult where
  path : String
  outcome : Except String FileOutline

/-- What comes of reading the bytes of a file: these, or the report of a system that cannot give them. -/
abbrev Reader := SourceFile → Except String ByteArray

/-- The reader of a disk on which every file can be read. -/
def Reader.plain : Reader := fun f => .ok f.content

/-- Bytes and text of a file, or the report of what is wrong with them. -/
def readSource (reader : Reader) (f : SourceFile) : Except String (ByteArray × String) := do
  let content ← reader f
  let text ← (fileText content).mapError Text.Utf8.IllFormed.message
  return (content, text)

/-- Outline one file. -/
def processFile (disk : Disk) (grammar : Grammar) (settings : Settings) (reader : Reader) (f : SourceFile) :
    Except Interruption FileResult :=
  match readSource reader f with
  | .error report => .ok { path := f.path, outcome := .error report }
  | .ok (content, text) =>
    match (extractWith disk grammar settings f.path text).result with
    | .ok declarations =>
      .ok { path := f.path, outcome := .ok { path := f.path, hash := sha256 content, declarations } }
    | .error (.interrupted why) => .error why
    | .error failure => .ok { path := f.path, outcome := .error (failure.report ⟨text⟩) }

/-- Elements in the order of their keys. -/
def sortedBy {α : Type} (key : α → String) (as : List α) : List α := as.mergeSort fun a b => decide (key a ≤ key b)

/-- The result of a scan. -/
structure ScanResult where
  files : List FileOutline := []
  /-- Paths of the files that failed, with the reports. -/
  errors : List (String × String) := []

/-- What is known of a scan after some of its files. -/
structure Tally where
  processed : Nat := 0
  files : List FileOutline := []
  /-- Paths of the files that failed, with the reports. -/
  errors : Entries String := []
  /-- Progress reports: how many files of how many are done. -/
  progress : List (Nat × Nat) := []

namespace Tally

/-- Take the result of one more file of a scan into account, and report on the progress. -/
def add (total : Nat) (t : Tally) (r : FileResult) : Tally :=
  let t := { t with processed := t.processed + 1, progress := t.progress ++ [(t.processed + 1, total)] }
  match r.outcome with
  | .ok outline => { t with files := t.files ++ [outline] }
  | .error report => { t with errors := Entries.put t.errors r.path report }

/-- Take what came of one more file into account; an interruption ends the scan. -/
def take (total : Nat) (t : Tally) (r : Except Interruption FileResult) : Except Interruption Tally :=
  r.map (t.add total)

/-- The results of a scan, taken into account in the order in which they come. -/
def gather (results : List (Except Interruption FileResult)) : Except Interruption Tally :=
  results.foldlM (take results.length) {}

/-- The result of a scan, in the order of the paths. -/
def result (t : Tally) : ScanResult := { files := sortedBy (·.path) t.files, errors := sortedBy (·.1) t.errors }

end Tally

/-- Why a scan could not be made. -/
inductive ScanError where
  | badPattern (e : PatternError)
  /-- There must be at least one worker. -/
  | noWorkers
  | interrupted (why : Interruption)
deriving DecidableEq, Repr, Inhabited

/-- The files that a scan of a tree reads. -/
def scannedFiles (settings : Settings) (tree : FileTree) : Except ScanError (List SourceFile) := do
  let rules ← (loadRules settings.ignoredDirectories tree).mapError .badPattern
  return collectSources settings rules tree

/-- Scan a directory, with the progress reports. What is no directory has nothing in it. -/
def scanDirectory (disk : Disk) (grammar : Grammar) (settings : Settings) (root : String)
    (reader : Reader := .plain) : Except ScanError (ScanResult × List (Nat × Nat)) :=
  match disk.find? (Disk.absolute (disk.canonical root)) with
  | some (.directory entries) => do
    let files ← scannedFiles settings (.directory entries)
    if settings.workers.any (· < 1) then throw .noWorkers
    let t ← (Tally.gather (files.map (processFile disk grammar settings reader))).mapError .interrupted
    return (t.result, t.progress)
  | _ => return ({}, [])

end Outline
