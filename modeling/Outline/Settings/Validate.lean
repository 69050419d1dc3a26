/-
Module: Outline.Settings.Validate
Layer: Settings
Purpose: From what the sources say to settings. Every entry is checked against the type of its setting, and all
  faults are reported together, each with the place where it is.
Main exports: IssueKind, Issue, Checked, fieldNames, resolverFieldNames, validate, issuesReport
-/
import Outline.Settings.Basic
import Outline.Settings.Numeral
import Outline.Settings.Value
import Outline.Text.Blank

namespace Outline

/-- What is wrong with an entry. -/
inductive Settings.IssueKind where
  | notText
  /-- A text with half of a code point. -/
  | notUnicode
  | notList
  | notSet
  | notMap
  | notSection
  | notChoice
  | unknownKey
  | notInteger
  | unreadableInteger
  | integerTooLarge
  | fractionalInteger
  | notFinite
deriving DecidableEq, Repr, Inhabited

namespace Settings

/-- Code of a fault. -/
def IssueKind.code : IssueKind → String
  | .notText => "string_type"
  | .notUnicode => "string_unicode"
  | .notList => "list_type"
  | .notSet => "set_type"
  | .notMap => "dict_type"
  | .notSection => "model_type"
  | .notChoice => "enum"
  | .unknownKey => "extra_forbidden"
  | .notInteger => "int_type"
  | .unreadableInteger => "int_parsing"
  | .integerTooLarge => "int_parsing_size"
  | .fractionalInteger => "int_from_float"
  | .notFinite => "finite_number"

/-- A fault and the keys and indexes that lead to it. -/
structure Issue where
  location : List String
  kind : IssueKind
deriving DecidableEq, Repr, Inhabited

/-- A fault in one line. -/
def Issue.report (i : Issue) : String := Text.joinWith "." i.location ++ ":" ++ i.kind.code

/-- All faults in one line, in order. -/
def issuesReport (issues : List Issue) : String :=
  Text.joinWith "; " ((issues.map Issue.report).mergeSort fun a b => decide (a ≤ b))

/-- A checked entry: its value, or its faults. -/
abbrev Checked (α : Type) := Except (List Issue) α

/-- One fault. -/
def fault {α : Type} (location : List String) (kind : IssueKind) : Checked α := .error [⟨location, kind⟩]

/-- The faults of a checked entry. -/
def faults {α : Type} : Checked α → List Issue
  | .ok _ => []
  | .error issues => issues

/-- Check all of some entries; the faults of all of them count. -/
def checkAll {α β : Type} (check : α → Checked β) : List α → Checked (List β)
  | [] => .ok []
  | a :: as =>
    match check a, checkAll check as with
    | .ok b, .ok bs => .ok (b :: bs)
    | .ok _, .error issues => .error issues
    | .error issues, .ok _ => .error issues
    | .error issues, .error more => .error (issues ++ more)

/-!
### Checks by type
-/

/-- A text. -/
def checkText (location : List String) : Value → Checked String
  | .text s => .ok s
  | .brokenText => fault location .notUnicode
  | _ => fault location .notText

/-- A text or nothing. -/
def checkOptionalText (location : List String) : Value → Checked (Option String)
  | .null => .ok none
  | .text s => .ok (some s)
  | .brokenText => fault location .notUnicode
  | _ => fault location .notText

/-- Items with their places in a list. -/
def indexed (location : List String) (items : List Value) : List (List String × Value) :=
  items.zipIdx.map fun (v, i) => (location ++ [toString i], v)

/-- A list of texts. -/
def checkTexts (location : List String) : Value → Checked (List String)
  | .list items => checkAll (fun (place, v) => checkText place v) (indexed location items)
  | _ => fault location .notList

/-- A set of texts; repetitions are dropped. -/
def checkTextSet (location : List String) : Value → Checked (List String)
  | .list items => (checkAll (fun (place, v) => checkText place v) (indexed location items)).map distinct
  | _ => fault location .notSet

/-- A map from texts to texts. -/
def checkTextMap (location : List String) : Value → Checked (Entries String)
  | .table entries =>
    checkAll (fun (key, v) => (checkText (location ++ [key]) v).map (key, ·)) entries
  | _ => fault location .notMap

/-- The name of a kind of probe. -/
def checkProbe (location : List String) : Value → Checked ProbeKind
  | .text name =>
    match ProbeKind.ofName? name with
    | some kind => .ok kind
    | none => fault location .notChoice
  | _ => fault location .notChoice

/-- An integer, in one of the forms that mean one, or nothing. -/
def checkOptionalInteger (location : List String) : Value → Checked (Option Int)
  | .null => .ok none
  | .bool b => .ok (some (if b then 1 else 0))
  | .int n => .ok (some n)
  | .real r =>
    match r.whole with
    | .integer n => .ok (some n)
    | .tooLarge => fault location .integerTooLarge
    | .fraction => fault location .fractionalInteger
    | .notFinite => fault location .notFinite
  | .text s =>
    match Numeral.read s with
    | .integer n => .ok (some n)
    | .tooLong => fault location .integerTooLarge
    | .unreadable => fault location .unreadableInteger
  | .brokenText => fault location .notUnicode
  | _ => fault location .notInteger

/-!
### The settings
-/

/-- Names of the settings, in order. -/
def fieldNames : List String :=
  ["path_aliases", "resolver", "source_extensions", "ignored_dirs", "scanner_num_workers"]

/-- Names of the settings of the resolver section, in order. -/
def resolverFieldNames : List String := ["extensions", "index_files", "workspace_dir", "probe"]

/-- An entry of a table if it is there, else a default. -/
def entryOr {α : Type} (table : RawTable) (location : List String) (key : String) (fallback : α)
    (check : List String → Value → Checked α) : Checked α :=
  match Entries.get? table key with
  | some v => check (location ++ [key]) v
  | none => .ok fallback

/-- Keys of a table that are no setting. -/
def unknownKeys (table : RawTable) : List Issue :=
  ((Entries.keys table).filter fun k => !fieldNames.contains k).map fun k => ⟨[k], .unknownKey⟩

/-- Check the resolver section and set what it says. Unknown keys are passed over, and an object is taken as it is. -/
def checkResolver (defaults : Settings) (location : List String) : Value → Checked Settings
  | .checked r => .ok { defaults with search := r.search, workspace := r.workspace, probe := r.probe }
  | .table entries =>
    let extensions := entryOr entries location "extensions" defaults.search.extensions checkTexts
    let indexFiles := entryOr entries location "index_files" defaults.search.indexFiles checkTexts
    let workspace := entryOr entries location "workspace_dir" defaults.workspace checkOptionalText
    let probe := entryOr entries location "probe" defaults.probe checkProbe
    match extensions, indexFiles, workspace, probe with
    | .ok extensions, .ok indexFiles, .ok workspace, .ok probe =>
      .ok { defaults with search := { extensions, indexFiles }, workspace, probe }
    | _, _, _, _ => .error (faults extensions ++ faults indexFiles ++ faults workspace ++ faults probe)
  | _ => fault location .notSection

/-- Check what the sources say together. -/
def validate (table : RawTable) : Checked Settings :=
  let defaults : Settings := {}
  let aliases := entryOr table [] "path_aliases" defaults.aliases checkTextMap
  let resolver := entryOr table [] "resolver" defaults (checkResolver defaults)
  let extensions := entryOr table [] "source_extensions" defaults.sourceExtensions checkTexts
  let ignored := entryOr table [] "ignored_dirs" defaults.ignoredDirectories checkTextSet
  let workers := entryOr table [] "scanner_num_workers" defaults.workers checkOptionalInteger
  match unknownKeys table, aliases, resolver, extensions, ignored, workers with
  | [], .ok aliases, .ok resolver, .ok sourceExtensions, .ok ignoredDirectories, .ok workers =>
    .ok { resolver with aliases, sourceExtensions, ignoredDirectories, workers }
  | unknown, _, _, _, _, _ =>
    .error (unknown ++ faults aliases ++ faults resolver ++ faults extensions ++ faults ignored ++ faults workers)

end Settings

end Outline
