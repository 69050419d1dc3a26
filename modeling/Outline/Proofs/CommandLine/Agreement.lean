/-
Module: Outline.Proofs.CommandLine.Agreement
Layer: Proofs
Purpose: The two commands agree. What a scan prints of a file is what the outline of that file prints when the scanned
  directory is its workspace, and a file that the scan reports as unparsable is refused with the same report.
Main exports: extractWith_eq, covers_of_scanDirectory, extractCommand_eq, scanCommand_eq, run_eq, exists_of_printed,
  SameOptions, ScanOf, run_of_sameOptions, run_extract_of_scan
-/
import Outline.CommandLine.Run
import Outline.Proofs.CommandLine.Shared
import Outline.Proofs.Module.Probing
import Outline.Proofs.Scan.Schedule
import Outline.Proofs.Scan.Sources

namespace Outline

open Specifier (Resolver)
open Text (joinWith)

/-!
### Outlines of one file
-/

section Outlines

variable {disk : Disk} {grammar : Grammar} {settings : Settings}

/-- A probe that finds nothing is as good as none. -/
theorem extractProbing_absent (src : Source) (path : String) (root : Node) (aliases : Specifier.Aliases)
    (options : Specifier.SearchOptions) :
    (extractProbing src path root aliases options fun _ => .absent).1 = extract src path root aliases := by
  unfold extractProbing extract
  cases accepted : acceptedSpecifiers src root with
  | error e => rfl
  | ok specs =>
      have table : (Resolver.tableProbing { aliases, options } (some fun _ => .absent) path specs).result =
          .ok (Resolver.table { aliases, options } path specs) :=
        Resolver.tableProbing_eq_table _ path specs fun _ _ => .inl rfl
      have same : ∀ spec, Resolver.resolve { aliases, options } path spec = Resolver.resolve { aliases } path spec :=
        fun _ => rfl
      have walk := processScope_congr_resolver src path "" same root
      simp only [extractFrom, outlineTree, table, walk]
      rfl

/-- The way a scan outlines a text is the way of the other command, whatever the probe. -/
theorem extractWith_eq (path text : String) : extractWith disk grammar settings path text =
    (extractProbing ⟨text⟩ path (grammar (Dialect.ofPath path) text) settings.aliases settings.search
      (makeProbe disk settings.probe settings.workspace)).1 := by
  unfold extractWith
  dsimp only
  split
  next none =>
    rw [none]
    exact (extractProbing_absent _ _ _ _ _).symm
  next => rfl

/-- What a scan of a directory tells of it. -/
theorem covers_of_scanDirectory {root : String} {entries : List (String × FileTree)} {result : ScanResult}
    {progress : List (Nat × Nat)} (found : disk.find? (Disk.absolute (disk.canonical root)) = some (.directory entries))
    (named : (FileTree.directory entries).wellNamed)
    (scanned : scanDirectory disk grammar settings root = .ok (result, progress)) :
    ∃ rules, result.Covers disk grammar settings .plain (collectSources settings rules (.directory entries)) := by
  simp only [scanDirectory, found, scannedFiles] at scanned
  obtain ⟨files, read, onward⟩ := exists_of_bind_eq_ok scanned
  obtain ⟨rules, _, collected⟩ := exists_of_bind_eq_ok read
  cases collected
  have distinct : ((collectSources settings rules (.directory entries)).map (·.path)).Nodup := collectSources_paths_nodup named
  split at onward
  next => cases onward
  next =>
    obtain ⟨t, gathered, last⟩ := exists_of_bind_eq_ok onward
    have told := congrArg (Except.map Tally.told) (CommandLine.eq_ok_of_mapError gathered)
    -- a scan that comes to its end has met with no interruption
    by_cases unbroken : ∀ f ∈ collectSources settings rules (.directory entries),
        ¬ BreaksOff disk grammar settings .plain f
    · rw [gather_of_unbroken distinct unbroken (List.Perm.refl _)] at told
      obtain ⟨same, _⟩ := Prod.mk.inj (Except.ok.inj told)
      obtain ⟨result, _⟩ := Prod.mk.inj (Except.ok.inj last)
      rw [← result, ← same]
      exact ⟨rules, ofResults_covers distinct unbroken⟩
    · push Not at unbroken
      obtain ⟨f, mem, breaksOff⟩ := unbroken
      rw [gather_of_broken mem breaksOff (List.Perm.refl _)] at told
      cases told

end Outlines

/-!
### Reports
-/

section Reports

variable {report : String}

/-- How the report of a syntax fault begins. -/
def tellsSyntaxFault (report : String) : Bool := Text.startsWith report "Failed to parse TypeScript code: "

/-- A report that tells of a syntax fault starts with an F. -/
theorem head?_of_tells (tells : tellsSyntaxFault report) : report.toList.head? = some 'F' := by
  obtain ⟨behind, text⟩ := List.isPrefixOf_iff_prefix.1 tells
  rw [← text, List.head?_append]
  rfl

/-- The first character of a text stays first when more is written behind it. -/
theorem head?_append {front : String} {c : Char} (first : front.toList.head? = some c) (behind : String) :
    (front ++ behind).toList.head? = some c := by
  rw [String.toList_append, List.head?_append, first]
  rfl

/-- A message about ill-formed bytes starts with a quote. -/
theorem head?_message (e : Text.Utf8.IllFormed) : e.message.toList.head? = some '\'' :=
  head?_append (head?_append (head?_append (by decide +kernel) _) _) _

/-- Only the report of a syntax fault begins like one. -/
theorem exists_fault_of_tells {disk : Disk} {grammar : Grammar} {settings : Settings} {f : SourceFile}
    (fails : Fails disk grammar settings .plain f report) (tells : tellsSyntaxFault report) :
    ∃ text fault, fileText f.content = .ok text ∧
      (extractWith disk grammar settings f.path text).result = .error (.unparsable fault) ∧ report = fault.report := by
  have first := head?_of_tells tells
  cases fails with
  | unreadable read => cases read
  | undecodable read decoded =>
      rw [head?_message] at first
      cases first
  | @rejected content text failure read decoded reported extracted =>
      cases read
      cases failure with
      | interrupted why => exact absurd rfl (reported why)
      | unparsable fault => exact ⟨text, fault, decoded, extracts_iff.1 extracted, rfl⟩
      | undecodable span =>
          rw [Failure.report, Undecodable.report] at first
          split at first
          · rw [head?_message] at first
            cases first
          · cases first

end Reports

namespace CommandLine

/-!
### Single commands
-/

section Commands

variable {w : World} {a b : Arguments} {document : Json} {root text : String} {settings : Settings}
  {components : List String} {content : ByteArray}

/-- The settings depend on the aliases, the probe and the configuration that are given. -/
theorem buildSettings_congr (aliases : a.aliases = b.aliases) (probe : a.probe = b.probe) (config : a.config = b.config)
    (workspace : Option String) : buildSettings w a workspace = buildSettings w b workspace := by
  unfold buildSettings
  rw [aliases, probe, config]

/-- What stands below a directory is reached from it by the names behind. -/
theorem relativeTo?_append (directory components : List String) :
    relativeTo? (directory ++ components) directory = some components := by
  induction directory with
  | nil => rw [List.nil_append, relativeTo?]
  | cons name rest ih => rw [List.cons_append, relativeTo?, if_pos rfl, ih]

/-- A file below the workspace is outlined in the way of a scan, under its path from there. -/
theorem extractCommand_eq (workspace : a.workspace = some root) (built : buildSettings w a (some root) = .ok settings)
    (below : w.disk.canonical a.target = w.disk.canonical root ++ components) (inside : components ≠ [])
    (found : w.disk.find? a.target = some (.file content)) (decoded : fileText content = .ok text) :
    extractCommand w a = ((extractWith w.disk w.grammar settings (joinWith "/" components) text).result.mapError
      Outcome.ofFailure).map Declaration.listToJson := by
  have path : reportedPath w.disk a = .ok (joinWith "/" components) := by
    simp only [reportedPath, workspace, below, relativeTo?_append, relativePath, List.isEmpty_iff, inside, if_false]
  have source : sourceText w.disk a.target = .ok text := by
    simp only [sourceText, found, decoded]
    rfl
  rw [extractCommand, workspace, built, path, source, extractWith_eq]
  dsimp only [bind, Except.bind]
  cases (extractProbing ⟨text⟩ (joinWith "/" components) (w.grammar (Dialect.ofPath (joinWith "/" components)) text)
    settings.aliases settings.search (makeProbe w.disk settings.probe settings.workspace)).1.result <;> rfl

theorem eq_error_of_map {α β ε : Type} {x : Except ε α} {f : α → β} {e : ε} (failed : x.map f = .error e) : x = .error e := by
  cases x with
  | error e' => exact congrArg _ (Except.error.inj failed)
  | ok v => cases failed

/-- What keeps a run from its settings is no document. -/
theorem buildSettings_ne_printed {workspace : Option String} :
    buildSettings w a workspace ≠ .error (.printed document) := by
  intro ended
  unfold buildSettings at ended
  cases loaded : Settings.loadSettings { environment := w.environment, file := a.config.map (configFile w.disk) } with
  | error e =>
      rw [loaded] at ended
      cases ended
  | ok s =>
      rw [loaded] at ended
      cases parsed : Specifier.parseAliases a.aliases with
      | error e =>
          simp only [bind, Except.bind, Except.mapError, parsed] at ended
          cases ended
      | ok aliases =>
          simp only [bind, Except.bind, Except.mapError, parsed] at ended
          cases ended

/-- What keeps a scan from its result is no document. -/
theorem scanCommand_ne_printed : scanCommand w a ≠ .error (.printed document) := by
  intro ended
  unfold scanCommand at ended
  cases built : buildSettings w a (some a.target) with
  | error outcome =>
      rw [built] at ended
      cases ended
      exact buildSettings_ne_printed built
  | ok settings =>
      rw [built] at ended
      cases scanned : scanDirectory w.disk w.grammar { settings with workers := a.workers.or settings.workers } a.target with
      | error e =>
          simp only [bind, Except.bind, Except.mapError, scanned] at ended
          cases ended
      | ok done =>
          simp only [bind, Except.bind, Except.mapError, scanned] at ended
          cases ended

/-- What a scan prints is the result for the directory, under settings for which it is the workspace. -/
theorem exists_of_scanCommand (ended : scanCommand w a = .ok document) :
    ∃ settings workers result progress, buildSettings w a (some a.target) = .ok settings ∧
      scanDirectory w.disk w.grammar { settings with workers } a.target = .ok (result, progress) ∧
      document = result.toJson := by
  obtain ⟨settings, built, onward⟩ := exists_of_bind_eq_ok ended
  obtain ⟨⟨result, progress⟩, scanned, last⟩ := exists_of_bind_eq_ok onward
  cases last
  exact ⟨settings, a.workers.or settings.workers, result, progress, built, eq_ok_of_mapError scanned, rfl⟩

/-- A scan prints the result for the directory. -/
theorem scanCommand_eq {result : ScanResult} {progress : List (Nat × Nat)}
    (built : buildSettings w a (some a.target) = .ok settings)
    (scanned : scanDirectory w.disk w.grammar { settings with workers := a.workers.or settings.workers } a.target =
      .ok (result, progress)) : scanCommand w a = .ok result.toJson := by
  rw [scanCommand, built]
  simp only [bind, Except.bind, scanned]
  rfl

end Commands

/-!
### Runs
-/

section Runs

variable {w : World} {command : Command} {words : List String} {sorted : Sorted} {a : Arguments} {document : Json}

/-- Words that start with the name of a command ask for that command. -/
theorem ofWords_command (disk : Disk) (command : Command) (words : List String) :
    Request.ofWords disk (command.name :: words) = Request.ofCommand disk command words := by
  cases command <;> rfl

/-- A run of words that sort and pass the checks is a run of the command on its arguments. -/
theorem run_eq (isSorted : sortWords command.options words = .ok sorted) (noHelp : .help ∉ sorted.given)
    (checked : checkArguments w.disk command sorted = .ok a) : run w (command.name :: words) =
      match runCommandLine w command a with
      | .ok document => .printed document
      | .error outcome => outcome := by
  rw [run, ofWords_command, Request.ofCommand, isSorted]
  simp only [bind, Except.bind, List.contains_eq_mem, noHelp, decide_false, Bool.false_eq_true, if_false, checked]
  rfl

/-- A run that prints a document has sorted its words. -/
theorem exists_sortWords_of_printed (printed : run w (command.name :: words) = .printed document) :
    ∃ sorted, sortWords command.options words = .ok sorted := by
  cases isSorted : sortWords command.options words with
  | ok sorted => exact ⟨sorted, rfl⟩
  | error e =>
      rw [run, ofWords_command, Request.ofCommand, isSorted] at printed
      cases printed

/-- A run that prints a document has checked its words, and its command gives the document. -/
theorem exists_of_printed (isSorted : sortWords command.options words = .ok sorted)
    (silent : ∀ a, runCommandLine w command a ≠ .error (.printed document))
    (printed : run w (command.name :: words) = .printed document) :
    ∃ a, checkArguments w.disk command sorted = .ok a ∧ runCommandLine w command a = .ok document := by
  have noHelp : .help ∉ sorted.given := by
    intro help
    rw [run, ofWords_command, Request.ofCommand, isSorted] at printed
    simp only [bind, Except.bind, List.contains_eq_mem, help, decide_true, if_true] at printed
    cases printed
  cases checked : checkArguments w.disk command sorted with
  | error e =>
      rw [run, ofWords_command, Request.ofCommand, isSorted] at printed
      simp only [bind, Except.bind, List.contains_eq_mem, noHelp, decide_false, Bool.false_eq_true, if_false,
        checked] at printed
      cases printed
  | ok a =>
      refine ⟨a, rfl, ?_⟩
      rw [run_eq isSorted noHelp checked] at printed
      cases ended : runCommandLine w command a with
      | ok document' =>
          rw [ended] at printed
          cases printed
          rfl
      | error outcome =>
          rw [ended] at printed
          exact absurd (printed ▸ ended) (silent a)

end Runs

/-!
### Agreement
-/

/-- Words of two commands that give the same entries of the alias table, the same probe and the same configuration
    file. -/
structure SameOptions (words others : Sorted) : Prop where
  aliases : others.values .aliases = words.values .aliases
  probe : others.value? .probe = words.value? .probe
  config : others.value? .config = words.value? .config

/-- The declarations that the document of a scan gives for a file. -/
def declarationsOf (document : Json) (path : String) : Option Json := do
  (← (← document.field? "files").field? path).field? "declarations"

/-- What the document of a scan says went wrong with a file. -/
def reportOf (document : Json) (path : String) : Option Json := do
  (← document.field? "errors").field? path

section Agreement

variable {w : World} {words others : List String} {scanned extracted : Sorted} {root path : String}
  {document : Json}

/-- Declarations listed for a path in the document of a scan are those of an outlined file. -/
theorem exists_of_declarationsOf {result : ScanResult} {ds : Json}
    (given : declarationsOf result.toJson path = some ds) :
    ∃ o ∈ result.files, o.path = path ∧ ds = Declaration.listToJson o.declarations := by
  have entries : declarationsOf result.toJson path =
      (Entries.get? (result.files.map fun f => (f.path, f.toJson)) path).bind (·.field? "declarations") := rfl
  rw [entries] at given
  obtain ⟨j, found, inner⟩ := Option.bind_eq_some_iff.1 given
  obtain ⟨o, mem, same⟩ := List.mem_map.1 (Entries.mem_of_get? found)
  obtain ⟨rfl, rfl⟩ := Prod.mk.inj same
  exact ⟨o, mem, rfl, (Option.some.inj inner).symm⟩

/-- A report listed for a path in the document of a scan is one of its errors. -/
theorem mem_of_reportOf {result : ScanResult} {report : String}
    (given : reportOf result.toJson path = some (.text report)) : (path, report) ∈ result.errors := by
  have entries : reportOf result.toJson path =
      Entries.get? (result.errors.map fun e => (e.1, Json.text e.2)) path := rfl
  rw [entries] at given
  obtain ⟨⟨place, report'⟩, mem, same⟩ := List.mem_map.1 (Entries.mem_of_get? given)
  obtain ⟨rfl, text⟩ := Prod.mk.inj same
  cases text
  exact mem

/-- The words of the other command are accepted with those of a scan. -/
theorem accepts_of_scan (isSorted : sortWords Command.extract.options others = .ok extracted)
    (same : SameOptions scanned extracted) (isDirectory : w.disk.isDirectory root)
    (workspace : extracted.value? .workspace = some root)
    (accepted : ∀ o ∈ scanned.given, o.accepts w.disk ((scanned.value? o).getD "")) :
    ∀ o ∈ extracted.given, o.accepts w.disk ((extracted.value? o).getD "") := by
  have carried : ∀ o, extracted.value? o = scanned.value? o → o ∈ extracted.given →
      o.accepts w.disk ((extracted.value? o).getD "") := by
    intro o value given
    rw [value]
    apply accepted o
    rw [Sorted.mem_given, ← value]
    exact Sorted.mem_given.1 given
  intro o given
  cases o with
  | workspace =>
      rw [workspace]
      exact isDirectory
  | probe => exact carried .probe same.probe given
  | config => exact carried .config same.config given
  | workers =>
      have isKnown : Choice.workers ∈ Command.extract.options := by
        obtain ⟨p, mem, isOption⟩ := List.mem_map.1 (mem_distinct.1 given)
        exact isOption ▸ sortWords_known isSorted p mem
      exact absurd isKnown (by decide)
  | aliases | debug | help => rfl

/-- What a scan that prints a document has found. -/
structure ScanOf (w : World) (scanned : Sorted) (root : String) (entries : List (String × FileTree)) (settings : Settings)
    (result : ScanResult) : Prop where
  accepted : ∀ o ∈ scanned.given, o.accepts w.disk ((scanned.value? o).getD "")
  found : w.disk.find? root = some (.directory entries)
  built : buildSettings w (scanned.checked root) (some root) = .ok settings
  covers : ∃ workers rules, result.Covers w.disk w.grammar { settings with workers } .plain
    (collectSources { settings with workers } rules (.directory entries))

/-- A scan that printed a document had settings, a directory and a result, and printed the result. -/
theorem exists_scanOf (standard : w.disk.Standard) (isScan : sortWords Command.scan.options words = .ok scanned)
    (rootOnly : scanned.arguments = [root]) (printed : run w ("scan" :: words) = .printed document) :
    ∃ entries settings result, ScanOf w scanned root entries settings result ∧ document = result.toJson := by
  have isRun : run w (Command.scan.name :: words) = .printed document := printed
  obtain ⟨a, checked, ended⟩ := exists_of_printed isScan (fun a => scanCommand_ne_printed) isRun
  obtain ⟨accepted, target, arguments, leads, rfl⟩ := checkArguments_ok_iff.1 checked
  obtain ⟨rfl, _⟩ := List.cons.inj (rootOnly.symm.trans arguments)
  obtain ⟨settings, workers, result, progress, built, scannedResult, rfl⟩ := exists_of_scanCommand ended
  obtain ⟨entries, found⟩ : ∃ entries, w.disk.find? root = some (.directory entries) := by
    have isDirectory : w.disk.isDirectory root := leads
    unfold Disk.isDirectory at isDirectory
    split at isDirectory
    next entries found => exact ⟨entries, found⟩
    next => cases isDirectory
  obtain ⟨above, trail⟩ := Disk.trail_of_find? standard found
  have again : w.disk.find? (Disk.absolute (w.disk.canonical root)) = some (.directory entries) :=
    Disk.find?_absolute trail (Disk.slashFree_canonical standard root)
  obtain ⟨rules, covers⟩ := covers_of_scanDirectory again (trail.wellNamed standard.named) scannedResult
  exact ⟨entries, settings, result, ⟨accepted, found, built, workers, rules, covers⟩, rfl⟩

/-- The run for a file of the scanned directory is the outline in the way of the scan. -/
theorem run_extract_eq (standard : w.disk.Standard) {entries : List (String × FileTree)} {settings : Settings}
    {result : ScanResult} (scan : ScanOf w scanned root entries settings result)
    (isExtract : sortWords Command.extract.options others = .ok extracted)
    (fileOnly : extracted.arguments = [joinPath root path]) (workspace : extracted.value? .workspace = some root)
    (noHelp : .help ∉ extracted.given) (same : SameOptions scanned extracted) {f : SourceFile} {text : String}
    (holds : (FileTree.directory entries).Holds f.components f.content) (place : f.path = path)
    (decoded : fileText f.content = .ok text) : run w ("extract" :: others) =
      match (extractWith w.disk w.grammar settings path text).result with
      | .ok declarations => .printed (Declaration.listToJson declarations)
      | .error failure => .ofFailure failure := by
  obtain ⟨above, trail⟩ := Disk.trail_of_find? standard scan.found
  have named : (FileTree.directory entries).wellNamed := trail.wellNamed standard.named
  have nameable : (FileTree.directory entries).nameable := trail.nameable standard.nameable
  have someRoot : root ≠ "" := by
    rintro rfl
    cases scan.found
  have joined : joinPath root path = joinPath root (joinWith "/" f.components) := by rw [← place, SourceFile.path]
  have found : w.disk.find? (joinPath root path) = some (.file f.content) := by
    rw [joined]
    exact Disk.find?_joinPath standard scan.found holds
  have isDirectory : w.disk.isDirectory root := by rw [Disk.isDirectory, scan.found]
  have isFile : w.disk.isFile (joinPath root path) := by rw [Disk.isFile, found]
  have checked : checkArguments w.disk .extract extracted = .ok (extracted.checked (joinPath root path)) :=
    checkArguments_ok_iff.2 ⟨accepts_of_scan isExtract same isDirectory workspace scan.accepted, _, fileOnly, isFile, rfl⟩
  have built : buildSettings w (extracted.checked (joinPath root path)) (some root) = .ok settings := by
    have options := buildSettings_congr (w := w) (a := extracted.checked (joinPath root path)) (b := scanned.checked root)
      same.aliases (congrArg (·.bind ProbeKind.ofName?) same.probe) same.config (some root)
    exact options.trans scan.built
  have below : w.disk.canonical (joinPath root path) = w.disk.canonical root ++ f.components := by
    rw [joined]
    exact Disk.canonical_joinPath someRoot holds.names_ne_nil (holds.slashFree named) (holds.isEntryName nameable)
  have ended := extractCommand_eq workspace built below holds.names_ne_nil found decoded
  have isRun := run_eq isExtract noHelp checked
  rw [runCommandLine, ended] at isRun
  have path' : joinWith "/" f.components = path := place
  rw [path'] at isRun
  refine isRun.trans ?_
  cases (extractWith w.disk w.grammar settings path text).result <;> rfl

/-- Whatever the words of the two commands are: if they say the same of the settings, then what a scan prints of a file
    the other command prints too, and a file that is reported as unparsable is refused with the same report. -/
theorem run_of_sameOptions (standard : w.disk.Standard)
    (isScan : sortWords Command.scan.options words = .ok scanned) (rootOnly : scanned.arguments = [root])
    (isExtract : sortWords Command.extract.options others = .ok extracted)
    (fileOnly : extracted.arguments = [joinPath root path]) (workspace : extracted.value? .workspace = some root)
    (noHelp : .help ∉ extracted.given) (same : SameOptions scanned extracted)
    (printed : run w ("scan" :: words) = .printed document) :
    (∀ ds, declarationsOf document path = some ds → run w ("extract" :: others) = .printed ds) ∧
      ∀ report, reportOf document path = some (.text report) → tellsSyntaxFault report →
        (run w ("extract" :: others)).exitCode = 1 ∧
          (run w ("extract" :: others)).stderr = "Error: " ++ report ++ "\n" := by
  obtain ⟨entries, settings, result, scan, rfl⟩ := exists_scanOf standard isScan rootOnly printed
  obtain ⟨workers, rules, covers⟩ := scan.covers
  constructor
  · intro ds given
    obtain ⟨o, mem, place, rfl⟩ := exists_of_declarationsOf given
    obtain ⟨f, isSource, content, text, declarations, read, decoded, extraction, rfl⟩ := (covers.outlined o).1 mem
    cases read
    have isRun := run_extract_eq standard scan isExtract fileOnly workspace noHelp same
      (holds_of_mem_collectSources isSource) place decoded
    have outline := extracts_iff.1 extraction
    have outline : (extractWith w.disk w.grammar settings path text).result = .ok declarations := place ▸ outline
    rw [isRun, outline]
  · intro report given tells
    obtain ⟨f, isSource, place, fails⟩ := (covers.failed path report).1 (mem_of_reportOf given)
    obtain ⟨text, fault, decoded, extraction, rfl⟩ := exists_fault_of_tells fails tells
    have isRun := run_extract_eq standard scan isExtract fileOnly workspace noHelp same
      (holds_of_mem_collectSources isSource) place decoded
    have refusal : (extractWith w.disk w.grammar settings path text).result = .error (.unparsable fault) := by
      rw [← place]
      exact extraction
    rw [isRun, refusal]
    exact ⟨rfl, rfl⟩

/-- The options of both commands make no difference between the words of the two. -/
theorem sameOptions_shared (options : List SharedOption) (root target : String) :
    SameOptions { options := options.map SharedOption.given, arguments := [root] }
      { options := (.workspace, root) :: options.map SharedOption.given, arguments := [target] } := ⟨rfl, rfl, rfl⟩

/-- What a scan of a directory other than `-` prints of a file, that the command for one file prints, with the same options
    and the directory as the workspace: it succeeds with just the declarations of a file that has an outline, and it
    refuses with the same report a file that is reported as unparsable. -/
theorem run_extract_of_scan (standard : w.disk.Standard) (options : List SharedOption) (notDash : root ≠ "-")
    (printed : run w ("scan" :: scanWords options root) = .printed document) :
    (run w ("scan" :: scanWords options root)).exitCode = 0 ∧
      (run w ("scan" :: scanWords options root)).stdout = document.pretty ++ "\n" ∧
      (∀ ds, declarationsOf document path = some ds →
        (run w ("extract" :: extractWords options (joinPath root path) root)).exitCode = 0 ∧
          (run w ("extract" :: extractWords options (joinPath root path) root)).stdout = ds.pretty ++ "\n") ∧
      ∀ report, reportOf document path = some (.text report) → tellsSyntaxFault report →
        (run w ("extract" :: extractWords options (joinPath root path) root)).exitCode = 1 ∧
          (run w ("extract" :: extractWords options (joinPath root path) root)).stderr = "Error: " ++ report ++ "\n" := by
  have isRun : run w (Command.scan.name :: scanWords options root) = .printed document := printed
  obtain ⟨scanned, isScan⟩ := exists_sortWords_of_printed isRun
  obtain ⟨a, checked, _⟩ := exists_of_printed isScan (fun a => scanCommand_ne_printed) isRun
  obtain ⟨_, _, rootOnly, _⟩ := checkArguments_ok_iff.1 checked
  obtain ⟨isArgument, _, rfl⟩ := sortWords_scanWords isScan rootOnly
  obtain ⟨entries, _, _, scan, _⟩ := exists_scanOf standard isScan rfl printed
  have written : root ≠ "" := by
    rintro rfl
    cases scan.found
  have target : IsArgument (joinPath root path) := by
    unfold joinPath
    split
    next => exact isArgument.append written notDash path
    next =>
      rw [String.append_assoc]
      exact isArgument.append written notDash _
  have isExtract := sortWords_extractWords target options root
  obtain ⟨shown, refused⟩ := run_of_sameOptions standard isScan rfl isExtract rfl
    (workspace_shared options root _) (help_notMem_shared options root _) (sameOptions_shared options root _) printed
  refine ⟨by rw [printed]; rfl, by rw [printed]; rfl, ?_, refused⟩
  intro ds given
  rw [shown ds given]
  exact ⟨rfl, rfl⟩

end Agreement

/-!
### Directories of two files
-/

/-- A parser that knows one text. -/
def pairGrammar : Grammar := fun _ text =>
  if text = passedOnSource.text then passedOnTree else .construct "ERROR" none 0 1 []

/-- A directory with a file that the parser knows and one that it does not. -/
def pairEntries : List (String × FileTree) :=
  [("a.ts", .file passedOnSource.text.toUTF8), ("b.ts", .file "!".toUTF8)]

/-- The files of `pairEntries`. -/
def pairFiles : List SourceFile := [⟨["a.ts"], passedOnSource.text.toUTF8⟩, ⟨["b.ts"], "!".toUTF8⟩]

/-- A machine with that directory under two names, one of which looks like the beginning of an option. -/
def pairWorld : World :=
  { disk := { root := .directory [("-", .directory pairEntries), ("p", .directory pairEntries)] }, grammar := pairGrammar }

/-- The option that has files looked for. -/
def byPath : SharedOption := { choice := .probe, value := "path", shared := .inr (.inl rfl) }

/-- The settings of a scan of the directory with that option. -/
def pairSettings (root : String) : Settings := { probe := .path, workspace := some ("/" ++ root) }

/-- The report on the unknown file. -/
def pairReport : String := "Failed to parse TypeScript code: syntax error at line 1, column 1 near '!'"

/-- What is printed of the known file. -/
def pairShown : String := joinWith "\n"
  ["[", "  \x7b", "    \"name\": \"A\",", "    \"kind\": \"const\",", "    \"isExported\": true,",
    "    \"isDefault\": false,", "    \"isReExport\": true,", "    \"reExportSource\": \"m\",",
    "    \"position\": \x7b", "      \"start\": \x7b", "        \"line\": 1,", "        \"column\": 20", "      \x7d,",
    "      \"end\": \x7b", "        \"line\": 1,", "        \"column\": 29", "      \x7d", "    \x7d,",
    "    \"uri\": \"a.ts#A\",", "    \"typeSignature\": \"export\x7bA\x7d\",", "    \"dependencies\": [", "      \x7b",
    "        \"type\": \"internal\",", "        \"filePath\": \"m\",", "        \"dependsOn\": [", "          \"A\"",
    "        ]", "      \x7d", "    ]", "  \x7d", "]"]

theorem standard_pairWorld : pairWorld.disk.Standard where
  named := by decide +kernel
  nameable := by decide +kernel
  cwdNames := by decide
  cwdFree := by decide

theorem scannedFiles_pairEntries (root : String) :
    scannedFiles (pairSettings root) (.directory pairEntries) = .ok pairFiles := by
  have noRules : loadRules (pairSettings root).ignoredDirectories (.directory pairEntries) = .ok [] := by
    simp [loadRules, ignoreFiles, ignoreFilesIn, ignoreFilesAmong, ignoreFile?, pairEntries, Ignore.combineFiles]
  have collected : collectSources (pairSettings root) [] (.directory pairEntries) = pairFiles := by
    simp only [collectSources, FileTree.sources, foundAt, foundAmong, pairEntries, arrange]
    rw [List.mergeSort_of_pairwise (by decide +kernel)]
    rfl
  rw [scannedFiles, noRules]
  exact congrArg _ collected

section Pair

variable {root : String}

/-- The known file passes one name on. -/
theorem extracts_pairKnown (named : root = "-" ∨ root = "p") : ∃ ds,
    Extracts pairWorld.disk pairGrammar (pairSettings root) "a.ts" passedOnSource.text (.ok ds) ∧
      (Declaration.listToJson ds).pretty = pairShown := by
  have shown : ((extractWith pairWorld.disk pairGrammar (pairSettings root) "a.ts" passedOnSource.text).result.map fun ds =>
      (Declaration.listToJson ds).pretty) = .ok pairShown := by
    rcases named with rfl | rfl <;> decide +kernel
  obtain ⟨ds, extracted, same⟩ := exists_of_map_eq_ok shown
  exact ⟨ds, extracts_iff.2 extracted, same⟩

/-- The other is unparsable. -/
theorem fails_pairUnknown (named : root = "-" ∨ root = "p") :
    Fails pairWorld.disk pairGrammar (pairSettings root) .plain ⟨["b.ts"], "!".toUTF8⟩ pairReport := by
  have refused : ((extractWith pairWorld.disk pairGrammar (pairSettings root) "b.ts" "!").result.map fun _ => ()) =
      .error (.unparsable (.unreadable 1 1 (some "!"))) := by
    rcases named with rfl | rfl <;> decide +kernel
  have extracted : Extracts pairWorld.disk pairGrammar (pairSettings root) "b.ts" "!"
      (.error (.unparsable (.unreadable 1 1 (some "!")))) := extracts_iff.2 (eq_error_of_map refused)
  have decoded : fileText "!".toUTF8 = .ok "!" := by decide +kernel
  have told : ∀ why, Failure.unparsable (.unreadable 1 1 (some "!")) ≠ .interrupted why := fun _ => nofun
  have report : pairReport = (SyntaxFault.unreadable 1 1 (some "!")).report := by decide +kernel
  rw [report]
  exact .rejected rfl decoded told extracted

/-- Scanning the pair outlines the first file and reports the second. -/
theorem scanDirectory_pair (named : root = "-" ∨ root = "p") : ∃ o progress, o.path = "a.ts" ∧
    (Declaration.listToJson o.declarations).pretty = pairShown ∧
      scanDirectory pairWorld.disk pairGrammar (pairSettings root) root =
        .ok ({ files := [o], errors := [("b.ts", pairReport)] }, progress) := by
  obtain ⟨ds, extracted, shown⟩ := extracts_pairKnown named
  have decoded : fileText passedOnSource.text.toUTF8 = .ok passedOnSource.text := by decide +kernel
  let o : FileOutline := { path := "a.ts", hash := sha256 passedOnSource.text.toUTF8, declarations := ds }
  have outlines : Outlines pairWorld.disk pairGrammar (pairSettings root) .plain ⟨["a.ts"], passedOnSource.text.toUTF8⟩ o :=
    ⟨_, passedOnSource.text, ds, rfl, decoded, extracted, rfl⟩
  let results : List FileResult := [⟨"a.ts", .ok o⟩, ⟨"b.ts", .error pairReport⟩]
  have processed : pairFiles.map (processFile pairWorld.disk pairGrammar (pairSettings root) .plain) = results.map .ok := by
    simp only [pairFiles, List.map_cons, List.map_nil, processFile_ok_iff.2 outlines,
      processFile_error_iff.2 (fails_pairUnknown named)]
    rfl
  have gathered := Tally.gather_ok results
  rw [← processed] at gathered
  have told : (Tally.ofResults results).result = { files := [o], errors := [("b.ts", pairReport)] } := by
    simp only [results, Tally.ofResults, List.foldl_cons, List.foldl_nil, Tally.add, Tally.result, sortedBy,
      List.nil_append, List.mergeSort_singleton, Entries.put]
  have found : pairWorld.disk.find? (Disk.absolute (pairWorld.disk.canonical root)) = some (.directory pairEntries) := by
    rcases named with rfl | rfl <;> rfl
  refine ⟨o, (Tally.ofResults results).progress, rfl, shown, ?_⟩
  rw [← told]
  simp only [scanDirectory, found, scannedFiles_pairEntries, bind, Except.bind, gathered]
  rfl

/-- The settings of the pair, for either spelling of the root. -/
theorem buildSettings_pair (named : root = "-" ∨ root = "p") :
    buildSettings pairWorld { target := root, probe := some .path } (some root) = .ok (pairSettings root) := by
  have loaded : Settings.loadSettings {} = .ok {} := by decide +kernel
  change (do
    let s ← (Settings.loadSettings {}).mapError fun e => Outcome.broken (.settings e)
    let aliases ← (Specifier.parseAliases []).mapError fun e => .refused (.badAlias e)
    return overrideSettings pairWorld.disk s aliases (some root) (some .path)) = _
  rw [loaded]
  rcases named with rfl | rfl <;> rfl

/-- What a scan of the directory prints. -/
theorem run_scan_pair (named : root = "-" ∨ root = "p") : ∃ document ds,
    run pairWorld ("scan" :: scanWords [byPath] root) = .printed document ∧
      declarationsOf document "a.ts" = some ds ∧ ds.pretty = pairShown ∧
      reportOf document "b.ts" = some (.text pairReport) := by
  obtain ⟨o, progress, place, shown, scanned⟩ := scanDirectory_pair named
  have isScan : sortWords Command.scan.options (scanWords [byPath] root) =
      .ok { options := [(.probe, "path")], arguments := [root] } := by
    rcases named with rfl | rfl <;> decide +kernel
  have checked : checkArguments pairWorld.disk .scan { options := [(.probe, "path")], arguments := [root] } =
      .ok { target := root, probe := some .path } := by
    rcases named with rfl | rfl <;> decide +kernel
  have noHelp : Choice.help ∉ distinct [Choice.probe] := by decide
  have isRun := run_eq isScan noHelp checked
  rw [runCommandLine, scanCommand_eq (buildSettings_pair named) scanned] at isRun
  refine ⟨_, Declaration.listToJson o.declarations, isRun, ?_, shown, rfl⟩
  simp [declarationsOf, ScanResult.toJson, Json.field?, Entries.get?, place, FileOutline.toJson]

end Pair

/-- The scan prints the outline of one file and the report on the other, and so do the runs for the files. -/
theorem run_extract_of_scan_pair :
    scanWords [byPath] "p" = ["--probe", "path", "p"] ∧
      extractWords [byPath] (joinPath "p" "a.ts") "p" = ["p/a.ts", "--workspace", "p", "--probe", "path"] ∧
      (run pairWorld ["extract", "p/a.ts", "--workspace", "p", "--probe", "path"]).exitCode = 0 ∧
      (run pairWorld ["extract", "p/a.ts", "--workspace", "p", "--probe", "path"]).stdout = pairShown ++ "\n" ∧
      (run pairWorld ["extract", "p/b.ts", "--workspace", "p", "--probe", "path"]).exitCode = 1 ∧
      (run pairWorld ["extract", "p/b.ts", "--workspace", "p", "--probe", "path"]).stderr =
        "Error: " ++ pairReport ++ "\n" := by
  obtain ⟨document, ds, printed, outlined, shown, reported⟩ := run_scan_pair (.inr rfl)
  have known : extractWords [byPath] (joinPath "p" "a.ts") "p" =
      ["p/a.ts", "--workspace", "p", "--probe", "path"] := by decide +kernel
  have unknown : extractWords [byPath] (joinPath "p" "b.ts") "p" =
      ["p/b.ts", "--workspace", "p", "--probe", "path"] := by decide +kernel
  obtain ⟨exits, prints⟩ :=
    (run_extract_of_scan standard_pairWorld [byPath] (by decide) printed).2.2.1 ds outlined
  obtain ⟨refuses, tells⟩ :=
    (run_extract_of_scan standard_pairWorld [byPath] (by decide) printed).2.2.2 pairReport reported (by decide +kernel)
  rw [known] at exits prints
  rw [unknown] at refuses tells
  rw [shown] at prints
  exact ⟨by decide +kernel, known, exits, prints, refuses, tells⟩

/-- A directory named `-` is scanned, but a path into it is read as options. -/
theorem run_extract_dashRoot : ∃ document ds,
    run pairWorld ("scan" :: scanWords [byPath] "-") = .printed document ∧
      declarationsOf document "a.ts" = some ds ∧ ds.pretty = pairShown ∧
      (run pairWorld ("extract" :: extractWords [byPath] (joinPath "-" "a.ts") "-")).exitCode = 2 ∧
      (run pairWorld ("extract" :: extractWords [byPath] (joinPath "-" "a.ts") "-")).stdout = "" := by
  obtain ⟨document, ds, printed, outlined, shown, _⟩ := run_scan_pair (.inl rfl)
  exact ⟨document, ds, printed, outlined, shown, by decide +kernel, by decide +kernel⟩

end CommandLine

end Outline
