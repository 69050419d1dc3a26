/-
Module: Outline.Proofs.Scan.Schedule
Layer: Proofs
Purpose: A scan comes to the same end however its workers are scheduled. As long as the probe does not break off over a
  file, the result holds of every file either the outline or the report of what went wrong, in the order of the paths,
  and what becomes of one file does not depend on any other. Where it does break off, so does the scan.
Main exports: Extracts, Outlines, Fails, BreaksOff, Processed, ScanResult.Covers, Pool.Accounted,
  Pool.Reaches.accounted, Pool.step_of_not_ended, Pool.Step.work_lt, Settled, scanDirectory_of_any_schedule
-/
import Outline.Proofs.Disk.Probes
import Outline.Proofs.Module.Attribution
import Outline.Proofs.Scan.Paths
import Outline.Proofs.Scan.Tally
import Outline.Proofs.Tree.Inside
import Outline.Scan.Pool

namespace Outline

open Specifier (Interruption)

section Files

variable {disk : Disk} {grammar : Grammar} {settings : Settings} {reader : Reader}

/-!
### Single files
-/

/-- What extraction from the text of a file comes to: specifiers are resolved by text alone if probing is off, and else
    through the probe of the settings. -/
inductive Extracts (disk : Disk) (grammar : Grammar) (settings : Settings) (path text : String) :
    Except Failure (List Declaration) → Prop where
  | textual (off : settings.probe = .none) : Extracts disk grammar settings path text
      (extract ⟨text⟩ path (grammar (Dialect.ofPath path) text) settings.aliases).result
  | probed (on : settings.probe ≠ .none) : Extracts disk grammar settings path text
      (extractProbing ⟨text⟩ path (grammar (Dialect.ofPath path) text) settings.aliases settings.search
        (makeProbe disk settings.probe settings.workspace)).1.result

/-- A text extracts to the result that the outline of it has. -/
theorem extracts_iff {path text : String} {result : Except Failure (List Declaration)} :
    Extracts disk grammar settings path text result ↔ (extractWith disk grammar settings path text).result = result := by
  unfold extractWith
  constructor
  · rintro (off | on)
    · rw [if_pos off]
    · rw [if_neg on]
  · rintro rfl
    split
    next off => exact .textual off
    next on => exact .probed on

/-- The only interruption is that of a command by a zero character. -/
theorem Extracts.zeroCharacter {path text : String} {why : Interruption}
    (extracts : Extracts disk grammar settings path text (.error (.interrupted why))) : why = .zeroCharacter := by
  rw [extracts_iff, extractWith] at extracts
  split at extracts
  next => exact absurd extracts (extract_answered _ _ _ _ why)
  next =>
    have probed := extractProbing_probed ⟨text⟩ path (grammar (Dialect.ofPath path) text) settings.aliases
      settings.search (makeProbe disk settings.probe settings.workspace)
    generalize extractProbing ⟨text⟩ path (grammar (Dialect.ofPath path) text) settings.aliases settings.search
      (makeProbe disk settings.probe settings.workspace) = outcome at extracts probed
    cases probed with
    | answered _ answered => exact absurd extracts (answered why)
    | cut _ breaks =>
        cases extracts
        exact (makeProbe_eq_interrupted_iff.1 breaks).1

/-- A file has an outline: its bytes are read, their text is decoded and extracted from, and the hash is that of the
    bytes. -/
def Outlines (disk : Disk) (grammar : Grammar) (settings : Settings) (reader : Reader) (f : SourceFile)
    (o : FileOutline) : Prop :=
  ∃ content text declarations, reader f = .ok content ∧ fileText content = .ok text ∧
    Extracts disk grammar settings f.path text (.ok declarations) ∧
    o = { path := f.path, hash := sha256 content, declarations }

/-- A file fails with a report. -/
inductive Fails (disk : Disk) (grammar : Grammar) (settings : Settings) (reader : Reader) (f : SourceFile) :
    String → Prop where
  | unreadable {report : String} (read : reader f = .error report) : Fails disk grammar settings reader f report
  | undecodable {content : ByteArray} {e : Text.Utf8.IllFormed} (read : reader f = .ok content)
      (decoded : fileText content = .error e) : Fails disk grammar settings reader f e.message
  | rejected {content : ByteArray} {text : String} {failure : Failure} (read : reader f = .ok content)
      (decoded : fileText content = .ok text) (reported : ∀ why, failure ≠ .interrupted why)
      (extracted : Extracts disk grammar settings f.path text (.error failure)) :
      Fails disk grammar settings reader f (failure.report ⟨text⟩)

/-- The probe breaks off over a file. -/
def BreaksOff (disk : Disk) (grammar : Grammar) (settings : Settings) (reader : Reader) (f : SourceFile) : Prop :=
  ∃ content text why, reader f = .ok content ∧ fileText content = .ok text ∧
    Extracts disk grammar settings f.path text (.error (.interrupted why))

/-- What came of a file, told by its result. -/
inductive Processed (disk : Disk) (grammar : Grammar) (settings : Settings) (reader : Reader) (f : SourceFile) :
    Except Interruption FileResult → Prop where
  | outlined {o : FileOutline} (outlines : Outlines disk grammar settings reader f o) :
      Processed disk grammar settings reader f (.ok { path := f.path, outcome := .ok o })
  | failed {report : String} (fails : Fails disk grammar settings reader f report) :
      Processed disk grammar settings reader f (.ok { path := f.path, outcome := .error report })
  | interrupted (breaksOff : BreaksOff disk grammar settings reader f) :
      Processed disk grammar settings reader f (.error .zeroCharacter)

theorem readSource_ok {f : SourceFile} {content : ByteArray} {text : String} (read : reader f = .ok content)
    (decoded : fileText content = .ok text) : readSource reader f = .ok (content, text) := by
  simp only [readSource, read, decoded, bind, Except.bind, Except.mapError]
  rfl

/-- A file has an outline or fails, or the probe breaks off over it. -/
theorem processFile_processed (disk : Disk) (grammar : Grammar) (settings : Settings) (reader : Reader)
    (f : SourceFile) : Processed disk grammar settings reader f (processFile disk grammar settings reader f) := by
  cases read : reader f with
  | error report =>
      have unread : readSource reader f = .error report := by simp only [readSource, read, bind, Except.bind]
      rw [processFile, unread]
      exact .failed (.unreadable read)
  | ok content =>
      cases decoded : fileText content with
      | error e =>
          have unread : readSource reader f = .error e.message := by
            simp only [readSource, read, decoded, bind, Except.bind, Except.mapError]
          rw [processFile, unread]
          exact .failed (.undecodable read decoded)
      | ok text =>
          rw [processFile, readSource_ok read decoded]
          dsimp only
          split
          next declarations extracted =>
            exact .outlined ⟨content, text, declarations, read, decoded, extracts_iff.2 extracted, rfl⟩
          next why extracted =>
            have extracts := extracts_iff.2 extracted
            cases extracts.zeroCharacter
            exact .interrupted ⟨content, text, .zeroCharacter, read, decoded, extracts⟩
          next failure reported extracted =>
            exact .failed (.rejected read decoded reported (extracts_iff.2 extracted))

/-- None of the three excludes what the result tells. -/
theorem Processed.eq {f : SourceFile} {r : Except Interruption FileResult}
    (processed : Processed disk grammar settings reader f r) : processFile disk grammar settings reader f = r := by
  cases processed with
  | outlined outlines =>
      obtain ⟨content, text, declarations, read, decoded, extracted, rfl⟩ := outlines
      simp only [processFile, readSource_ok read decoded, extracts_iff.1 extracted]
  | failed fails =>
      cases fails with
      | unreadable read => simp only [processFile, readSource, read, bind, Except.bind]
      | undecodable read decoded =>
          simp only [processFile, readSource, read, decoded, bind, Except.bind, Except.mapError]
      | @rejected content text failure read decoded reported extracted =>
          simp only [processFile, readSource_ok read decoded, extracts_iff.1 extracted]
  | interrupted breaksOff =>
      obtain ⟨content, text, why, read, decoded, extracted⟩ := breaksOff
      cases extracted.zeroCharacter
      simp only [processFile, readSource_ok read decoded, extracts_iff.1 extracted]

/-- A file gives an outline where it is read and its text extracts to declarations. -/
theorem processFile_ok_iff {f : SourceFile} {o : FileOutline} :
    processFile disk grammar settings reader f = .ok { path := f.path, outcome := .ok o } ↔
      Outlines disk grammar settings reader f o := by
  refine ⟨fun done => ?_, fun outlines => (Processed.outlined outlines).eq⟩
  have processed := processFile_processed disk grammar settings reader f
  rw [done] at processed
  cases processed with
  | outlined outlines => exact outlines

/-- A file gives a report where reading it, decoding it or outlining its text fails. -/
theorem processFile_error_iff {f : SourceFile} {report : String} :
    processFile disk grammar settings reader f = .ok { path := f.path, outcome := .error report } ↔
      Fails disk grammar settings reader f report := by
  refine ⟨fun done => ?_, fun fails => (Processed.failed fails).eq⟩
  have processed := processFile_processed disk grammar settings reader f
  rw [done] at processed
  cases processed with
  | failed fails => exact fails

/-- Only a null character in a path that is asked about breaks off the outline of a file. -/
theorem processFile_interrupted {f : SourceFile} {why : Interruption}
    (done : processFile disk grammar settings reader f = .error why) :
    why = .zeroCharacter ∧ BreaksOff disk grammar settings reader f := by
  have processed := processFile_processed disk grammar settings reader f
  rw [done] at processed
  cases processed with
  | interrupted breaksOff => exact ⟨rfl, breaksOff⟩

/-- The result for a file, in place of which stands an empty report where the probe breaks off. -/
def resultOf (disk : Disk) (grammar : Grammar) (settings : Settings) (reader : Reader) (f : SourceFile) : FileResult :=
  match processFile disk grammar settings reader f with
  | .ok r => r
  | .error _ => { path := f.path, outcome := .error "" }

/-- A file that is not broken off gives its own result. -/
theorem processFile_eq_resultOf {f : SourceFile} (unbroken : ¬ BreaksOff disk grammar settings reader f) :
    processFile disk grammar settings reader f = .ok (resultOf disk grammar settings reader f) := by
  unfold resultOf
  cases done : processFile disk grammar settings reader f with
  | ok r => rfl
  | error why => exact absurd (processFile_interrupted done).2 unbroken

/-- The result of a file is filed under its path, and is an outline or a report but never both. -/
theorem resultOf_path_consistent (f : SourceFile) : (resultOf disk grammar settings reader f).path = f.path ∧
    (resultOf disk grammar settings reader f).Consistent := by
  unfold resultOf
  have processed := processFile_processed disk grammar settings reader f
  generalize processFile disk grammar settings reader f = r at processed
  cases processed with
  | outlined outlines =>
      obtain ⟨_, _, _, _, _, _, rfl⟩ := outlines
      exact ⟨rfl, fun o same => congrArg (·.path) (Except.ok.inj same).symm⟩
  | failed | interrupted => exact ⟨rfl, nofun⟩

/-- The result tells the outline of a file that has one. -/
theorem outline?_resultOf {f : SourceFile} {o : FileOutline} :
    (resultOf disk grammar settings reader f).outline? = some o ↔ Outlines disk grammar settings reader f o := by
  rw [← processFile_ok_iff]
  unfold resultOf FileResult.outline?
  have processed := processFile_processed disk grammar settings reader f
  generalize processFile disk grammar settings reader f = r at processed ⊢
  cases processed <;> simp [Except.toOption]

/-- And it tells the report of a file that failed. -/
theorem error?_resultOf {f : SourceFile} {path report : String}
    (unbroken : ¬ BreaksOff disk grammar settings reader f) :
    (resultOf disk grammar settings reader f).error? = some (path, report) ↔
      f.path = path ∧ Fails disk grammar settings reader f report := by
  rw [← processFile_error_iff]
  unfold resultOf FileResult.error?
  have processed := processFile_processed disk grammar settings reader f
  generalize processFile disk grammar settings reader f = r at processed ⊢
  cases processed with
  | interrupted breaksOff => exact absurd breaksOff unbroken
  | outlined | failed => simp

end Files

section Scans

variable {disk : Disk} {grammar : Grammar} {settings : Settings} {reader : Reader} {files : List SourceFile}

/-!
### Whole scans
-/

/-- What the result of a scan tells of some files: the outline of each that has one, with the report of each that
    fails, all in the order of the paths, and nothing else. -/
structure ScanResult.Covers (disk : Disk) (grammar : Grammar) (settings : Settings) (reader : Reader)
    (files : List SourceFile) (r : ScanResult) : Prop where
  /-- No path comes twice. -/
  distinct : (files.map (·.path)).Nodup
  /-- Every path is that of one outline or of one report, and there are no others. -/
  once : (r.files.map (·.path) ++ r.errors.map (·.1)).Perm (files.map (·.path))
  outlined : ∀ o, o ∈ r.files ↔ ∃ f ∈ files, Outlines disk grammar settings reader f o
  failed : ∀ path report, (path, report) ∈ r.errors ↔
    ∃ f ∈ files, f.path = path ∧ Fails disk grammar settings reader f report
  filesIncrease : r.files.Pairwise (·.path < ·.path)
  errorsIncrease : r.errors.Pairwise (·.1 < ·.1)

/-- The results of a list of files are filed under their paths. -/
theorem map_path_resultOf (files : List SourceFile) :
    (files.map (resultOf disk grammar settings reader)).map (·.path) = files.map (·.path) := by
  rw [List.map_map]
  exact List.map_congr_left fun f _ => (resultOf_path_consistent f).1

/-- Each result of a list of files is an outline or a report, never both. -/
theorem consistent_resultOf (disk : Disk) (grammar : Grammar) (settings : Settings) (reader : Reader)
    (files : List SourceFile) : ∀ r ∈ files.map (resultOf disk grammar settings reader), r.Consistent := by
  intro r mem
  obtain ⟨f, _, rfl⟩ := List.mem_map.1 mem
  exact (resultOf_path_consistent f).2

/-- What is gathered from the results of files with different paths covers the files, if the probe breaks off over none
    of them. -/
theorem ofResults_covers (distinct : (files.map (·.path)).Nodup)
    (unbroken : ∀ f ∈ files, ¬ BreaksOff disk grammar settings reader f) :
    ScanResult.Covers disk grammar settings reader files
      (Tally.ofResults (files.map (resultOf disk grammar settings reader))).result := by
  have paths := FileResult.paths_perm (consistent_resultOf disk grammar settings reader files)
  rw [map_path_resultOf] at paths
  have apart := List.nodup_append.1 (paths.nodup_iff.2 distinct)
  rw [Tally.result_ofResults (consistent_resultOf disk grammar settings reader files) (by rwa [map_path_resultOf])]
  constructor
  · exact distinct
  · exact (((sortedBy_perm _ _).map _).append ((sortedBy_perm _ _).map _)).trans paths
  · intro o
    rw [(sortedBy_perm _ _).mem_iff, List.filterMap_map, List.mem_filterMap]
    exact exists_congr fun f => and_congr_right fun _ => outline?_resultOf
  · intro path report
    rw [(sortedBy_perm _ _).mem_iff, List.filterMap_map, List.mem_filterMap]
    exact exists_congr fun f => and_congr_right fun mem => error?_resultOf (unbroken f mem)
  · exact sortedBy_increasing _ apart.1
  · exact sortedBy_increasing _ apart.2.1

/-- Two results tell the same of all paths but one. -/
def ScanResult.SameBut (path : String) (r r' : ScanResult) : Prop :=
  (∀ o, o.path ≠ path → (o ∈ r.files ↔ o ∈ r'.files)) ∧ ∀ e : String × String, e.1 ≠ path → (e ∈ r.errors ↔ e ∈ r'.errors)

/-- What is read of one file matters to no other. -/
theorem ScanResult.Covers.sameBut {reader' : Reader} {path : String} {r r' : ScanResult}
    (covers : r.Covers disk grammar settings reader files) (covers' : r'.Covers disk grammar settings reader' files)
    (same : ∀ f ∈ files, f.path ≠ path → reader f = reader' f) : r.SameBut path r' := by
  constructor
  · intro o other
    rw [covers.outlined, covers'.outlined]
    apply exists_congr
    intro f
    apply and_congr_right
    intro mem
    have agrees : f.path = o.path → reader f = reader' f := fun place => same f mem (place ▸ other)
    constructor
    · rintro ⟨content, text, declarations, read, decoded, extracted, rfl⟩
      exact ⟨content, text, declarations, (agrees rfl).symm.trans read, decoded, extracted, rfl⟩
    · rintro ⟨content, text, declarations, read, decoded, extracted, rfl⟩
      exact ⟨content, text, declarations, (agrees rfl).trans read, decoded, extracted, rfl⟩
  · rintro ⟨place, report⟩ other
    rw [covers.failed, covers'.failed]
    apply exists_congr
    intro f
    apply and_congr_right
    intro mem
    apply and_congr_right
    rintro rfl
    rw [← processFile_error_iff, ← processFile_error_iff, processFile, processFile, readSource, readSource,
      same f mem other]

end Scans

/-!
### Schedules
-/

namespace Pool

variable {workers total : Nat} {process : SourceFile → Except Interruption FileResult} {files : List SourceFile}
  {p q : Pool}

/-- Every file is waiting, being worked on, done or taken into account, and the tally is that of the files taken into
    account, in the order in which they were. -/
structure Accounted (total : Nat) (process : SourceFile → Except Interruption FileResult) (files : List SourceFile)
    (p : Pool) (taken done : List SourceFile) : Prop where
  all : (taken ++ (done ++ (p.running ++ p.waiting))).Perm files
  finished : p.finished = done.map process
  tally : p.tally = (taken.map process).foldlM (Tally.take total) {}

/-- No step loses a file or takes one twice. -/
theorem Step.accounted {taken done : List SourceFile} (step : Step workers total process p q)
    (accounted : p.Accounted total process files taken done) :
    ∃ taken' done', q.Accounted total process files taken' done' := by
  obtain ⟨all, finished, tally⟩ := accounted
  cases step with
  | @begin f waiting running _ _ free =>
      have begun : (running ++ f :: waiting).Perm (f :: running ++ waiting) := List.perm_middle
      exact ⟨taken, done, ((begun.append_left done).append_left taken).symm.trans all, finished, tally⟩
  | @finish f waiting before after _ _ =>
      have moved : (done ++ ((before ++ f :: after) ++ waiting)).Perm (f :: done ++ ((before ++ after) ++ waiting)) :=
        calc
          (done ++ ((before ++ f :: after) ++ waiting)).Perm (done ++ (f :: (before ++ after) ++ waiting)) :=
            (List.perm_middle.append_right waiting).append_left done
          List.Perm _ (f :: done ++ ((before ++ after) ++ waiting)) := List.perm_middle
      exact ⟨taken, f :: done, (moved.append_left taken).symm.trans all, congrArg (process f :: ·) finished, tally⟩
  | @take r waiting running before after soFar =>
      obtain ⟨first, rest, rfl, isBefore, isRest⟩ := List.map_eq_append_iff.1 finished.symm
      obtain ⟨f, last, rfl, isResult, isAfter⟩ := List.map_eq_cons_iff.1 isRest
      have moved : (taken ++ ((first ++ f :: last) ++ (running ++ waiting))).Perm
          (taken ++ [f] ++ ((first ++ last) ++ (running ++ waiting))) := by
        rw [List.append_assoc taken [f]]
        exact (List.perm_middle.append_right (running ++ waiting)).append_left taken
      refine ⟨taken ++ [f], first ++ last, moved.symm.trans all, ?_, ?_⟩
      · rw [List.map_append, isBefore, isAfter]
      · have known : (taken.map process).foldlM (Tally.take total) {} = .ok soFar := tally.symm
        rw [List.map_append, List.foldlM_append, known, List.map_singleton, isResult]
        exact (bind_pure (soFar.take total r)).symm

/-- In every state of a pool the files are accounted for: taken, done or waiting. -/
theorem Reaches.accounted (reached : Reaches workers total process (start files) p) :
    ∃ taken done, p.Accounted total process files taken done := by
  induction reached with
  | here => exact ⟨[], [], List.Perm.refl files, rfl, rfl⟩
  | next _ step ih =>
      obtain ⟨taken, done, accounted⟩ := ih
      exact step.accounted accounted

/-- When a scan has ended, all files are taken into account, in some order; or there was an interruption over one of
    them. -/
theorem Reaches.exists_order (reached : Reaches workers files.length process (start files) p) (ended : p.ended) :
    (∃ order : List SourceFile, order.Perm files ∧ p.tally = Tally.gather (order.map process)) ∨
      ∃ f ∈ files, ∃ why, process f = .error why ∧ p.tally = .error why := by
  obtain ⟨taken, done, all, finished, tally⟩ := reached.accounted
  cases known : p.tally with
  | error why =>
      rw [known] at tally
      have mem := Tally.mem_of_foldlM_take_error tally.symm
      obtain ⟨f, isTaken, failed⟩ := List.mem_map.1 mem
      exact .inr ⟨f, all.mem_iff.1 (List.mem_append_left _ isTaken), why, failed, rfl⟩
  | ok soFar =>
      simp only [Pool.ended, known, Bool.and_eq_true, List.isEmpty_iff] at ended
      obtain ⟨⟨waiting, running⟩, none⟩ := ended
      have noneDone : done = [] := List.map_eq_nil_iff.1 (finished.symm.trans none)
      rw [noneDone, running, waiting, List.append_nil, List.append_nil, List.append_nil] at all
      refine .inl ⟨taken, all, ?_⟩
      rw [← known, tally, Tally.gather, List.length_map, all.length_eq]

/-- As long as a scan has not ended, something can happen. -/
theorem step_of_not_ended (staffed : 1 ≤ workers) (unended : p.ended = false) :
    ∃ q, Step workers total process p q := by
  obtain ⟨waiting, running, finished, tally⟩ := p
  cases tally with
  | error why => cases unended
  | ok soFar =>
      cases finished with
      | cons r rest =>
          have first : Step workers total process ⟨waiting, running, [] ++ r :: rest, .ok soFar⟩ _ := .take
          exact ⟨_, first⟩
      | nil =>
          cases running with
          | cons f rest =>
              have first : Step workers total process ⟨waiting, [] ++ f :: rest, [], .ok soFar⟩ _ := .finish
              exact ⟨_, first⟩
          | nil =>
              cases waiting with
              | cons f rest => exact ⟨_, .begin staffed⟩
              | nil => cases unended

/-- How much is left to do: for each file that it is begun, done and taken into account. -/
def work (p : Pool) : Nat := 3 * p.waiting.length + 2 * p.running.length + p.finished.length

theorem Step.work_lt (step : Step workers total process p q) : q.work < p.work := by
  cases step with
  | begin free => simp only [work, List.length_cons]; omega
  | finish => simp only [work, List.length_append, List.length_cons]; omega
  | take => simp only [work, List.length_append, List.length_cons]; omega

end Pool

/-!
### Every schedule
-/

/-- What a scan tells: its result, and the reports on its progress. -/
def Tally.told (t : Tally) : ScanResult × List (Nat × Nat) := (t.result, t.progress)

section Schedules

variable {disk : Disk} {grammar : Grammar} {settings : Settings} {reader : Reader} {files : List SourceFile}

/-- What a scan comes to does not depend on when the results of the files come. -/
structure Settled (disk : Disk) (grammar : Grammar) (settings : Settings) (reader : Reader) (files : List SourceFile)
    (outcome : Except Interruption (ScanResult × List (Nat × Nat))) : Prop where
  /-- In whatever order the results are taken into account, this is what the scan comes to. -/
  anyOrder : ∀ order : List SourceFile, order.Perm files →
    (Tally.gather (order.map (processFile disk grammar settings reader))).map Tally.told = outcome
  /-- However many workers there are, everything that they can do comes to an end, and it is this one. -/
  anyWorkers : ∀ workers, 1 ≤ workers → ∀ p,
    Pool.Reaches workers files.length (processFile disk grammar settings reader) (.start files) p →
      (p.ended = true → p.tally.map Tally.told = outcome) ∧
      (p.ended = false → ∃ q, Pool.Step workers files.length (processFile disk grammar settings reader) p q) ∧
      ∀ q, Pool.Step workers files.length (processFile disk grammar settings reader) p q → q.work < p.work

/-- It is enough to look at the orders in which results can come, and at single interruptions. -/
theorem settled_of_anyOrder {outcome : Except Interruption (ScanResult × List (Nat × Nat))}
    (anyOrder : ∀ order : List SourceFile, order.Perm files →
      (Tally.gather (order.map (processFile disk grammar settings reader))).map Tally.told = outcome)
    (interrupted : ∀ f ∈ files, ∀ why, processFile disk grammar settings reader f = .error why → outcome = .error why) :
    Settled disk grammar settings reader files outcome := by
  refine ⟨anyOrder, fun workers staffed p reached => ⟨fun ended => ?_, Pool.step_of_not_ended staffed,
    fun q step => step.work_lt⟩⟩
  rcases reached.exists_order ended with ⟨order, perm, tally⟩ | ⟨f, mem, why, failed, tally⟩
  · rw [tally]
    exact anyOrder order perm
  · rw [tally, interrupted f mem why failed]
    rfl

/-- Without an interruption, every order of the results gives the same. -/
theorem gather_of_unbroken (distinct : (files.map (·.path)).Nodup)
    (unbroken : ∀ f ∈ files, ¬ BreaksOff disk grammar settings reader f) {order : List SourceFile}
    (perm : order.Perm files) :
    (Tally.gather (order.map (processFile disk grammar settings reader))).map Tally.told =
      .ok ((Tally.ofResults (files.map (resultOf disk grammar settings reader))).result,
        Tally.allReports files.length) := by
  have results : order.map (processFile disk grammar settings reader) =
      (order.map (resultOf disk grammar settings reader)).map .ok := by
    rw [List.map_map]
    exact List.map_congr_left fun f mem => processFile_eq_resultOf (unbroken f (perm.mem_iff.1 mem))
  rw [results, Tally.gather_ok, Except.map, Tally.told, Tally.progress_ofResults, List.length_map, perm.length_eq]
  have distinct' : ((files.map (resultOf disk grammar settings reader)).map (·.path)).Nodup := by
    rwa [map_path_resultOf]
  rw [Tally.result_ofResults_of_perm (perm.map _) (consistent_resultOf disk grammar settings reader files) distinct']

/-- With an interruption, every order of the results ends with it. -/
theorem gather_of_broken {f : SourceFile} (mem : f ∈ files) (breaksOff : BreaksOff disk grammar settings reader f)
    {order : List SourceFile} (perm : order.Perm files) :
    (Tally.gather (order.map (processFile disk grammar settings reader))).map Tally.told = .error .zeroCharacter := by
  have among : .error .zeroCharacter ∈ order.map (processFile disk grammar settings reader) :=
    List.mem_map.2 ⟨f, perm.mem_iff.2 mem, (Processed.interrupted breaksOff).eq⟩
  obtain ⟨why, met, ended⟩ :=
    Tally.exists_foldlM_take_error among (order.map (processFile disk grammar settings reader)).length {}
  obtain ⟨f', _, failed⟩ := List.mem_map.1 met
  rw [Tally.gather, ended, (processFile_interrupted failed).1]
  rfl

/-- Where no file is broken off, every run ends with the results of all files. -/
theorem settled_of_unbroken (distinct : (files.map (·.path)).Nodup)
    (unbroken : ∀ f ∈ files, ¬ BreaksOff disk grammar settings reader f) :
    Settled disk grammar settings reader files
      (.ok ((Tally.ofResults (files.map (resultOf disk grammar settings reader))).result,
        Tally.allReports files.length)) :=
  settled_of_anyOrder (fun _ => gather_of_unbroken distinct unbroken) fun f mem _ failed =>
    absurd (processFile_interrupted failed).2 (unbroken f mem)

/-- Where a file is broken off, no run ends with a result. -/
theorem settled_of_broken {f : SourceFile} (mem : f ∈ files) (breaksOff : BreaksOff disk grammar settings reader f) :
    Settled disk grammar settings reader files (.error .zeroCharacter) :=
  settled_of_anyOrder (fun _ => gather_of_broken mem breaksOff) fun _ _ _ failed =>
    congrArg Except.error (processFile_interrupted failed).1.symm

/-- A scan of a directory whose ignore files can be read. As long as the probe does not break off over a file, the result
    tells of every file that is collected exactly once what becomes of it, and of nothing else; it is reached, with the
    same reports on the progress, in whatever order the workers are done and however many there are; and if something
    else is read of one file, so that it fails or fails no more, nothing changes for the others. If the probe breaks off
    over a single file, so does the scan, in whatever order and by however many workers. -/
theorem scanDirectory_of_any_schedule (disk : Disk) (grammar : Grammar) (settings : Settings) (root : String)
    (reader : Reader) (entries : List (String × FileTree)) (files : List SourceFile)
    (found : disk.find? (Disk.absolute (disk.canonical root)) = some (.directory entries))
    (named : (FileTree.directory entries).wellNamed)
    (collected : scannedFiles settings (.directory entries) = .ok files)
    (staffed : settings.workers.all (1 ≤ ·)) :
    ((∀ f ∈ files, ¬ BreaksOff disk grammar settings reader f) →
      ∃ result, scanDirectory disk grammar settings root reader = .ok (result, Tally.allReports files.length) ∧
        result.Covers disk grammar settings reader files ∧
        Settled disk grammar settings reader files (.ok (result, Tally.allReports files.length)) ∧
        ∀ (reader' : Reader) (path : String), (∀ f ∈ files, f.path ≠ path → reader f = reader' f) →
          (∀ f ∈ files, ¬ BreaksOff disk grammar settings reader' f) →
            ∃ result', scanDirectory disk grammar settings root reader' = .ok (result', Tally.allReports files.length) ∧
              result.SameBut path result') ∧
      ∀ f ∈ files, BreaksOff disk grammar settings reader f →
        scanDirectory disk grammar settings root reader = .error (.interrupted .zeroCharacter) ∧
          Settled disk grammar settings reader files (.error .zeroCharacter) := by
  have distinct : (files.map (·.path)).Nodup := by
    unfold scannedFiles at collected
    cases loaded : loadRules settings.ignoredDirectories (.directory entries) with
    | error e =>
        rw [loaded] at collected
        cases collected
    | ok rules =>
        rw [loaded] at collected
        cases collected
        exact collectSources_paths_nodup named
  have enough : ¬ settings.workers.any (· < 1) := by
    cases workers : settings.workers with
    | none => simp
    | some w => simpa [workers] using staffed
  have scanned : ∀ reader : Reader, scanDirectory disk grammar settings root reader =
      ((Tally.gather (files.map (processFile disk grammar settings reader))).map Tally.told).mapError .interrupted := by
    intro reader
    simp only [scanDirectory, found, collected, bind, Except.bind, if_neg enough]
    cases Tally.gather (files.map (processFile disk grammar settings reader)) <;> rfl
  have unbrokenScan : ∀ reader : Reader, (∀ f ∈ files, ¬ BreaksOff disk grammar settings reader f) →
      scanDirectory disk grammar settings root reader =
        .ok ((Tally.ofResults (files.map (resultOf disk grammar settings reader))).result,
          Tally.allReports files.length) := by
    intro reader unbroken
    rw [scanned, gather_of_unbroken distinct unbroken (List.Perm.refl files)]
    rfl
  constructor
  · intro unbroken
    refine ⟨_, unbrokenScan reader unbroken, ofResults_covers distinct unbroken, settled_of_unbroken distinct unbroken, ?_⟩
    intro reader' path same unbroken'
    exact ⟨_, unbrokenScan reader' unbroken',
      (ofResults_covers distinct unbroken).sameBut (ofResults_covers distinct unbroken') same⟩
  · intro f mem breaksOff
    refine ⟨?_, settled_of_broken mem breaksOff⟩
    rw [scanned, gather_of_broken mem breaksOff (List.Perm.refl files)]
    rfl

end Schedules

/-- A directory with a file that is no text, one that imports a name, and one further down from which it may come. -/
def mixedEntries : List (String × FileTree) :=
  [("a.ts", .file ⟨#[0xFF]⟩), ("b.ts", .file importingSource.text.toUTF8), ("d", .directory [("x.ts", .file ⟨#[]⟩)])]

/-- The files of `mixedEntries` that a scan reads. -/
def mixedFiles : List SourceFile :=
  [⟨["a.ts"], ⟨#[0xFF]⟩⟩, ⟨["b.ts"], importingSource.text.toUTF8⟩, ⟨["d", "x.ts"], ⟨#[]⟩⟩]

/-- A disk that holds the directory. -/
def mixedDisk : Disk := { root := .directory mixedEntries }

/-- A parser that knows one file and finds every other one empty. -/
def mixedGrammar : Grammar := fun _ text =>
  if text = importingSource.text then importingTree else Node.construct "program" none 0 text.utf8ByteSize []

/-- Settings that have the files of the directory confirmed by the command, and imports lead to `target`. -/
def mixedSettings (target : String) : Settings := { aliases := [("@/*", target)], probe := .command }

/-- The files of the example that are scanned, wherever its alias leads. -/
theorem scannedFiles_mixedEntries (target : String) :
    scannedFiles (mixedSettings target) (.directory mixedEntries) = .ok mixedFiles := by
  -- aliases play no part
  change scannedFiles {} (.directory mixedEntries) = .ok mixedFiles
  have noRules : loadRules ({} : Settings).ignoredDirectories (.directory mixedEntries) = .ok [] := by
    simp [loadRules, ignoreFiles, ignoreFilesIn, ignoreFilesAmong, ignoreFile?, mixedEntries, Ignore.combineFiles]
  have collected : collectSources {} [] (.directory mixedEntries) = mixedFiles := by
    simp only [collectSources, FileTree.sources, foundAt, foundAmong, mixedEntries, arrange]
    -- the names are in order already
    rw [List.mergeSort_of_pairwise (by decide +kernel), List.mergeSort_of_pairwise (by decide +kernel)]
    rfl
  rw [scannedFiles, noRules]
  exact congrArg _ collected

/-- The text of the importing file is read from its bytes. -/
theorem decoded_importingSource : fileText importingSource.text.toUTF8 = .ok importingSource.text := by decide +kernel

/-- Of the three files one fails, and one has an outline in which the file further down is found; the result is the same
    for all schedules. -/
theorem scanDirectory_of_any_schedule_mixed :
    (FileTree.directory mixedEntries).wellNamed = true ∧
      ∃ result ds, scanDirectory mixedDisk mixedGrammar (mixedSettings "d/*") "/" =
          .ok (result, [(1, 3), (2, 3), (3, 3)]) ∧
        result.Covers mixedDisk mixedGrammar (mixedSettings "d/*") .plain mixedFiles ∧
        ("a.ts", "'utf-8' codec can't decode byte 0xff in position 0: invalid start byte") ∈ result.errors ∧
        ⟨"b.ts", "046802cf6f14badfa67cb243964046315a545f14af256bb38d4bfc8a69f318f5", ds⟩ ∈ result.files ∧
        ds.map (fun d => (d.head.name, d.head.dependencies)) = [("a", [.internal "d/x.ts" ["b"]])] := by
  have unbroken : ∀ f ∈ mixedFiles, ¬ BreaksOff mixedDisk mixedGrammar (mixedSettings "d/*") .plain f := by
    have done : ∀ f ∈ mixedFiles,
        (processFile mixedDisk mixedGrammar (mixedSettings "d/*") .plain f).toOption.isSome = true := by
      decide +kernel
    intro f mem breaksOff
    have ended := done f mem
    rw [(Processed.interrupted breaksOff).eq] at ended
    cases ended
  obtain ⟨result, scanned, covers, _⟩ :=
    (scanDirectory_of_any_schedule mixedDisk mixedGrammar (mixedSettings "d/*") "/" .plain mixedEntries mixedFiles
      rfl (by decide) (scannedFiles_mixedEntries "d/*") (by decide)).1 unbroken
  have names : ((extractWith mixedDisk mixedGrammar (mixedSettings "d/*") "b.ts" importingSource.text).result.toOption.map
      fun ds => ds.map fun d => (d.head.name, d.head.dependencies)) = some [("a", [.internal "d/x.ts" ["b"]])] := by
    decide +kernel
  cases extracted : (extractWith mixedDisk mixedGrammar (mixedSettings "d/*") "b.ts" importingSource.text).result with
  | error failure =>
      rw [extracted] at names
      cases names
  | ok ds =>
      rw [extracted] at names
      refine ⟨by decide, result, ds, scanned, covers, ?_, ?_, Option.some.inj names⟩
      · have undecodable : fileText ⟨#[0xFF]⟩ = .error ⟨0, 0xFF, 0, .invalidStart⟩ := by decide +kernel
        have told : Text.Utf8.IllFormed.message ⟨0, 0xFF, 0, .invalidStart⟩ =
            "'utf-8' codec can't decode byte 0xff in position 0: invalid start byte" := by decide +kernel
        rw [← told]
        exact (covers.failed _ _).2 ⟨_, List.mem_cons_self, rfl, .undecodable rfl undecodable⟩
      · refine (covers.outlined _).2 ⟨_, List.mem_cons_of_mem _ List.mem_cons_self, _, _, ds, rfl, decoded_importingSource,
          extracts_iff.2 extracted, ?_⟩
        have digest : sha256 importingSource.text.toUTF8 =
            "046802cf6f14badfa67cb243964046315a545f14af256bb38d4bfc8a69f318f5" := by decide +kernel
        rw [digest]
        rfl

/-- Where the import leads to a directory with a zero character in its name, the command breaks off, and the scan tells
    nothing of any file. -/
theorem scanDirectory_zeroTarget :
    scannedFiles (mixedSettings "a\x00/*") (.directory mixedEntries) = .ok mixedFiles ∧
      ((extract importingSource "b.ts" importingTree (mixedSettings "a\x00/*").aliases).result.toOption.map fun ds =>
          ds.map (·.head.name)) = some ["a"] ∧
      scanDirectory mixedDisk mixedGrammar (mixedSettings "a\x00/*") "/" = .error (.interrupted .zeroCharacter) := by
  have found : mixedDisk.find? (Disk.absolute (mixedDisk.canonical "/")) = some (.directory mixedEntries) := rfl
  have gathered : ((Tally.gather (mixedFiles.map
      (processFile mixedDisk mixedGrammar (mixedSettings "a\x00/*") .plain))).map fun _ => ()) =
        .error .zeroCharacter := by decide +kernel
  refine ⟨scannedFiles_mixedEntries _, by decide +kernel, ?_⟩
  simp only [scanDirectory, found, scannedFiles_mixedEntries, bind, Except.bind]
  cases ended : Tally.gather (mixedFiles.map (processFile mixedDisk mixedGrammar (mixedSettings "a\x00/*") .plain)) with
  | ok t =>
      rw [ended] at gathered
      cases gathered
  | error why =>
      rw [ended] at gathered
      cases gathered
      rfl

end Outline
