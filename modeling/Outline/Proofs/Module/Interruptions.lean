/-
Module: Outline.Proofs.Module.Interruptions
Layer: Proofs
Purpose: Outlines over which a probe breaks off. Neither the tree of a file nor its text can cause an interruption, nor
  can the walk, so that with specifiers resolved by text there is none; with a probe there is one exactly if the probe
  has no answer for the last path that it is asked for, and then nothing else is said of the file.
Main exports: Extraction.Answered, Extraction.interruption?, extract_answered, ProbedOutline, extractProbing_probed,
  extractProbing_interruption, extractProbing_answered_iff, exists_of_extractProbing_answered, extractProbing_ok, extract_ok
-/
import Outline.Module.Extract
import Outline.Proofs.Specifier.Inquiries

namespace Outline

open Specifier (Aliases Interruption Probe Resolved Resolver SearchOptions Tells firstInterruption)

/-- No probe broke off over the file. -/
def Extraction.Answered (x : Extraction) : Prop := ∀ why, x.result ≠ .error (.interrupted why)

/-- The interruption by which an outline failed, if it did so. -/
def Extraction.interruption? (x : Extraction) : Option Interruption :=
  match x.result with
  | .error (.interrupted why) => some why
  | _ => none

/-- An outline is answered if no interruption cut it short. -/
theorem Extraction.answered_iff {x : Extraction} : x.Answered ↔ x.interruption? = none := by
  obtain ⟨events, result⟩ := x
  unfold Answered interruption?
  split
  next why broken => exact ⟨fun answered => absurd broken (answered why), nofun⟩
  next other => exact ⟨fun _ => rfl, fun _ why broken => other why broken⟩

variable (src : Source) (path : String) (root : Node)

/-- Collecting the specifiers asks no probe, so nothing interrupts it. -/
theorem acceptedSpecifiers_ne_interrupted (why : Interruption) :
    acceptedSpecifiers src root ≠ .error (.interrupted why) := by
  unfold acceptedSpecifiers checkTree
  split
  · cases describeFault src root <;> exact nofun
  · cases collectSpecifiers src root <;> exact nofun

/-- The walk over the statements asks no probe, so nothing interrupts it. -/
theorem extractFrom_answered (r : Resolver) (table : Entries Resolved) :
    (extractFrom r src path root table).Answered := by
  intro why
  unfold extractFrom
  dsimp only
  split <;> exact nofun

/-- By text alone there is nothing that could break off. -/
theorem extract_answered (aliases : Aliases) : (extract src path root aliases).Answered := by
  unfold extract
  cases accepted : acceptedSpecifiers src root with
  | error e =>
      intro why broken
      cases broken
      exact acceptedSpecifiers_ne_interrupted src root why accepted
  | ok specs => exact extractFrom_answered src path root _ _

/-- What comes of a file with a probe, and the paths asked for: there is an answer for each of them, or there is none
    for the last one, and with it everything ends. -/
inductive ProbedOutline (probe : Probe) : Extraction × List String → Prop where
  | answered {x : Extraction} {asked : List String} (tells : ∀ p ∈ asked, Tells probe p) (answered : x.Answered) :
      ProbedOutline probe (x, asked)
  | cut {before : List String} {last : String} {why : Interruption} (tells : ∀ p ∈ before, Tells probe p)
      (breaks : probe last = .interrupted why) :
      ProbedOutline probe ({ events := [], result := .error (.interrupted why) }, before ++ [last])

variable (aliases : Aliases) (options : SearchOptions) (probe : Probe)

/-- An outline with a probe was answered, or was cut short by an interruption that the probe gave. -/
theorem extractProbing_probed : ProbedOutline probe (extractProbing src path root aliases options probe) := by
  unfold extractProbing
  cases accepted : acceptedSpecifiers src root with
  | error e =>
      refine .answered (fun p mem => absurd mem List.not_mem_nil) fun why broken => ?_
      cases broken
      exact acceptedSpecifiers_ne_interrupted src root why accepted
  | ok specs =>
      have follows := Resolver.tableProbing_follows { aliases, options } probe path specs
      dsimp only
      generalize Resolver.tableProbing { aliases, options } (some probe) path specs = inquiry at follows
      cases follows with
      | answered tells => exact .answered tells (extractFrom_answered src path root _ _)
      | cut tells breaks => exact .cut tells breaks

/-- The interruption of an outline is the first one met with. -/
theorem extractProbing_interruption : (extractProbing src path root aliases options probe).1.interruption? =
    firstInterruption probe (extractProbing src path root aliases options probe).2 := by
  have probed := extractProbing_probed src path root aliases options probe
  generalize extractProbing src path root aliases options probe = outcome at probed
  cases probed with
  | answered tells answered => rw [Extraction.answered_iff.1 answered, Specifier.firstInterruption_eq_none tells]
  | cut tells breaks => rw [Specifier.firstInterruption_concat tells breaks]; rfl

/-- A file is outlined or turned away, without an interruption, exactly if there is an answer for every path asked for. -/
theorem extractProbing_answered_iff : (extractProbing src path root aliases options probe).1.Answered ↔
    ∀ p ∈ (extractProbing src path root aliases options probe).2, Tells probe p := by
  have probed := extractProbing_probed src path root aliases options probe
  generalize extractProbing src path root aliases options probe = outcome at probed
  cases probed with
  | answered tells answered => exact ⟨fun _ => tells, fun _ => answered⟩
  | @cut before last why _ breaks =>
      constructor
      · exact fun answered => absurd rfl (answered why)
      · exact fun tells => absurd breaks (tells last (List.mem_append_right before (List.mem_singleton_self last)) why)

variable {src path root aliases options probe}

/-- What an answered outline was made from. -/
theorem exists_of_extractProbing_answered {specs : List String} (accepted : acceptedSpecifiers src root = .ok specs)
    (answered : (extractProbing src path root aliases options probe).1.Answered) :
    ∃ table, (Resolver.tableProbing { aliases, options } (some probe) path specs).result = .ok table ∧
      (extractProbing src path root aliases options probe).1 =
        extractFrom { aliases, options } src path root table := by
  unfold extractProbing at answered ⊢
  rw [accepted] at answered ⊢
  dsimp only at answered ⊢
  cases ended : (Resolver.tableProbing { aliases, options } (some probe) path specs).result with
  | error why =>
      rw [ended] at answered
      exact absurd rfl (answered why)
  | ok table => exact ⟨table, rfl, rfl⟩

/-- Where an outline with a probe succeeds, its three stages do: the specifiers, their answers and the walk over the
    statements. -/
theorem extractProbing_ok {ds : List Declaration}
    (done : (extractProbing src path root aliases options probe).1.result = .ok ds) :
    ∃ specs table, acceptedSpecifiers src root = .ok specs ∧
      (Resolver.tableProbing { aliases, options } (some probe) path specs).result = .ok table ∧
      (extractFrom { aliases, options } src path root table).result = .ok ds := by
  have answered : (extractProbing src path root aliases options probe).1.Answered := by
    intro why broken
    cases done.symm.trans broken
  cases accepted : acceptedSpecifiers src root with
  | error e =>
      rw [extractProbing, accepted] at done
      cases done
  | ok specs =>
      obtain ⟨table, ended, same⟩ := exists_of_extractProbing_answered accepted answered
      rw [same] at done
      exact ⟨specs, table, rfl, ended, done⟩

/-- Where an outline without a probe succeeds, so do its two stages, collecting the specifiers and the walk. -/
theorem extract_ok {ds : List Declaration} (done : (extract src path root aliases).result = .ok ds) :
    ∃ specs, acceptedSpecifiers src root = .ok specs ∧
      (extractFrom { aliases } src path root (Resolver.table { aliases } path specs)).result = .ok ds := by
  unfold extract at done
  cases accepted : acceptedSpecifiers src root with
  | error e =>
      rw [accepted] at done
      cases done
  | ok specs =>
      rw [accepted] at done
      exact ⟨specs, rfl, done⟩

end Outline
