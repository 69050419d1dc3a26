/-
Module: Outline.Proofs.Walk.Unfailing
Layer: Proofs
Purpose: Walks that come to a value and log no failure on the way, whatever the tables they start from. Nothing in
  such a walk is given up, so that an absorbed walk does not differ from the walk itself. The property passes through
  the steps from which walks are put together.
Main exports: Walk.Unfailing, Walk.Unfailing.bind, Walk.Unfailing.reading, Walk.Unfailing.absorb,
  Walk.Unfailing.within, Walk.Unfailing.forEach
-/
import Outline.Module.Walk
import Outline.Proofs.Reading.Unfailing

namespace Outline

open Specifier (Resolved Resolver)

variable {α β : Type}

/-- What an unfailing walk leaves behind: a value, and no event that reports a failure. -/
structure Outcome.Unfailing (o : Outcome α) : Prop where
  value : ∃ a, o.result = .ok a
  events : ∀ e ∈ o.events, e.reportsFailure = false

namespace Walk

/-- From any tables, the walk ends with a value, and none of its events reports a failure. -/
def Unfailing (x : Walk α) : Prop := ∀ l, (x l).Unfailing

namespace Unfailing

/-- A walk that logs nothing. -/
theorem of_silent {x : Walk α} (silent : ∀ l, (x l).events = []) (value : ∀ l, ∃ a, (x l).result = .ok a) :
    Unfailing x := by
  intro l
  constructor
  · exact value l
  · rw [silent l]
    exact fun e mem => absurd mem List.not_mem_nil

theorem pure (a : α) : Unfailing (Pure.pure a) := of_silent (fun _ => rfl) fun _ => ⟨a, rfl⟩

theorem emit (d : Declaration) : Unfailing (Walk.emit d) := of_silent (fun _ => rfl) fun _ => ⟨(), rfl⟩

theorem exportLater (e : LocalExport) : Unfailing (Walk.exportLater e) :=
  of_silent (fun _ => rfl) fun _ => ⟨(), rfl⟩

theorem imported? (name : String) : Unfailing (Walk.imported? name) := of_silent (fun _ => rfl) fun _ => ⟨_, rfl⟩

/-- A note of an event that reports no failure reports none. -/
theorem note {e : Event} (harmless : e.reportsFailure = false) : Unfailing (Walk.note e) := by
  intro l
  constructor
  · exact ⟨(), rfl⟩
  · intro event mem
    rw [List.mem_singleton.1 mem]
    exact harmless

theorem resolve (r : Resolver) (file spec : String) : Unfailing (Walk.resolve r file spec) := by
  apply of_silent
  all_goals
    intro l
    unfold Walk.resolve
    split
  · rfl
  · rfl
  · exact ⟨_, rfl⟩
  · exact ⟨_, rfl⟩

theorem bindName (name : String) (x : Resolved) : Unfailing (Walk.bindName name x) := by
  apply of_silent
  all_goals
    intro l
    unfold Walk.bindName
    split
  · rfl
  · rfl
  · exact ⟨(), rfl⟩
  · exact ⟨(), rfl⟩

/-- Reading reports no failure if it reports none for any imported names. -/
theorem reading {x : Entries Resolved → Reading α} (inner : ∀ imports, (x imports).Unfailing) :
    Unfailing (Walk.reading x) :=
  fun l => ⟨(inner l.imports).value, (inner l.imports).events⟩

/-- Two walks in turn report no failure if neither does. -/
theorem bind {x : Walk α} {f : α → Walk β} (first : Unfailing x) (next : ∀ a, Unfailing (f a)) :
    Unfailing (x >>= f) := by
  intro l
  obtain ⟨⟨a, ended⟩, quiet⟩ := first l
  obtain ⟨value, quietNext⟩ := next a (x l).links
  simp only [Bind.bind, Walk.bind, ended]
  constructor
  · exact value
  · intro e mem
    rcases List.mem_append.1 mem with earlier | later
    · exact quiet e earlier
    · exact quietNext e later

/-- There is nothing to absorb. -/
theorem absorb {x : Walk Unit} (e : Event) (inner : Unfailing x) : Unfailing (Walk.absorb e x) := by
  intro l
  obtain ⟨_, ended⟩ := (inner l).value
  have same : Walk.absorb e x l = x l := by simp only [Walk.absorb, ended]
  rw [same]
  exact inner l

/-- What is done with declarations at the end of a scope reports no failure. -/
theorem within {x : Walk Unit} (finish : List LocalExport → List Declaration → List Declaration)
    (inner : Unfailing x) : Unfailing (Walk.within finish x) := by
  intro l
  obtain ⟨⟨_, ended⟩, quiet⟩ := inner l
  constructor
  · exact ⟨_, by simp only [Walk.within, ended]; rfl⟩
  · exact quiet

/-- A walk over a list reports no failure if that over each item reports none. -/
theorem forEach {f : α → Walk Unit} {as : List α} (each : ∀ a ∈ as, Unfailing (f a)) :
    Unfailing (Walk.forEach f as) := by
  induction as with
  | nil => exact pure ()
  | cons a as ih =>
      apply bind (each a List.mem_cons_self)
      intro _
      exact ih fun b mem => each b (List.mem_cons_of_mem a mem)

end Unfailing

end Walk

end Outline
