/-
Module: Outline.Proofs.Reading.Unfailing
Layer: Proofs
Purpose: Readings that come to a value and log no failure on the way. A failure that is recovered from leaves its
  event behind, so that a reading without such events has met none. The property passes through the steps from which
  readings are put together.
Main exports: Event.reportsFailure, Reading.Unfailing, Reading.Unfailing.bind, Reading.Unfailing.collect,
  Reading.Unfailing.recover
-/
import Outline.Proofs.Tree.Inside
import Outline.Reading

namespace Outline

/-- Does the event say that something failed and was gone on from? Told by its wording. -/
def Event.reportsFailure (e : Event) : Bool :=
  e.message == "TS handler error; skipping declaration" ||
    e.message == "Type rendering failed, falling back to any"

namespace Event

/-- The note on an unsupported type reports no failure. -/
theorem reportsFailure_unsupportedType (kind : String) (line : Nat) :
    (unsupportedType kind line).reportsFailure = false := by
  simp [reportsFailure, message]

/-- The note on a broken statement reports no failure: the tree is at fault, not the text. -/
theorem reportsFailure_brokenStatement (path kind : String) (line : Nat) (raw : String) :
    (brokenStatement path kind line raw).reportsFailure = false := by
  simp [reportsFailure, message]

/-- The note on an unknown statement reports no failure. -/
theorem reportsFailure_unknownNode (path kind : String) (line : Nat) (raw : String) (context : Option String) :
    (unknownNode path kind line raw context).reportsFailure = false := by
  simp [reportsFailure, message]

theorem reportsFailure_outlined (path : String) (count : Nat) :
    (outlined path count).reportsFailure = false := by
  simp [reportsFailure, message]

end Event

namespace Reading

variable {α β : Type}

/-- The reading ends with a value, and none of its events reports a failure. -/
structure Unfailing (x : Reading α) : Prop where
  value : ∃ a, x.result = .ok a
  events : ∀ e ∈ x.events, e.reportsFailure = false

namespace Unfailing

variable {src : Source} {n : Node}

theorem pure (a : α) : Unfailing (Pure.pure a) := ⟨⟨a, rfl⟩, by simp [Pure.pure, Reading.pure]⟩

theorem note {e : Event} (harmless : e.reportsFailure = false) : Unfailing (Reading.note e) := by
  constructor
  · exact ⟨(), rfl⟩
  · intro event mem
    rw [List.mem_singleton.1 mem]
    exact harmless

theorem read (readable : src.Readable n) : Unfailing (Reading.read src n) := by
  obtain ⟨text, found⟩ := readable n .here
  exact ⟨⟨text, found⟩, by simp [Reading.read]⟩

/-- A readable node is read, and one that is missing is read as empty. -/
theorem readOrEmpty {child : Option Node} (readable : ∀ c, child = some c → src.Readable c) :
    Unfailing (Reading.readOrEmpty src child) := by
  cases child with
  | none => exact pure ""
  | some c => exact read (readable c rfl)

/-- Two readings in turn do not fail if neither does. -/
theorem bind {x : Reading α} {f : α → Reading β} (first : Unfailing x) (next : ∀ a, Unfailing (f a)) :
    Unfailing (x >>= f) := by
  obtain ⟨⟨a, ended⟩, quiet⟩ := first
  obtain ⟨⟨b, endedNext⟩, quietNext⟩ := next a
  have both : x >>= f = ⟨x.events ++ (f a).events, (f a).result⟩ := by
    simp only [Bind.bind, Reading.bind, ended]
  rw [both]
  constructor
  · exact ⟨b, endedNext⟩
  · intro e mem
    rcases List.mem_append.1 mem with earlier | later
    · exact quiet e earlier
    · exact quietNext e later

/-- What is made of the value does not matter. -/
theorem returning {x : Reading α} (inner : Unfailing x) (f : α → β) :
    Unfailing (x >>= fun a => Pure.pure (f a)) :=
  bind inner fun a => pure (f a)

/-- Reading a list of nodes does not fail if reading each of them does not. -/
theorem collect {f : α → Reading β} {as : List α} (each : ∀ a ∈ as, Unfailing (f a)) :
    Unfailing (Reading.collect f as) := by
  induction as with
  | nil => exact pure []
  | cons a as ih =>
      apply bind (each a List.mem_cons_self)
      intro b
      apply bind (ih fun c mem => each c (List.mem_cons_of_mem a mem))
      intro bs
      exact pure (b :: bs)

/-- There is nothing to recover from. -/
theorem recover {x : Reading α} (inner : Unfailing x) (e : Event) (fallback : α) :
    Unfailing (Reading.recover x e fallback) := by
  obtain ⟨a, ended⟩ := inner.value
  have same : Reading.recover x e fallback = x := by simp only [Reading.recover, ended]
  rw [same]
  exact inner

end Unfailing

end Reading

end Outline
