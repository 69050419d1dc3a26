/-
Module: Outline.Proofs.Specifier.Inquiries
Layer: Proofs
Purpose: How inquiries end. A resolution breaks off at the first path for which the probe has no answer, and nothing is
  asked after that path; without such a path it has a value. This is so for a single question, and is kept when
  inquiries are put one after the other.
Main exports: Tells, firstInterruption, Inquiry.Follows, Inquiry.Follows.bind, Inquiry.Follows.mapM, Inquiry.Follows.ok_iff,
  Inquiry.bind_eq_ok_iff, Resolver.resolveProbing_follows, Resolver.tableProbing_follows
-/
import Mathlib.Data.List.Forall2
import Outline.Specifier.Resolver

namespace Outline.Specifier

/-- The probe has an answer for a path. -/
def Tells (probe : Probe) (path : String) : Prop := ∀ why, probe path ≠ .interrupted why

/-- Why there is no answer. -/
def Answer.interruption? : Answer → Option Interruption
  | .interrupted why => some why
  | _ => none

/-- The first interruption that questions about some paths meet with. -/
def firstInterruption (probe : Probe) (paths : List String) : Option Interruption :=
  paths.findSome? fun path => (probe path).interruption?

/-- A probe that tells of all paths interrupts none of the questions. -/
theorem firstInterruption_eq_none {probe : Probe} {paths : List String} (tells : ∀ p ∈ paths, Tells probe p) :
    firstInterruption probe paths = none := by
  refine List.findSome?_eq_none_iff.2 fun p mem => ?_
  cases answer : probe p with
  | interrupted why => exact absurd answer (tells p mem why)
  | found | absent | failed => rfl

theorem firstInterruption_concat {probe : Probe} {before : List String} {path : String} {why : Interruption}
    (tells : ∀ p ∈ before, Tells probe p) (breaks : probe path = .interrupted why) :
    firstInterruption probe (before ++ [path]) = some why := by
  have none := firstInterruption_eq_none tells
  unfold firstInterruption at none ⊢
  rw [List.findSome?_append, none, Option.none_or, List.findSome?_singleton, breaks]
  rfl

namespace Inquiry

deriving instance DecidableEq for Inquiry

variable {α β : Type} {probe : Probe} {i : Inquiry α}

/-- An inquiry that asks a probe: either there is an answer for every path asked for, and a value in the end; or there
    is none for the last path, and the inquiry breaks off as the probe does. -/
inductive Follows (probe : Probe) : Inquiry α → Prop where
  | answered {asked : List String} {a : α} (tells : ∀ p ∈ asked, Tells probe p) : Follows probe ⟨asked, .ok a⟩
  | cut {before : List String} {path : String} {why : Interruption} (tells : ∀ p ∈ before, Tells probe p)
      (breaks : probe path = .interrupted why) : Follows probe ⟨before ++ [path], .error why⟩

theorem Follows.pure (a : α) : Follows probe (pure a) := .answered fun _ mem => absurd mem List.not_mem_nil

theorem ask_follows (probe : Probe) (path : String) : Follows probe (ask probe path) := by
  unfold ask
  cases answer : probe path with
  | interrupted why =>
      have nothing : ∀ p ∈ ([] : List String), Tells probe p := fun _ mem => absurd mem List.not_mem_nil
      exact .cut nothing answer
  | found | absent | failed =>
      refine .answered fun p mem why broken => ?_
      rw [List.mem_singleton.1 mem, answer] at broken
      cases broken

/-- What is asked first is answered, or it is all that is asked. -/
theorem Follows.bind {f : α → Inquiry β} (first : Follows probe i) (rest : ∀ a, i.result = .ok a → Follows probe (f a)) :
    Follows probe (i >>= f) := by
  cases first with
  | cut tells breaks => exact .cut tells breaks
  | @answered asked a tells =>
      have next := rest a rfl
      have joined : ((⟨asked, .ok a⟩ : Inquiry α) >>= f) = ⟨asked ++ (f a).asked, (f a).result⟩ := rfl
      rw [joined]
      generalize f a = second at next
      cases next with
      | answered further => exact .answered (List.forall_mem_append.2 ⟨tells, further⟩)
      | cut further breaks =>
          rw [← List.append_assoc]
          exact .cut (List.forall_mem_append.2 ⟨tells, further⟩) breaks

theorem Follows.mapM {f : α → Inquiry β} {as : List α} (each : ∀ a ∈ as, Follows probe (f a)) :
    Follows probe (as.mapM f) := by
  induction as with
  | nil => exact .pure []
  | cons a as ih =>
      rw [List.forall_mem_cons] at each
      rw [List.mapM_cons]
      refine each.1.bind fun b _ => ?_
      exact (ih each.2).bind fun bs _ => .pure (b :: bs)

/-- There is a value exactly if there is an answer for every path asked for. -/
theorem Follows.ok_iff (follows : Follows probe i) : (∃ a, i.result = .ok a) ↔ ∀ p ∈ i.asked, Tells probe p := by
  cases follows with
  | answered tells => exact ⟨fun _ => tells, fun _ => ⟨_, rfl⟩⟩
  | @cut before path why _ breaks =>
      constructor
      · rintro ⟨_, ended⟩
        cases ended
      · intro tells
        exact absurd breaks (tells path (List.mem_append_right before (List.mem_singleton_self path)) why)

/-- Two inquiries in turn end well if the first does and then the second. -/
theorem bind_eq_ok_iff {f : α → Inquiry β} {b : β} :
    (i >>= f).result = .ok b ↔ ∃ a, i.result = .ok a ∧ (f a).result = .ok b := by
  obtain ⟨asked, result⟩ := i
  cases result with
  | error why =>
      constructor
      · intro ended
        cases ended
      · rintro ⟨_, ended, _⟩
        cases ended
  | ok a =>
      constructor
      · exact fun ended => ⟨a, rfl, ended⟩
      · rintro ⟨_, first, ended⟩
        cases first
        exact ended

/-- A list of inquiries has values exactly if each of them has one. -/
theorem mapM_eq_ok_iff {f : α → Inquiry β} {as : List α} {bs : List β} :
    (as.mapM f).result = .ok bs ↔ List.Forall₂ (fun a b => (f a).result = .ok b) as bs := by
  induction as generalizing bs with
  | nil =>
      rw [List.mapM_nil, List.forall₂_nil_left_iff]
      exact ⟨fun same => (Except.ok.inj same).symm, fun same => same ▸ rfl⟩
  | cons a as ih =>
      rw [List.mapM_cons, bind_eq_ok_iff, List.forall₂_cons_left_iff]
      constructor
      · rintro ⟨b, first, ended⟩
        obtain ⟨bs', rest, same⟩ := bind_eq_ok_iff.1 ended
        exact ⟨b, bs', first, ih.1 rest, (Except.ok.inj same).symm⟩
      · rintro ⟨b, bs', first, rest, rfl⟩
        exact ⟨b, first, bind_eq_ok_iff.2 ⟨bs', ih.2 rest, rfl⟩⟩

/-- Inquiries that all have values ask one after the other. -/
theorem mapM_eq_of_forall {f : α → Inquiry β} {value : α → β} {as : List α}
    (each : ∀ a ∈ as, (f a).result = .ok (value a)) :
    as.mapM f = ⟨as.flatMap fun a => (f a).asked, .ok (as.map value)⟩ := by
  induction as with
  | nil => rfl
  | cons a as ih =>
      rw [List.forall_mem_cons] at each
      obtain ⟨first, rest⟩ := each
      rw [List.mapM_cons, ih rest]
      simp [bind, Inquiry.bind, pure, Inquiry.pure, first]

end Inquiry

open Inquiry (Follows)

/-- The search for a confirmed path ends early only where the probe interrupts it. -/
theorem firstConfirmed_follows (probe : Probe) (paths : List String) : Follows probe (firstConfirmed probe paths) := by
  induction paths with
  | nil => exact .pure none
  | cons path paths ih =>
      refine (Inquiry.ask_follows probe path).bind fun confirmed _ => ?_
      split
      · exact .pure _
      · exact ih

namespace Resolver

/-- Resolving ends early only where the probe interrupts it. -/
theorem resolveProbing_follows (r : Resolver) (probe : Probe) (file spec : String) :
    Follows probe (r.resolveProbing (some probe) file spec) := by
  unfold resolveProbing
  split
  · exact .pure _
  · exact (firstConfirmed_follows probe _).bind fun found _ => .pure _

/-- Resolving all specifiers ends early only where the probe interrupts it. -/
theorem tableProbing_follows (r : Resolver) (probe : Probe) (file : String) (specs : List String) :
    Follows probe (r.tableProbing (some probe) file specs) :=
  .mapM fun spec _ => (r.resolveProbing_follows probe file spec).bind fun x _ => .pure (spec, x)

end Resolver

end Outline.Specifier
