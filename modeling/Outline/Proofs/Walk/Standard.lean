/-
Module: Outline.Proofs.Walk.Standard
Layer: Proofs
Purpose: What a walk keeps up while its tables grow. A `Standard` asks something of the tables and something of each
  declaration in view of the tables; a declaration that meets it goes on meeting it as more names are imported. If
  every step of a walk keeps to a standard, so does the walk, and all that it gives out meets the standard in view of
  the tables at its end.
Main exports: Links.Extends, Standard, Outcome.Meets, Walk.Meets, Walk.Meets.bind, Walk.Meets.forEach,
  Walk.Meets.within
-/
import Outline.Module.Walk
import Outline.Proofs.Dependency.Names
import Outline.Proofs.Reading.Ensures

namespace Outline

open Specifier (Resolved Resolver)

variable {α β : Type}

/-- Every name imported in `l` is imported in `l'`, perhaps bound to something else. -/
def Links.Extends (l l' : Links) : Prop :=
  ∀ name, (Entries.get? l.imports name).isSome → (Entries.get? l'.imports name).isSome

namespace Links.Extends

theorem refl (l : Links) : l.Extends l := fun _ imported => imported

/-- Tables that extend an extension extend the first ones. -/
theorem trans {l l' l'' : Links} (first : l.Extends l') (second : l'.Extends l'') : l.Extends l'' :=
  fun name imported => second name (first name imported)

/-- Binding a name leaves all names imported. -/
theorem put (l : Links) (name : String) (x : Resolved) :
    l.Extends { l with imports := Entries.put l.imports name x } := by
  intro other imported
  rw [Entries.isSome_get?_put, imported]
  simp

end Links.Extends

/-- What a walk is held to. -/
structure Standard where
  links : Links → Prop
  declaration : Links → Declaration → Prop
  /-- Imports that come later do a declaration no harm. -/
  lasting {l l' : Links} {d : Declaration} : l.Extends l' → declaration l d → declaration l' d

/-- What a walk from the tables `before` leaves behind meets a standard, and its value, if there is one,
    satisfies `R`. -/
structure Outcome.Meets (k : Standard) (R : Links → α → Prop) (before : Links) (o : Outcome α) : Prop where
  links : k.links o.links
  grown : before.Extends o.links
  declarations : ∀ d ∈ o.declarations, k.declaration o.links d
  value : ∀ a, o.result = .ok a → R o.links a

namespace Walk

/-- From any tables that meet the standard, what the walk leaves behind meets it. -/
def Meets (k : Standard) (R : Links → α → Prop) (x : Walk α) : Prop :=
  ∀ l, k.links l → (x l).Meets k R l

namespace Meets

variable {k : Standard} {R : Links → α → Prop} {S : Links → β → Prop}

/-- A walk that leaves the tables alone and gives out nothing but its value. -/
theorem of_value {x : Walk α} (same : ∀ l, (x l).links = l) (none : ∀ l, (x l).declarations = [])
    (value : ∀ l a, k.links l → (x l).result = .ok a → R l a) : Meets k R x := by
  intro l links
  constructor
  · rw [same]
    exact links
  · rw [same]
    exact .refl l
  · simp [none]
  · intro a ended
    rw [same]
    exact value l a links ended

/-- One standard instead of another that asks the same of tables, if it asks no more of what the walk gives out. -/
theorem recast {k' : Standard} {x : Walk α} (links : ∀ l, k.links l ↔ k'.links l) (met : Meets k R x)
    (given : ∀ l, ∀ d ∈ (x l).declarations, k.declaration (x l).links d → k'.declaration (x l).links d) :
    Meets k' R x := by
  intro l meets
  have before := met l ((links l).2 meets)
  constructor
  · exact (links _).1 before.links
  · exact before.grown
  · exact fun d mem => given l d mem (before.declarations d mem)
  · exact before.value

/-- Answering at once meets a standard if the answer is a right one for all tables. -/
theorem pure {a : α} (value : ∀ l, R l a) : Meets k R (Pure.pure a) := by
  apply of_value (fun _ => rfl) (fun _ => rfl)
  intro l b _ ended
  cases ended
  exact value l

theorem note (e : Event) : Meets k (fun _ _ => True) (Walk.note e) :=
  of_value (fun _ => rfl) (fun _ => rfl) fun _ _ _ _ => trivial

theorem exportLater (e : LocalExport) : Meets k (fun _ _ => True) (Walk.exportLater e) :=
  of_value (fun _ => rfl) (fun _ => rfl) fun _ _ _ _ => trivial

/-- Reading meets a standard if, from tables that meet it, what is read does. -/
theorem reading {x : Entries Resolved → Reading α} (value : ∀ l, k.links l → (x l.imports).Ensures (R l)) :
    Meets k R (Walk.reading x) :=
  of_value (fun _ => rfl) (fun _ => rfl) fun l a links => value l links a

/-- Seen from given tables, which reading leaves as they are. -/
theorem reading_at {x : Entries Resolved → Reading α} {P : α → Prop} {l : Links} (links : k.links l)
    (value : (x l.imports).Ensures P) : (Walk.reading x l).Meets k (fun l' a => l' = l ∧ P a) l :=
  ⟨links, .refl l, fun _ mem => absurd mem List.not_mem_nil, fun a ended => ⟨rfl, value a ended⟩⟩

/-- What is found under an imported name. -/
theorem imported? (name : String) :
    Meets k (fun l found => Entries.get? l.imports name = found) (Walk.imported? name) := by
  apply of_value (fun _ => rfl) (fun _ => rfl)
  intro l found _ ended
  cases ended
  rfl

/-- Whether a specifier is found in the table or resolved and stored there. -/
theorem resolve {r : Resolver} {file spec : String} {P : Resolved → Prop}
    (found : ∀ l x, k.links l → Entries.get? l.resolved spec = some x → P x)
    (stored : ∀ l, k.links l → Entries.get? l.resolved spec = none →
      k.links { l with resolved := Entries.put l.resolved spec (r.resolve file spec) })
    (fresh : P (r.resolve file spec)) : Meets k (fun _ => P) (Walk.resolve r file spec) := by
  intro l links
  unfold Walk.resolve
  split
  next x known =>
    refine ⟨links, .refl l, by simp, fun y ended => ?_⟩
    cases ended
    exact found l x links known
  next unknown =>
    refine ⟨stored l links unknown, .refl l, by simp, fun y ended => ?_⟩
    cases ended
    exact fresh

/-- Giving out a declaration meets a standard if the declaration does, for the tables of the moment. -/
theorem emit {d : Declaration} {l : Links} (links : k.links l) (given : k.declaration l d) :
    (Walk.emit d l).Meets k (fun _ _ => True) l := by
  constructor
  · exact links
  · exact .refl l
  · intro e mem
    rw [List.mem_singleton.1 mem]
    exact given
  · exact fun _ _ => trivial

/-- One walk after another, seen from given tables. The second starts where the first ends, and what the first gave
    out goes on meeting the standard. -/
theorem bind_at {x : Walk α} {f : α → Walk β} {l : Links} (first : (x l).Meets k R l)
    (next : ∀ a l', k.links l' → l.Extends l' → R l' a → (f a l').Meets k S l') : ((x >>= f) l).Meets k S l := by
  obtain ⟨links, grown, declarations, value⟩ := first
  simp only [Bind.bind, Walk.bind]
  generalize x l = o at *
  obtain ⟨l', ds, es, events, result⟩ := o
  cases result with
  | error e => exact ⟨links, grown, declarations, fun _ ended => by cases ended⟩
  | ok a =>
      have rest := next a l' links grown (value a rfl)
      constructor
      · exact rest.links
      · exact grown.trans rest.grown
      · intro d mem
        rcases List.mem_append.1 mem with earlier | later
        · exact k.lasting rest.grown (declarations d earlier)
        · exact rest.declarations d later
      · exact rest.value

/-- Two walks in turn meet a standard if the second does from every state that the first can leave. -/
theorem bind {x : Walk α} {f : α → Walk β} (first : Meets k R x)
    (next : ∀ a l, k.links l → R l a → (f a l).Meets k S l) : Meets k S (x >>= f) :=
  fun l links => bind_at (first l links) fun a l' links _ => next a l' links

/-- What is known of the first value has nothing to do with the tables. -/
theorem seq {P : α → Prop} {x : Walk α} {f : α → Walk β} (first : Meets k (fun _ => P) x)
    (next : ∀ a, P a → Meets k S (f a)) : Meets k S (x >>= f) :=
  bind first fun a l links known => next a known l links

/-- Nothing need be known of the first value. -/
theorem after {x : Walk α} {f : α → Walk β} (first : Meets k R x) (next : ∀ a, Meets k S (f a)) :
    Meets k S (x >>= f) :=
  bind first fun a l links _ => next a l links

/-- What was given out before a failure was absorbed still meets the standard. -/
theorem absorb {x : Walk Unit} (e : Event) (inner : Meets k (fun _ _ => True) x) :
    Meets k (fun _ _ => True) (Walk.absorb e x) := by
  intro l links
  obtain ⟨links, grown, declarations, _⟩ := inner l links
  unfold Walk.absorb
  dsimp only
  split
  · exact ⟨links, grown, declarations, fun _ _ => trivial⟩
  · exact ⟨links, grown, declarations, fun _ _ => trivial⟩

/-- The declarations of an inner scope meet the standard as its value. -/
theorem within {finish : List LocalExport → List Declaration → List Declaration} {x : Walk Unit}
    (inner : Meets k (fun _ _ => True) x)
    (finished : ∀ l es ds, (∀ d ∈ ds, k.declaration l d) → ∀ d ∈ finish es ds, k.declaration l d) :
    Meets k (fun l ds => ∀ d ∈ ds, k.declaration l d) (Walk.within finish x) := by
  intro l links
  obtain ⟨links, grown, declarations, _⟩ := inner l links
  unfold Walk.within
  dsimp only
  refine ⟨links, grown, fun d mem => absurd mem List.not_mem_nil, ?_⟩
  intro ds ended
  cases result : (x l).result with
  | error e =>
      rw [result] at ended
      cases ended
  | ok _ =>
      rw [result] at ended
      cases ended
      exact finished _ _ _ declarations

/-- A walk over a list meets a standard if that over each item does. -/
theorem forEach {f : α → Walk Unit} {as : List α} (each : ∀ a ∈ as, Meets k (fun _ _ => True) (f a)) :
    Meets k (fun _ _ => True) (Walk.forEach f as) := by
  induction as with
  | nil => exact pure fun _ => trivial
  | cons a as ih =>
      apply after (each a List.mem_cons_self)
      intro _
      exact ih fun b mem => each b (List.mem_cons_of_mem a mem)

end Meets

end Walk

end Outline
