/-
Module: Outline.Proofs.Walk.Ensures
Layer: Proofs
Purpose: What can be said of everything that a walk gives out: of each declaration, of each export mark, and of the
  value it ends with. Such statements pass through the steps of a walk. A walk that always succeeds does all of
  its steps, so that nothing its steps give out is missing.
Main exports: Walk.Ensures, Walk.Ensures.bind, Walk.Ensures.forEach, Walk.Ensures.within_value,
  Walk.Ensures.forEach_pairwise, Walk.Succeeds, Walk.Succeeds.forEach_reaches, Walk.Marks, Walk.Marks.forEach
-/
import Mathlib.Data.List.Pairwise
import Outline.Module.Walk
import Outline.Proofs.Reading.Ensures

namespace Outline

open Specifier (Resolved Resolver)

variable {α β : Type}

/-- Declarations satisfy `D`, export marks satisfy `E`, and the value, if there is one, satisfies `R`. -/
structure Outcome.Ensures (D : Declaration → Prop) (E : LocalExport → Prop) (R : α → Prop) (o : Outcome α) : Prop where
  declarations : ∀ d ∈ o.declarations, D d
  exports : ∀ e ∈ o.exports, E e
  value : ∀ a, o.result = .ok a → R a

namespace Walk

/-- From any tables, what the walk leaves behind is as asked. -/
def Ensures (D : Declaration → Prop) (E : LocalExport → Prop) (R : α → Prop) (x : Walk α) : Prop :=
  ∀ l, (x l).Ensures D E R

namespace Ensures

variable {D : Declaration → Prop} {E : LocalExport → Prop} {R : α → Prop} {S : β → Prop}

/-- A walk that gives out declarations of one sort gives out declarations of any wider sort. -/
theorem mono {D' : Declaration → Prop} {x : Walk α} (inner : Ensures D E R x) (weaker : ∀ d, D d → D' d) :
    Ensures D' E R x :=
  fun l => ⟨fun d mem => weaker d ((inner l).declarations d mem), (inner l).exports, (inner l).value⟩

/-- A walk that gives out nothing but its value. -/
theorem of_value {x : Walk α} (none : ∀ l, (x l).declarations = [] ∧ (x l).exports = [])
    (value : ∀ l a, (x l).result = .ok a → R a) : Ensures D E R x := by
  intro l
  obtain ⟨noDeclarations, noExports⟩ := none l
  refine ⟨?_, ?_, value l⟩
  · rw [noDeclarations]
    exact fun d mem => absurd mem List.not_mem_nil
  · rw [noExports]
    exact fun e mem => absurd mem List.not_mem_nil

theorem pure {a : α} (value : R a) : Ensures D E R (Pure.pure a) := by
  refine of_value (fun _ => ⟨rfl, rfl⟩) fun l b ended => ?_
  cases ended
  exact value

/-- What two walks in turn ensure: each gives out what it should, and the second starts from what the first answers.
    -/
theorem bind {x : Walk α} {f : α → Walk β} (first : Ensures D E R x) (next : ∀ a, R a → Ensures D E S (f a)) :
    Ensures D E S (x >>= f) := by
  intro l
  obtain ⟨declarations, exports, value⟩ := first l
  simp only [Bind.bind, Walk.bind]
  generalize x l = o at *
  obtain ⟨links, ds, es, events, result⟩ := o
  cases result with
  | error e => exact ⟨declarations, exports, fun _ ended => by cases ended⟩
  | ok a =>
      have rest := next a (value a rfl) links
      refine ⟨fun d mem => ?_, fun e mem => ?_, rest.value⟩
      · exact (List.mem_append.1 mem).elim (declarations d) (rest.declarations d)
      · exact (List.mem_append.1 mem).elim (exports e) (rest.exports e)

/-- Nothing need be known of the first value. -/
theorem after {x : Walk α} {f : α → Walk β} (first : Ensures D E (fun _ => True) x)
    (next : ∀ a, Ensures D E S (f a)) : Ensures D E S (x >>= f) :=
  bind first fun a _ => next a

theorem emit {d : Declaration} (given : D d) : Ensures D E (fun _ => True) (Walk.emit d) :=
  fun _ => ⟨fun _ mem => List.mem_singleton.1 mem ▸ given, fun _ mem => absurd mem List.not_mem_nil,
    fun _ _ => trivial⟩

theorem exportLater {e : LocalExport} (marked : E e) : Ensures D E (fun _ => True) (Walk.exportLater e) :=
  fun _ => ⟨fun _ mem => absurd mem List.not_mem_nil, fun _ mem => List.mem_singleton.1 mem ▸ marked,
    fun _ _ => trivial⟩

theorem note (e : Event) : Ensures D E (fun _ => True) (Walk.note e) :=
  of_value (fun _ => ⟨rfl, rfl⟩) fun _ _ _ => trivial

/-- What is read ensures what the reading does, whatever names are imported. -/
theorem reading {x : Entries Resolved → Reading α} (value : ∀ imports, (x imports).Ensures R) :
    Ensures D E R (Walk.reading x) :=
  of_value (fun _ => ⟨rfl, rfl⟩) fun l => value l.imports

theorem imported? (name : String) : Ensures D E (fun _ => True) (Walk.imported? name) :=
  of_value (fun _ => ⟨rfl, rfl⟩) fun _ _ _ => trivial

theorem resolve (r : Resolver) (file spec : String) : Ensures D E (fun _ => True) (Walk.resolve r file spec) := by
  refine of_value (fun l => ?_) fun _ _ _ => trivial
  unfold Walk.resolve
  split <;> exact ⟨rfl, rfl⟩

theorem bindName (name : String) (x : Resolved) : Ensures D E (fun _ => True) (Walk.bindName name x) := by
  refine of_value (fun l => ?_) fun _ _ _ => trivial
  unfold Walk.bindName
  split <;> exact ⟨rfl, rfl⟩

/-- What was given out before a failure was absorbed is still given out. -/
theorem absorb {x : Walk Unit} (e : Event) (inner : Ensures D E (fun _ => True) x) :
    Ensures D E (fun _ => True) (Walk.absorb e x) := by
  intro l
  obtain ⟨declarations, exports, _⟩ := inner l
  unfold Walk.absorb
  dsimp only
  split
  · exact ⟨declarations, exports, fun _ _ => trivial⟩
  · exact ⟨declarations, exports, fun _ _ => trivial⟩

/-- Nothing of an inner scope gets out. -/
theorem within (finish : List LocalExport → List Declaration → List Declaration) (x : Walk Unit) :
    Ensures D E (fun _ => True) (Walk.within finish x) :=
  of_value (fun _ => ⟨rfl, rfl⟩) fun _ _ _ => trivial

/-- A walk over a list ensures what that over each item does. -/
theorem forEach {f : α → Walk Unit} {as : List α} (each : ∀ a ∈ as, Ensures D E (fun _ => True) (f a)) :
    Ensures D E (fun _ => True) (Walk.forEach f as) := by
  induction as with
  | nil => exact pure trivial
  | cons a as ih =>
      refine after (each a List.mem_cons_self) fun _ => ?_
      exact ih fun b mem => each b (List.mem_cons_of_mem a mem)

/-- What holds of all that an inner scope gives out, and is not lost when it is finished, holds of its value. -/
theorem within_value {P : List Declaration → Prop} {finish : List LocalExport → List Declaration → List Declaration}
    {x : Walk Unit} (inner : ∀ l, P (x l).declarations) (finished : ∀ es ds, P ds → P (finish es ds)) :
    Ensures D E P (Walk.within finish x) := by
  refine of_value (fun _ => ⟨rfl, rfl⟩) fun l ds ended => ?_
  unfold Walk.within at ended
  dsimp only at ended
  cases result : (x l).result with
  | error e =>
      rw [result] at ended
      cases ended
  | ok _ =>
      rw [result] at ended
      cases ended
      exact finished _ _ (inner l)

/-- Declarations given out one after the other are in order, if those of each step are, and those of earlier steps
    come before those of later ones. -/
theorem forEach_pairwise {r : Declaration → Declaration → Prop} {G : α → Declaration → Prop} {f : α → Walk Unit}
    {as : List α} (each : ∀ a ∈ as, Ensures (G a) E (fun _ => True) (f a))
    (alone : ∀ a ∈ as, ∀ d e, G a d → G a e → r d e) (apart : as.Pairwise fun a b => ∀ d e, G a d → G b e → r d e)
    (l : Links) : (Walk.forEach f as l).declarations.Pairwise r := by
  induction as generalizing l with
  | nil => exact .nil
  | cons a as ih =>
      obtain ⟨before, apart⟩ := List.pairwise_cons.1 apart
      have first := each a List.mem_cons_self l
      have ordered : (f a l).declarations.Pairwise r := by
        apply List.pairwise_of_forall_mem_list
        intro d mem e mem'
        exact alone a List.mem_cons_self d e (first.declarations d mem) (first.declarations e mem')
      cases ended : (f a l).result with
      | error e =>
          simp only [Walk.forEach, Bind.bind, Walk.bind, ended]
          exact ordered
      | ok _ =>
          simp only [Walk.forEach, Bind.bind, Walk.bind, ended]
          have later : Ensures (fun e => ∃ b ∈ as, G b e) E (fun _ => True) (Walk.forEach f as) :=
            forEach fun b mem => (each b (List.mem_cons_of_mem a mem)).mono fun e given => ⟨b, mem, given⟩
          have rest := ih (fun b mem => each b (List.mem_cons_of_mem a mem))
            (fun b mem => alone b (List.mem_cons_of_mem a mem)) apart (f a l).links
          refine List.pairwise_append.2 ⟨ordered, rest, fun d mem e mem' => ?_⟩
          obtain ⟨b, among, given⟩ := (later _).declarations e mem'
          exact before b among d e (first.declarations d mem) given

end Ensures

/-!
### Walks that do all of their steps
-/

theorem pure_bind (a : α) (f : α → Walk β) : (Pure.pure a >>= f : Walk β) = f a := rfl

/-- From any tables, the walk ends with a value. -/
def Succeeds (x : Walk α) : Prop := ∀ l, ∃ a, (x l).result = .ok a

namespace Succeeds

theorem pure (a : α) : Succeeds (Pure.pure a) := fun _ => ⟨a, rfl⟩

theorem bind {x : Walk α} {f : α → Walk β} (first : Succeeds x) (next : ∀ a, Succeeds (f a)) :
    Succeeds (x >>= f) := by
  intro l
  obtain ⟨a, ended⟩ := first l
  obtain ⟨b, endedNext⟩ := next a (x l).links
  refine ⟨b, ?_⟩
  simp only [Bind.bind, Walk.bind, ended]
  exact endedNext

theorem emit (d : Declaration) : Succeeds (Walk.emit d) := fun _ => ⟨(), rfl⟩

theorem exportLater (e : LocalExport) : Succeeds (Walk.exportLater e) := fun _ => ⟨(), rfl⟩

theorem note (e : Event) : Succeeds (Walk.note e) := fun _ => ⟨(), rfl⟩

theorem imported? (name : String) : Succeeds (Walk.imported? name) := fun _ => ⟨_, rfl⟩

theorem resolve (r : Resolver) (file spec : String) : Succeeds (Walk.resolve r file spec) := by
  intro l
  unfold Walk.resolve
  split <;> exact ⟨_, rfl⟩

/-- Whatever the walk inside does. -/
theorem absorb (e : Event) (x : Walk Unit) : Succeeds (Walk.absorb e x) := by
  intro l
  unfold Walk.absorb
  dsimp only
  split
  · exact ⟨_, ‹_›⟩
  · exact ⟨(), rfl⟩

theorem forEach {f : α → Walk Unit} {as : List α} (each : ∀ a ∈ as, Succeeds (f a)) :
    Succeeds (Walk.forEach f as) := by
  induction as with
  | nil => exact pure ()
  | cons a as ih =>
      refine bind (each a List.mem_cons_self) fun _ => ?_
      exact ih fun b mem => each b (List.mem_cons_of_mem a mem)

end Succeeds

/-- After a step that succeeds, the next one is walked, and what both give out is given out. -/
theorem bind_eq_of_ok {x : Walk α} {f : α → Walk β} {l : Links} {a : α} (ended : (x l).result = .ok a) :
    (x >>= f) l =
      { links := (f a (x l).links).links
        declarations := (x l).declarations ++ (f a (x l).links).declarations
        exports := (x l).exports ++ (f a (x l).links).exports
        events := (x l).events ++ (f a (x l).links).events
        result := (f a (x l).links).result } := by
  simp only [Bind.bind, Walk.bind, ended]

/-- A failure that is absorbed takes no declaration back. -/
@[simp] theorem absorb_declarations (e : Event) (x : Walk Unit) (l : Links) :
    (Walk.absorb e x l).declarations = (x l).declarations := by
  unfold Walk.absorb
  dsimp only
  split <;> rfl

/-- If all steps succeed, each one is reached, and its declarations are among those of the walk. -/
theorem Succeeds.forEach_reaches {f : α → Walk Unit} {a : α} {as : List α} (among : a ∈ as)
    (each : ∀ b ∈ as, Succeeds (f b)) (l : Links) :
    ∃ l', (f a l').declarations ⊆ (Walk.forEach f as l).declarations := by
  induction as generalizing l with
  | nil => simp at among
  | cons b bs ih =>
      obtain ⟨_, ended⟩ := each b List.mem_cons_self l
      rw [Walk.forEach, bind_eq_of_ok ended]
      rcases List.mem_cons.1 among with rfl | among
      · exact ⟨l, List.subset_append_left _ _⟩
      · obtain ⟨l', reached⟩ := ih among (fun c mem => each c (List.mem_cons_of_mem b mem)) (f b l).links
        exact ⟨l', List.subset_append_of_subset_right _ reached⟩

/-- From any tables, the walk marks `e` for export. -/
def Marks (e : LocalExport) (x : Walk α) : Prop := ∀ l, e ∈ (x l).exports

namespace Marks

variable {e : LocalExport}

theorem exportLater : Marks e (Walk.exportLater e) := fun _ => List.mem_singleton.2 rfl

/-- What was marked stays marked, however the walk goes on. -/
theorem bind {x : Walk α} {f : α → Walk β} (first : Marks e x) : Marks e (x >>= f) := by
  intro l
  have marked := first l
  simp only [Bind.bind, Walk.bind]
  split
  · exact marked
  · exact List.mem_append_left _ marked

/-- The second step is reached if the first succeeds. -/
theorem after {x : Walk α} {f : α → Walk β} (first : Succeeds x) (next : ∀ a, Marks e (f a)) :
    Marks e (x >>= f) := by
  intro l
  obtain ⟨a, ended⟩ := first l
  have marked := next a (x l).links
  simp only [Bind.bind, Walk.bind, ended]
  exact List.mem_append_right _ marked

/-- A failure that is absorbed takes no request back. -/
theorem absorb {x : Walk Unit} (event : Event) (inner : Marks e x) : Marks e (Walk.absorb event x) := by
  intro l
  have marked := inner l
  unfold Walk.absorb
  dsimp only
  split
  · exact marked
  · exact marked

/-- A step that marks is reached if the steps before it succeed. -/
theorem forEach {f : α → Walk Unit} {a : α} {as : List α} (among : a ∈ as) (marked : Marks e (f a))
    (each : ∀ b ∈ as, Succeeds (f b)) : Marks e (Walk.forEach f as) := by
  induction as with
  | nil => exact absurd among List.not_mem_nil
  | cons b bs ih =>
      rcases List.mem_cons.1 among with rfl | among
      · exact bind marked
      · refine after (each b List.mem_cons_self) fun _ => ?_
        exact ih among fun c mem => each c (List.mem_cons_of_mem b mem)

end Marks

end Walk

end Outline
