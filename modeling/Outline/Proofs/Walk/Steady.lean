/-
Module: Outline.Proofs.Walk.Steady
Layer: Proofs
Purpose: Walks that do the same to the tables wherever they start. What a walk does to the tables is a list of steps:
  a specifier is asked for, and names are bound to what it refers to. In one file every specifier has one answer. A
  steady walk takes the same steps from all tables that hold these answers, and ends alike from all of them. Taking
  the same steps twice is taking them once.
Main exports: LinkStep, LinkStep.applyAll, LinkStep.applyAll_twice, Answers, Answers.Fits, Answers.Sound, Walk.Quiet,
  Walk.Moves, Walk.Steady, Walk.Steady.forEach, Walk.Binds
-/
import Mathlib.Data.List.Induction
import Outline.Module.Walk
import Outline.Proofs.Specifier.Tables
import Outline.Proofs.Walk.Ensures

namespace Outline

open Specifier (Resolved Resolver)

/-!
### Storing twice
-/

namespace Entries

variable {α : Type}

/-- Of two values stored under one key the second stays. -/
theorem put_put_self (m : Entries α) (key : String) (first second : α) :
    put (put m key first) key second = put m key second := by
  induction m with
  | nil => simp [put]
  | cons p rest ih =>
      obtain ⟨k, v⟩ := p
      by_cases same : k = key <;> simp [put, same, ih]

/-- Values may be stored in either order if one of the keys has its place already. -/
theorem put_comm {m : Entries α} {key other : String} (present : (get? m other).isSome) (differ : other ≠ key)
    (value value' : α) : put (put m key value) other value' = put (put m other value') key value := by
  induction m with
  | nil => simp [get?] at present
  | cons p rest ih =>
      obtain ⟨k, v⟩ := p
      by_cases first : k = key
      · subst first
        simp [put, Ne.symm differ]
      · by_cases second : k = other
        · subst second
          simp [put, first]
        · simp only [get?, second, if_false] at present
          simp [put, first, second, ih present]

/-- The keys after storing several pairs are those before and those of the pairs. -/
theorem isSome_get?_merge {m ps : Entries α} {key : String} :
    (get? (merge m ps) key).isSome ↔ key ∈ keys ps ∨ (get? m key).isSome := by
  induction ps generalizing m with
  | nil => simp [merge, keys]
  | cons p ps ih =>
      obtain ⟨k, v⟩ := p
      have rest := ih (m := put m k v)
      rw [isSome_get?_put] at rest
      simp only [merge, List.foldl_cons, keys, List.map_cons, List.mem_cons] at rest ⊢
      rw [rest]
      simp only [Bool.or_eq_true, decide_eq_true_eq]
      tauto

/-- What is stored under a key before other pairs does not matter if it is stored over afterwards. -/
theorem put_merge_put {m ps : Entries α} (present : ∀ k ∈ keys ps, (get? m k).isSome) (key : String)
    (first last : α) : put (merge (put m key first) ps) key last = put (merge m ps) key last := by
  induction ps generalizing m first with
  | nil => exact put_put_self m key first last
  | cons p ps ih =>
      obtain ⟨k, v⟩ := p
      have here : (get? m k).isSome := present k (by simp [keys])
      have after : ∀ k' ∈ keys ps, (get? (put m k v) k').isSome := by
        intro k' mem
        rw [isSome_get?_put, present k' (by simpa [keys] using Or.inr mem)]
        simp
      simp only [merge, List.foldl_cons] at ih ⊢
      by_cases same : k = key
      · subst same
        rw [put_put_self]
      · rw [put_comm here same]
        exact ih after first

/-- Storing the same pairs again changes nothing. -/
theorem merge_twice (m ps : Entries α) : merge (merge m ps) ps = merge m ps := by
  induction ps using List.reverseRecOn with
  | nil => rfl
  | append_singleton ps p ih =>
      obtain ⟨k, v⟩ := p
      have last : ∀ m : Entries α, merge m (ps ++ [(k, v)]) = put (merge m ps) k v := by
        intro m
        simp [merge]
      have present : ∀ k' ∈ keys ps, (get? (merge m ps) k').isSome :=
        fun k' mem => isSome_get?_merge.2 (Or.inl mem)
      calc merge (merge m (ps ++ [(k, v)])) (ps ++ [(k, v)])
          = put (merge (put (merge m ps) k v) ps) k v := by rw [last, last]
        _ = put (merge (merge m ps) ps) k v := put_merge_put present k v v
        _ = merge m (ps ++ [(k, v)]) := by rw [ih, last]

end Entries

/-!
### What a walk does to the tables
-/

/-- A specifier that is asked for, and the names that are bound to what it refers to. -/
structure LinkStep where
  specifier : String
  names : List String

namespace LinkStep

variable (look : String → Resolved)

/-- The names that a step binds, with what they are bound to. -/
def bindings (step : LinkStep) : Entries Resolved := step.names.map (·, look step.specifier)

/-- The tables after a step, if `look` tells what specifiers refer to. -/
def apply (l : Links) (step : LinkStep) : Links where
  imports := Entries.merge l.imports (step.bindings look)
  resolved :=
    if (Entries.get? l.resolved step.specifier).isSome then l.resolved
    else Entries.put l.resolved step.specifier (look step.specifier)

/-- The tables after several steps. -/
def applyAll (l : Links) (steps : List LinkStep) : Links := steps.foldl (apply look) l

theorem applyAll_append (l : Links) (steps more : List LinkStep) :
    applyAll look l (steps ++ more) = applyAll look (applyAll look l steps) more :=
  List.foldl_append

/-- All names that the steps bind, stored one after the other. -/
theorem imports_applyAll (l : Links) (steps : List LinkStep) :
    (applyAll look l steps).imports = Entries.merge l.imports (steps.flatMap (bindings look)) := by
  induction steps generalizing l with
  | nil => rfl
  | cons step steps ih =>
      have rest := ih (apply look l step)
      simp only [applyAll, List.foldl_cons, List.flatMap_cons, Entries.merge, List.foldl_append] at rest ⊢
      rw [rest]
      rfl

/-- Steps without names bind nothing. -/
theorem imports_applyAll_of_nameless {steps : List LinkStep} (nameless : ∀ step ∈ steps, step.names = [])
    (l : Links) : (applyAll look l steps).imports = l.imports := by
  have none : steps.flatMap (bindings look) = [] := by
    rw [List.flatMap_eq_nil_iff]
    intro step mem
    simp [bindings, nameless step mem]
  rw [imports_applyAll, none]
  rfl

/-- A specifier has an answer after a step if it had one or the step asked for it. -/
theorem isSome_get?_apply {l : Links} {step : LinkStep} {spec : String} :
    (Entries.get? (apply look l step).resolved spec).isSome ↔
      spec = step.specifier ∨ (Entries.get? l.resolved spec).isSome := by
  unfold apply
  dsimp only
  split
  next known =>
    constructor
    · exact Or.inr
    · rintro (rfl | known')
      · exact known
      · exact known'
  next => simp [Entries.isSome_get?_put]

/-- The table holds the specifiers that were asked for and those it held before. -/
theorem isSome_get?_applyAll {l : Links} {steps : List LinkStep} {spec : String} :
    (Entries.get? (applyAll look l steps).resolved spec).isSome ↔
      (∃ step ∈ steps, spec = step.specifier) ∨ (Entries.get? l.resolved spec).isSome := by
  induction steps generalizing l with
  | nil => simp [applyAll]
  | cons step steps ih =>
      have rest := ih (l := apply look l step)
      rw [isSome_get?_apply] at rest
      simp only [applyAll, List.foldl_cons, List.mem_cons, exists_eq_or_imp] at rest ⊢
      rw [rest, or_left_comm, or_assoc]

/-- Specifiers that the table holds are not stored again. -/
theorem resolved_applyAll_of_known {l : Links} {steps : List LinkStep}
    (known : ∀ step ∈ steps, (Entries.get? l.resolved step.specifier).isSome) :
    (applyAll look l steps).resolved = l.resolved := by
  induction steps generalizing l with
  | nil => rfl
  | cons step steps ih =>
      rw [List.forall_mem_cons] at known
      have same : (apply look l step).resolved = l.resolved := if_pos known.1
      have rest := ih (l := apply look l step) (by rw [same]; exact known.2)
      rw [same] at rest
      exact rest

/-- Steps taken again change nothing. -/
theorem applyAll_twice (l : Links) (steps : List LinkStep) :
    applyAll look (applyAll look l steps) steps = applyAll look l steps := by
  have imports : (applyAll look (applyAll look l steps) steps).imports = (applyAll look l steps).imports := by
    rw [imports_applyAll, imports_applyAll, Entries.merge_twice]
  have resolved : (applyAll look (applyAll look l steps) steps).resolved = (applyAll look l steps).resolved := by
    apply resolved_applyAll_of_known
    intro step mem
    exact (isSome_get?_applyAll look).2 (Or.inl ⟨step, mem, rfl⟩)
  exact congrArg₂ Links.mk imports resolved

end LinkStep

/-!
### Answers
-/

/-- What the specifiers of a file refer to: as a first table says, which has each under its own name, else as the
    resolver says. -/
structure Answers where
  resolver : Resolver
  file : String
  table : Entries Resolved
  own : ∀ spec x, Entries.get? table spec = some x → x.specifier = spec

namespace Answers

variable (a : Answers)

/-- What a specifier refers to. -/
def look (spec : String) : Resolved := (Entries.get? a.table spec).getD (a.resolver.resolve a.file spec)

/-- The answer that is looked up for a specifier is one for it. -/
theorem specifier_look (spec : String) : (a.look spec).specifier = spec := by
  unfold look
  cases known : Entries.get? a.table spec with
  | none => rfl
  | some x => exact a.own spec x known

/-- A table gives no other answers, and is not short of those of the first table. -/
structure Fits (table : Entries Resolved) : Prop where
  agrees : ∀ spec x, Entries.get? table spec = some x → x = a.look spec
  holds : ∀ spec, (Entries.get? a.table spec).isSome → (Entries.get? table spec).isSome

/-- The table of specifiers fits, and holds what every imported name is bound to. -/
structure Sound (l : Links) : Prop where
  resolved : a.Fits l.resolved
  imports : ∀ name x, Entries.get? l.imports name = some x → Entries.get? l.resolved x.specifier = some x

/-- The first table, with nothing imported. -/
theorem sound_start : a.Sound { resolved := a.table } := by
  refine ⟨⟨fun spec x found => ?_, fun _ => id⟩, fun name x found => ?_⟩
  · simp [look, found]
  · simp [Entries.get?] at found

variable {a} {l : Links}

/-- A specifier that a fitting table lacks is for the resolver. -/
theorem Fits.look_eq_resolve {table : Entries Resolved} (fits : a.Fits table) {spec : String}
    (unknown : Entries.get? table spec = none) : a.look spec = a.resolver.resolve a.file spec := by
  have absent : Entries.get? a.table spec = none := by
    by_contra known
    have held := fits.holds spec (Option.isSome_iff_ne_none.2 known)
    simp [unknown] at held
  simp [look, absent]

/-- Asking for a specifier gives its answer, and is a step. -/
theorem Fits.resolve (fits : a.Fits l.resolved) (spec : String) :
    Walk.resolve a.resolver a.file spec l =
      { links := LinkStep.apply a.look l ⟨spec, []⟩, result := .ok (a.look spec) } := by
  unfold Walk.resolve LinkStep.apply
  split
  next x found => simp [found, fits.agrees spec x found, LinkStep.bindings, Entries.merge]
  next unknown => simp [unknown, fits.look_eq_resolve unknown, LinkStep.bindings, Entries.merge]

/-- A step stores the answer that would be looked up anyway. -/
theorem Fits.apply (fits : a.Fits l.resolved) (step : LinkStep) :
    a.Fits (LinkStep.apply a.look l step).resolved := by
  refine ⟨fun spec x found => ?_, fun spec known => ?_⟩
  · unfold LinkStep.apply at found
    dsimp only at found
    split at found
    · exact fits.agrees spec x found
    · by_cases same : spec = step.specifier
      · subst same
        rw [Entries.get?_put_self] at found
        cases found
        rfl
      · rw [Entries.get?_put_of_ne _ _ same] at found
        exact fits.agrees spec x found
  · exact (LinkStep.isSome_get?_apply a.look).2 (Or.inr (fits.holds spec known))

/-- What a fitting table holds is the answer. -/
theorem Fits.get?_eq_look {table : Entries Resolved} (fits : a.Fits table) {spec : String}
    (known : (Entries.get? table spec).isSome) : Entries.get? table spec = some (a.look spec) := by
  obtain ⟨x, held⟩ := Option.isSome_iff_exists.1 known
  rw [held, fits.agrees spec x held]

/-- What a name may be bound to when its specifier is in the table. -/
theorem get?_merge_names {P : Resolved → Prop} {x : Resolved} (stored : P x) (names : List String)
    {m : Entries Resolved} (each : ∀ name y, Entries.get? m name = some y → P y) (name : String) (y : Resolved)
    (found : Entries.get? (Entries.merge m (names.map (·, x))) name = some y) : P y := by
  induction names generalizing m with
  | nil => exact each name y found
  | cons first names ih => exact ih (Entries.forall_get?_put each stored) found

/-- A step leaves sound tables sound: the names it binds go by a specifier that it stores. -/
theorem Sound.apply (sound : a.Sound l) (step : LinkStep) : a.Sound (LinkStep.apply a.look l step) := by
  have fits := sound.resolved.apply step
  refine ⟨fits, get?_merge_names ?_ step.names fun name x found => ?_⟩
  · rw [a.specifier_look]
    exact fits.get?_eq_look ((LinkStep.isSome_get?_apply a.look).2 (Or.inl rfl))
  · have held := sound.imports name x found
    rw [fits.get?_eq_look ((LinkStep.isSome_get?_apply a.look).2 (Or.inr (Option.isSome_of_eq_some held))),
      ← sound.resolved.agrees _ x held]

theorem Sound.applyAll (sound : a.Sound l) (steps : List LinkStep) : a.Sound (LinkStep.applyAll a.look l steps) := by
  induction steps generalizing l with
  | nil => exact sound
  | cons step steps ih => exact ih (sound.apply step)

end Answers

/-!
### Walks
-/

/-- How a walk ended, without its value. -/
def Outcome.ending {α : Type} (o : Outcome α) : Except Undecodable Unit := o.result.map fun _ => ()

theorem Outcome.ending_eq_result (o : Outcome Unit) : o.ending = o.result := by
  unfold Outcome.ending
  cases o.result <;> rfl

/-- What a walk gave out, without the tables it left. -/
def Outcome.given {α : Type} (o : Outcome α) : List Declaration × List LocalExport × Except Undecodable α :=
  (o.declarations, o.exports, o.result)

namespace Walk

variable {α β : Type} (a : Answers) (allowed : LinkStep → Prop)

/-- The walk leaves all tables alone, and comes to the same end from all of them. -/
def Constant (c : Except Undecodable α) (x : Walk α) : Prop := ∀ l, (x l).links = l ∧ (x l).result = c

/-- The walk leaves sound tables alone. -/
def Quiet (x : Walk α) : Prop := ∀ l, a.Sound l → (x l).links = l

/-- From all sound tables the walk takes the same steps, all of them allowed. -/
def Moves (x : Walk α) : Prop :=
  ∃ steps, (∀ step ∈ steps, allowed step) ∧ ∀ l, a.Sound l → (x l).links = LinkStep.applyAll a.look l steps

/-- Moreover the walk ends alike from all sound tables. -/
def Steady (x : Walk α) : Prop :=
  ∃ steps, (∀ step ∈ steps, allowed step) ∧ ∃ ending, ∀ l, a.Sound l →
    (x l).links = LinkStep.applyAll a.look l steps ∧ (x l).ending = ending

variable {a allowed}

/-- A reading that does not look at what is imported. -/
theorem Constant.reading {c : Except Undecodable α} {x : Entries Resolved → Reading α}
    (same : ∀ imports, (x imports).result = c) : Constant c (Walk.reading x) :=
  fun l => ⟨rfl, same l.imports⟩

/-- A walk that always answers the same does so under a function. -/
theorem Constant.map {c : Except Undecodable α} {x : Walk α} (constant : Constant c x) (g : α → β) :
    Constant (c.map g) (x >>= fun v => Pure.pure (g v)) := by
  intro l
  obtain ⟨links, result⟩ := constant l
  simp only [Bind.bind, Walk.bind, result]
  cases c with
  | error e => exact ⟨links, rfl⟩
  | ok v => exact ⟨links, rfl⟩

namespace Quiet

theorem bind {x : Walk α} {f : α → Walk β} (first : Quiet a x) (next : ∀ v, Quiet a (f v)) : Quiet a (x >>= f) := by
  intro l sound
  have same := first l sound
  simp only [Bind.bind, Walk.bind]
  cases (x l).result with
  | error e => exact same
  | ok v =>
      dsimp only
      rw [same]
      exact next v l sound

theorem pure (v : α) : Quiet a (Pure.pure v) := fun _ _ => rfl

/-- Reading gives out nothing and looks nothing up, so it is quiet. -/
theorem reading (x : Entries Resolved → Reading α) : Quiet a (Walk.reading x) := fun _ _ => rfl

theorem emit (d : Declaration) : Quiet a (Walk.emit d) := fun _ _ => rfl

theorem exportLater (e : LocalExport) : Quiet a (Walk.exportLater e) := fun _ _ => rfl

theorem note (e : Event) : Quiet a (Walk.note e) := fun _ _ => rfl

/-- A walk over a list is quiet if that over each item is. -/
theorem forEach {f : α → Walk Unit} {vs : List α} (each : ∀ v ∈ vs, Quiet a (f v)) :
    Quiet a (Walk.forEach f vs) := by
  induction vs with
  | nil => exact pure ()
  | cons v vs ih =>
      rw [List.forall_mem_cons] at each
      exact bind each.1 fun _ => ih each.2

/-- The specifier of an imported name is in the table, so that asking for it adds nothing. -/
theorem resolve_imported (name : String) {f : Option Resolved → Walk β}
    (unknown : Quiet a (f none)) {g : Resolved → Resolved → Walk β}
    (known : ∀ x, f (some x) = Walk.resolve a.resolver a.file x.specifier >>= g x)
    (next : ∀ x y, Quiet a (g x y)) : Quiet a (Walk.imported? name >>= f) := by
  intro l sound
  simp only [Bind.bind, Walk.bind, Walk.imported?]
  cases bound : Entries.get? l.imports name with
  | none => exact unknown l sound
  | some x =>
      have held := sound.imports name x bound
      have asked : Walk.resolve a.resolver a.file x.specifier l = { links := l, result := .ok x } := by
        simp only [Walk.resolve, held]
      simp only [known, Bind.bind, Walk.bind, asked]
      exact next x x l sound

end Quiet

theorem Quiet.moves {x : Walk α} (quiet : Quiet a x) : Moves a allowed x := ⟨[], by simp, quiet⟩

/-- A steady walk moves the tables by steps that are allowed. -/
theorem Steady.moves {x : Walk α} (steady : Steady a allowed x) : Moves a allowed x := by
  obtain ⟨steps, fits, _, each⟩ := steady
  exact ⟨steps, fits, fun l sound => (each l sound).1⟩

/-- What comes after does not matter if it leaves the tables alone. -/
theorem Moves.bind_quiet {x : Walk α} {f : α → Walk β} (first : Moves a allowed x) (next : ∀ v, Quiet a (f v)) :
    Moves a allowed (x >>= f) := by
  obtain ⟨steps, fits, each⟩ := first
  refine ⟨steps, fits, fun l sound => ?_⟩
  have moved := each l sound
  simp only [Bind.bind, Walk.bind]
  cases (x l).result with
  | error e => exact moved
  | ok v =>
      dsimp only
      rw [moved]
      exact next v _ (sound.applyAll steps)

/-- A walk after one that always comes to the same end. -/
theorem Moves.after {c : Except Undecodable α} {x : Walk α} {f : α → Walk β} (first : Constant c x)
    (next : ∀ v, c = .ok v → Moves a allowed (f v)) : Moves a allowed (x >>= f) := by
  cases c with
  | error e =>
      refine ⟨[], by simp, fun l _ => ?_⟩
      simp only [Bind.bind, Walk.bind, first l]
      rfl
  | ok v =>
      obtain ⟨steps, fits, each⟩ := next v rfl
      refine ⟨steps, fits, fun l sound => ?_⟩
      simp only [Bind.bind, Walk.bind, first l]
      exact each l sound

/-- Asking for a specifier is a step. -/
theorem Moves.resolve {spec : String} (fits : allowed ⟨spec, []⟩) :
    Moves a allowed (Walk.resolve a.resolver a.file spec) :=
  ⟨[⟨spec, []⟩], by simpa using fits, fun _ sound => by rw [sound.resolved.resolve spec]; rfl⟩

namespace Steady

theorem pure (v : α) : Steady a allowed (Pure.pure v) := ⟨[], by simp, .ok (), fun _ _ => ⟨rfl, rfl⟩⟩

theorem note (e : Event) : Steady a allowed (Walk.note e) := ⟨[], by simp, .ok (), fun _ _ => ⟨rfl, rfl⟩⟩

/-- A walk behind one that always answers the same need only be steady for that answer. -/
theorem after {c : Except Undecodable α} {x : Walk α} {f : α → Walk β} (first : Constant c x)
    (next : ∀ v, c = .ok v → Steady a allowed (f v)) : Steady a allowed (x >>= f) := by
  cases c with
  | error e =>
      refine ⟨[], by simp, .error e, fun l _ => ?_⟩
      simp only [Bind.bind, Walk.bind, first l]
      exact ⟨rfl, rfl⟩
  | ok v =>
      obtain ⟨steps, fits, ending, each⟩ := next v rfl
      refine ⟨steps, fits, ending, fun l sound => ?_⟩
      simp only [Bind.bind, Walk.bind, first l]
      exact each l sound

/-- Whether the walk inside fails does not show. -/
theorem absorb {x : Walk Unit} (e : Event) (inner : Moves a allowed x) : Steady a allowed (Walk.absorb e x) := by
  obtain ⟨steps, fits, each⟩ := inner
  refine ⟨steps, fits, .ok (), fun l sound => ?_⟩
  have moved := each l sound
  unfold Walk.absorb Outcome.ending
  dsimp only
  split
  next ended => exact ⟨moved, by rw [ended]; rfl⟩
  next => exact ⟨moved, rfl⟩

/-- What is done with declarations at the end of a scope does not move the tables. -/
theorem within (finish : List LocalExport → List Declaration → List Declaration) {x : Walk Unit}
    (inner : Steady a allowed x) : Steady a allowed (Walk.within finish x) := by
  obtain ⟨steps, fits, ending, each⟩ := inner
  refine ⟨steps, fits, ending, fun l sound => ?_⟩
  obtain ⟨moved, ended⟩ := each l sound
  refine ⟨moved, ?_⟩
  rw [← ended]
  unfold Walk.within Outcome.ending
  dsimp only
  cases (x l).result <;> rfl

/-- If one step fails, the rest is not walked, from whichever tables. -/
theorem bind {x y : Walk Unit} (first : Steady a allowed x) (next : Steady a allowed y) :
    Steady a allowed (x >>= fun _ => y) := by
  obtain ⟨steps, fits, ending, each⟩ := first
  obtain ⟨more, fitsMore, endingNext, eachNext⟩ := next
  cases ending with
  | error e =>
      refine ⟨steps, fits, .error e, fun l sound => ?_⟩
      obtain ⟨moved, ended⟩ := each l sound
      rw [Outcome.ending_eq_result] at ended
      simp only [Bind.bind, Walk.bind, Outcome.ending, ended]
      exact ⟨moved, rfl⟩
  | ok _ =>
      refine ⟨steps ++ more, List.forall_mem_append.2 ⟨fits, fitsMore⟩, endingNext, fun l sound => ?_⟩
      obtain ⟨moved, ended⟩ := each l sound
      rw [Outcome.ending_eq_result] at ended
      simp only [Bind.bind, Walk.bind, Outcome.ending, ended, moved, LinkStep.applyAll_append]
      exact eachNext _ (sound.applyAll steps)

theorem forEach {f : α → Walk Unit} {vs : List α} (each : ∀ v ∈ vs, Steady a allowed (f v)) :
    Steady a allowed (Walk.forEach f vs) := by
  induction vs with
  | nil => exact pure ()
  | cons v vs ih =>
      rw [List.forall_mem_cons] at each
      exact bind each.1 (ih each.2)

end Steady

/-- Walking over two lists in turn is walking over both. -/
theorem forEach_append (f : α → Walk Unit) (vs ws : List α) :
    Walk.forEach f (vs ++ ws) = Walk.forEach f vs >>= fun _ => Walk.forEach f ws := by
  induction vs with
  | nil => rfl
  | cons v vs ih =>
      funext l
      simp only [List.cons_append, Walk.forEach, ih, Bind.bind, Walk.bind]
      cases (f v l).result with
      | error e => rfl
      | ok _ =>
          dsimp only
          cases (Walk.forEach f vs (f v l).links).result with
          | error e => rfl
          | ok _ => simp only [List.append_assoc]

/-- A walk begins with steps that bind names and give out nothing, and what comes after them binds no names and gives
    out what the imported names make it give out. Then it gives out the same when it is repeated. -/
theorem Steady.given_again {x y : Walk Unit} (front : Steady a allowed x)
    (nothing : Ensures (fun _ => False) (fun _ => False) (fun _ => True) x) (rest : Steady a (·.names = []) y)
    (determined : ∀ l l' : Links, l.imports = l'.imports → a.Fits l.resolved → a.Fits l'.resolved →
      (y l).given = (y l').given) {l : Links} (sound : a.Sound l) :
    ((x >>= fun _ => y) ((x >>= fun _ => y) l).links).given = ((x >>= fun _ => y) l).given := by
  obtain ⟨steps, _, ending, each⟩ := front
  obtain ⟨more, nameless, _, eachNext⟩ := rest
  have silent : ∀ l, (x l).declarations = [] ∧ (x l).exports = [] := fun l =>
    ⟨List.eq_nil_iff_forall_not_mem.2 (nothing l).declarations, List.eq_nil_iff_forall_not_mem.2 (nothing l).exports⟩
  have ended : ∀ l, a.Sound l → (x l).result = ending := fun l sound =>
    (Outcome.ending_eq_result _).symm.trans (each l sound).2
  cases ending with
  | error e =>
      have whole : ∀ l, a.Sound l → ((x >>= fun _ => y) l).given = ([], [], .error e) ∧
          ((x >>= fun _ => y) l).links = LinkStep.applyAll a.look l steps := by
        intro l sound
        simp only [Bind.bind, Walk.bind, ended l sound, Outcome.given, silent, (each l sound).1, and_self]
      obtain ⟨given, links⟩ := whole l sound
      rw [given, links, (whole _ (sound.applyAll steps)).1]
  | ok _ =>
      have whole : ∀ l, a.Sound l →
          ((x >>= fun _ => y) l).given = (y (LinkStep.applyAll a.look l steps)).given ∧
          ((x >>= fun _ => y) l).links = LinkStep.applyAll a.look (LinkStep.applyAll a.look l steps) more := by
        intro l sound
        have next := eachNext _ (sound.applyAll steps)
        simp only [Bind.bind, Walk.bind, ended l sound, Outcome.given, silent, (each l sound).1, List.nil_append,
          next.1, and_self]
      obtain ⟨given, links⟩ := whole l sound
      have again := (sound.applyAll steps).applyAll more
      rw [given, links, (whole _ again).1]
      refine determined _ _ ?_ (again.applyAll steps).resolved (sound.applyAll steps).resolved
      rw [LinkStep.imports_applyAll, LinkStep.imports_applyAll_of_nameless a.look nameless,
        LinkStep.imports_applyAll, Entries.merge_twice]

/-!
### Binding names
-/

/-- The walk binds the same names to `x` and ends alike, whatever the tables. -/
def Binds (x : Resolved) (w : Walk Unit) : Prop :=
  ∃ (names : List String) (ending : Except Undecodable Unit), ∀ l : Links,
    (w l).links = { l with imports := Entries.merge l.imports (names.map (·, x)) } ∧ (w l).result = ending

namespace Binds

variable {x : Resolved}

theorem pure : Binds x (Pure.pure ()) := ⟨[], .ok (), fun _ => ⟨rfl, rfl⟩⟩

theorem bindName (name : String) : Binds x (Walk.bindName name x) := by
  by_cases empty : name = ""
  · refine ⟨[], .ok (), fun l => ?_⟩
    simp only [Walk.bindName, empty, if_true]
    exact ⟨rfl, trivial⟩
  · refine ⟨[name], .ok (), fun l => ?_⟩
    simp only [Walk.bindName, empty, if_false]
    exact ⟨rfl, trivial⟩

theorem after {c : Except Undecodable α} {y : Walk α} {f : α → Walk Unit} (first : Constant c y)
    (next : ∀ v, c = .ok v → Binds x (f v)) : Binds x (y >>= f) := by
  cases c with
  | error e =>
      refine ⟨[], .error e, fun l => ?_⟩
      simp only [Bind.bind, Walk.bind, first l]
      exact ⟨rfl, trivial⟩
  | ok v =>
      obtain ⟨names, ending, each⟩ := next v rfl
      refine ⟨names, ending, fun l => ?_⟩
      simp only [Bind.bind, Walk.bind, first l]
      exact each l

theorem bind {v w : Walk Unit} (first : Binds x v) (next : Binds x w) : Binds x (v >>= fun _ => w) := by
  obtain ⟨names, ending, each⟩ := first
  obtain ⟨more, endingNext, eachNext⟩ := next
  cases ending with
  | error e =>
      refine ⟨names, .error e, fun l => ?_⟩
      obtain ⟨moved, failed⟩ := each l
      simp only [Bind.bind, Walk.bind, failed]
      exact ⟨moved, trivial⟩
  | ok _ =>
      refine ⟨names ++ more, endingNext, fun l => ?_⟩
      obtain ⟨moved, ended⟩ := each l
      have rest := eachNext (v l).links
      simp only [Bind.bind, Walk.bind, ended]
      simp only [moved, Entries.merge, List.map_append, List.foldl_append] at rest ⊢
      exact rest

theorem forEach {f : α → Walk Unit} {vs : List α} (each : ∀ v ∈ vs, Binds x (f v)) :
    Binds x (Walk.forEach f vs) := by
  induction vs with
  | nil => exact pure
  | cons v vs ih =>
      rw [List.forall_mem_cons] at each
      exact bind each.1 (ih each.2)

/-- Names bound to what a specifier refers to, after asking for it, are one step. -/
theorem moves_after_resolve {spec : String} (fits : ∀ names, allowed ⟨spec, names⟩) {f : Resolved → Walk Unit}
    (binds : Binds (a.look spec) (f (a.look spec))) :
    Moves a allowed (Walk.resolve a.resolver a.file spec >>= f) := by
  obtain ⟨names, _, each⟩ := binds
  refine ⟨[⟨spec, names⟩], by simpa using fits names, fun l sound => ?_⟩
  simp only [Bind.bind, Walk.bind, sound.resolved.resolve spec, (each _).1]
  rfl

end Binds

end Walk

end Outline
