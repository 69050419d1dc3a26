/-
Module: Outline.Proofs.Specifier.Tables
Layer: Proofs
Purpose: What tables of resolutions hold. A table made from a list of specifiers has these and no others, each with
  what the resolver makes of it, and storing a specifier that is not there adds it at the end. A resolution keeps the
  specifier it was made from, and a package goes by its specifier.
Main exports: Entries.forall_get?_put, Entries.get?_append, Entries.put_of_get?_eq_none, Resolved.Coherent,
  Resolver.get?_table, Resolver.tableProbing_eq, Resolver.tableProbing_ok, Resolver.get?_tableProbing_of_mem,
  Resolver.resolveProbing_of_get?, Resolver.resolve_coherent, Resolver.coherent_of_resolveProbing,
  Resolver.specifier_of_resolveProbing
-/
import Outline.Proofs.Dependency.Names
import Outline.Proofs.Specifier.Inquiries

namespace Outline

namespace Entries

variable {α : Type}

/-- What holds of all values goes on holding of them when a value of which it holds is stored. -/
theorem forall_get?_put {P : α → Prop} {m : Entries α} {key : String} {value : α}
    (each : ∀ k v, get? m k = some v → P v) (stored : P value) (k : String) (v : α)
    (found : get? (put m key value) k = some v) : P v := by
  by_cases same : k = key
  · subst same
    rw [get?_put_self] at found
    cases found
    exact stored
  · rw [get?_put_of_ne m value same] at found
    exact each k v found

/-- In two tables one after the other the first that has a key counts. -/
theorem get?_append (m m' : Entries α) (key : String) :
    get? (m ++ m') key = (get? m key).or (get? m' key) := by
  induction m with
  | nil => simp [get?]
  | cons p rest ih =>
      obtain ⟨k, v⟩ := p
      by_cases same : k = key <;> simp [get?, same, ih]

/-- A key that is not there is stored at the end. -/
theorem put_of_get?_eq_none {m : Entries α} {key : String} (value : α)
    (absent : get? m key = none) : put m key value = m ++ [(key, value)] := by
  induction m with
  | nil => rfl
  | cons p rest ih =>
      obtain ⟨k, v⟩ := p
      by_cases same : k = key
      · simp [get?, same] at absent
      · simp only [get?, same, if_false] at absent
        simp [put, same, ih absent]

/-- A table made from a list of keys holds these keys and no others. -/
theorem get?_map_key (keys : List String) (value : String → α) (key : String) :
    get? (keys.map fun k => (k, value k)) key = if key ∈ keys then some (value key) else none := by
  induction keys with
  | nil => simp [get?]
  | cons k keys ih =>
      by_cases same : k = key
      · simp [get?, same]
      · simp [get?, same, Ne.symm same, ih]

end Entries

namespace Specifier

/-- A package goes by its specifier. -/
def Resolved.Coherent (x : Resolved) : Prop := x.isExternal = true → x.source = x.specifier

namespace Resolver

variable (r : Resolver) (probe : Option Probe) (file : String) (specs : List String) (spec : String)

/-- The table answers the specifiers it was made for, each by resolving it. -/
theorem get?_table : Entries.get? (r.table file specs) spec =
    if spec ∈ specs then some (r.resolve file spec) else none := by
  simp only [table, Entries.get?_map_key, mem_distinct]

/-- What a probed resolution is, if it comes to an end. -/
theorem resolveProbing_ok {x : Resolved} (ended : (r.resolveProbing probe file spec).result = .ok x) :
    x = ⟨spec, spec, true⟩ ∨ ∃ source, x = ⟨spec, source, false⟩ := by
  unfold resolveProbing at ended
  split at ended
  · exact .inl (Except.ok.inj ended).symm
  · split at ended
    · exact .inr ⟨_, (Except.ok.inj ended).symm⟩
    · obtain ⟨found, _, same⟩ := Inquiry.bind_eq_ok_iff.1 ended
      exact .inr ⟨_, (Except.ok.inj same).symm⟩

/-- Where each specifier of the list comes to an end, so does the table, and all that is asked for is what is asked for
    because of each, in the order of the table. -/
theorem tableProbing_eq {value : String → Resolved}
    (each : ∀ spec ∈ specs, (r.resolveProbing probe file spec).result = .ok (value spec)) :
    r.tableProbing probe file specs = ⟨(distinct specs).flatMap fun spec => (r.resolveProbing probe file spec).asked,
      .ok ((distinct specs).map fun spec => (spec, value spec))⟩ := by
  let entry (spec : String) : Inquiry (String × Resolved) := do
    return (spec, ← r.resolveProbing probe file spec)
  have entries : ∀ spec ∈ distinct specs,
      entry spec = ⟨(r.resolveProbing probe file spec).asked, .ok (spec, value spec)⟩ := by
    intro spec mem
    simp only [entry, bind, Inquiry.bind, each spec (mem_distinct.1 mem), pure, Inquiry.pure, List.append_nil]
  have table := Inquiry.mapM_eq_of_forall (f := entry) fun spec mem => congrArg Inquiry.result (entries spec mem)
  refine Eq.trans table ?_
  congr 1
  exact List.flatMap_congr fun spec mem => congrArg Inquiry.asked (entries spec mem)

/-- A probed table that comes to an end holds what each specifier of the list comes to. -/
theorem tableProbing_ok {table : Entries Resolved} (ended : (r.tableProbing probe file specs).result = .ok table) :
    ∃ value : String → Resolved, (∀ spec ∈ specs, (r.resolveProbing probe file spec).result = .ok (value spec)) ∧
      table = (distinct specs).map fun spec => (spec, value spec) := by
  have each := Inquiry.mapM_eq_ok_iff.1 ended
  let value (spec : String) : Resolved := (r.resolveProbing probe file spec).result.toOption.getD default
  have entries : List.Forall₂ (fun spec entry => (r.resolveProbing probe file spec).result = .ok (value spec) ∧
      entry = (spec, value spec)) (distinct specs) table := by
    refine each.imp fun spec entry pair => ?_
    obtain ⟨x, found, same⟩ := Inquiry.bind_eq_ok_iff.1 pair
    have known : value spec = x := by simp only [value, found, Except.toOption, Option.getD_some]
    rw [known]
    exact ⟨found, (Except.ok.inj same).symm⟩
  obtain ⟨known, paired⟩ := (List.forall₂_and_left _ _).1 entries
  refine ⟨value, fun spec mem => known spec (mem_distinct.2 mem), ?_⟩
  have same : List.Forall₂ (fun spec entry => (spec, value spec) = entry) (distinct specs) table :=
    paired.imp fun _ _ => Eq.symm
  rw [← List.forall₂_map_left_iff, List.forall₂_eq_eq_eq] at same
  exact same.symm

/-- In a table made with a probe each specifier has the answer that was found for it. -/
theorem get?_tableProbing_of_mem {table : Entries Resolved}
    (ended : (r.tableProbing probe file specs).result = .ok table) (mem : spec ∈ specs) :
    ∃ x, (r.resolveProbing probe file spec).result = .ok x ∧ Entries.get? table spec = some x := by
  obtain ⟨value, each, rfl⟩ := r.tableProbing_ok probe file specs ended
  refine ⟨value spec, each spec mem, ?_⟩
  rw [Entries.get?_map_key, if_pos (mem_distinct.2 mem)]

/-- What stands in a table made with a probe was found for its specifier. -/
theorem resolveProbing_of_get? {table : Entries Resolved} {x : Resolved}
    (ended : (r.tableProbing probe file specs).result = .ok table) (found : Entries.get? table spec = some x) :
    (r.resolveProbing probe file spec).result = .ok x := by
  obtain ⟨value, each, rfl⟩ := r.tableProbing_ok probe file specs ended
  rw [Entries.get?_map_key] at found
  split at found
  next mem =>
    rw [← Option.some.inj found]
    exact each spec (mem_distinct.1 mem)
  next => cases found

/-- A resolved specifier has a source that fits its kind. -/
theorem resolve_coherent : (r.resolve file spec).Coherent := by
  intro package
  simp only [resolve] at package ⊢
  rw [if_pos package]

variable {r probe file specs spec}

theorem coherent_of_resolveProbing {x : Resolved} (ended : (r.resolveProbing probe file spec).result = .ok x) :
    x.Coherent := by
  rcases r.resolveProbing_ok probe file spec ended with rfl | ⟨source, rfl⟩
  · exact fun _ => rfl
  · exact nofun

theorem specifier_of_resolveProbing {x : Resolved} (ended : (r.resolveProbing probe file spec).result = .ok x) :
    x.specifier = spec := by
  rcases r.resolveProbing_ok probe file spec ended with rfl | ⟨source, rfl⟩ <;> rfl

end Resolver

end Specifier

end Outline
