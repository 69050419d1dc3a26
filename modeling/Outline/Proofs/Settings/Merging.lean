/-
Module: Outline.Proofs.Settings.Merging
Layer: Proofs
Purpose: What several tables say together. Entries are merged key by key and tables in them in turn, so each single thing
  that can be set is what the first of the tables has that has anything for it. Tables are left out of account here,
  which merging puts together, since no setting is read from one.
Main exports: Value.Alike, wellKeyed_mergeTables, RecursiveMerge, recursiveMerge_mergeTables, mergeAll, leaf?_mergeAll
-/
import Outline.Proofs.Entries.Related
import Outline.Proofs.Settings.Keyed
import Outline.Proofs.Settings.Leaves

namespace Outline.Settings

namespace Value

/-- A table of values. -/
def isTable : Value → Bool
  | table _ => true
  | _ => false

/-- Two values that are the same, or are both tables. -/
def Alike (v w : Value) : Prop := v = w ∨ v.isTable = true ∧ w.isTable = true

theorem Alike.refl (v : Value) : Alike v v := .inl rfl

theorem Alike.trans {u v w : Value} (first : Alike u v) (second : Alike v w) : Alike u w := by
  rcases first with rfl | ⟨isTable, isTable'⟩
  · exact second
  · rcases second with rfl | ⟨-, isTable''⟩
    · exact .inr ⟨isTable, isTable'⟩
    · exact .inr ⟨isTable, isTable''⟩

theorem exists_of_isTable {v : Value} (isTable : v.isTable = true) : ∃ entries, v = .table entries := by
  cases v with
  | table entries => exact ⟨entries, rfl⟩
  | _ => cases isTable

/-- What is no table stays as it is, whatever lies below. -/
theorem merge_of_not_table {upper : Value} (no : upper.isTable = false) (lower : Value) : merge lower upper = upper := by
  cases upper with
  | table entries => cases no
  | _ => unfold merge; rfl

/-- What counts more is taken, or both are tables. -/
theorem alike_merge (lower upper : Value) : Alike (merge lower upper) upper := by
  cases isTable : upper.isTable with
  | false => exact .inl (merge_of_not_table isTable lower)
  | true =>
      obtain ⟨entries, rfl⟩ := exists_of_isTable isTable
      refine .inr ⟨?_, rfl⟩
      unfold merge
      split <;> rfl

end Value

open Value (Alike merge mergeTables)

theorem alike_refl (o : Option Value) : Option.Rel Alike o o := by
  cases o with
  | none => exact .none
  | some v => exact .some (.refl v)

theorem alike_trans {o o' o'' : Option Value} (first : Option.Rel Alike o o') (second : Option.Rel Alike o' o'') :
    Option.Rel Alike o o'' := by
  cases first with
  | none => exact second
  | some alike =>
      cases second with
      | some alike' => exact .some (alike.trans alike')

/-!
### Two tables
-/

section Tables

variable {lower upper : RawTable} {leaf : Leaf}

/-- Under each key merged tables have what the upper one has, merged with what the lower one has. -/
theorem get?_mergeTables (distinct : (Entries.keys upper).Nodup) (key : String) :
    Entries.get? (mergeTables lower upper) key =
      match Entries.get? upper key with
      | some v => some ((Entries.get? lower key).elim v fun w => merge w v)
      | none => Entries.get? lower key := by
  induction upper generalizing lower with
  | nil => simp only [mergeTables, Entries.get?]
  | cons e rest ih =>
      obtain ⟨k, v⟩ := e
      obtain ⟨fresh, distinct⟩ := List.nodup_cons.1 distinct
      rw [mergeTables, ih distinct, Entries.get?, Entries.get?_put]
      by_cases same : k = key
      · subst same
        rw [Entries.get?_eq_none_iff.2 fresh, if_pos rfl, if_pos rfl]
        cases Entries.get? lower k <;> rfl
      · rw [if_neg same, if_neg (Ne.symm same)]

mutual

/-- Merging well keyed values gives a well keyed value. -/
theorem wellKeyed_merge {lower upper : Value} (keyed : lower.WellKeyed) (keyed' : upper.WellKeyed) :
    (merge lower upper).WellKeyed := by
  cases upper with
  | table entries =>
      unfold merge
      split
      · exact wellKeyed_mergeTables keyed keyed'
      · exact keyed'
  | _ =>
      unfold merge
      exact keyed'

/-- Merging well keyed tables gives a well keyed table. -/
theorem wellKeyed_mergeTables {lower upper : RawTable} (keyed : (Value.table lower).WellKeyed)
    (keyed' : (Value.table upper).WellKeyed) : (Value.table (mergeTables lower upper)).WellKeyed := by
  cases upper with
  | nil => rwa [mergeTables]
  | cons e rest =>
      obtain ⟨key, v⟩ := e
      obtain ⟨first, others⟩ := List.forall_mem_cons.1 keyed'.each
      have rest' : (Value.table rest).WellKeyed := .table (List.nodup_cons.1 keyed'.distinct).2 others
      rw [mergeTables]
      refine wellKeyed_mergeTables (keyed.put key ?_) rest'
      split
      next w found => exact wellKeyed_merge (keyed.get? found) first
      next => exact first

end

/-- Under each key stands what the upper table has, or else what the lower one has, up to the merging of tables. -/
theorem alike_get?_mergeTables (distinct : (Entries.keys upper).Nodup) (key : String) :
    Option.Rel Alike (Entries.get? (mergeTables lower upper) key)
      ((Entries.get? upper key).or (Entries.get? lower key)) := by
  rw [get?_mergeTables distinct]
  cases Entries.get? upper key with
  | none => exact alike_refl _
  | some v =>
      cases Entries.get? lower key with
      | none => exact .some (.refl v)
      | some w => exact .some (Value.alike_merge w v)

end Tables

/-!
### Merging key by key
-/

/-- What two tables have together under a key, the first counting more: tables are merged in turn. -/
def mergedEntry (merge : RawTable → RawTable → RawTable) : Option Value → Option Value → Option Value
  | some (.table upper), some (.table lower) => some (.table (merge lower upper))
  | some upper, _ => some upper
  | none, lower => lower

/-- Tables are merged key by key, and so are the tables in them; what counts more is taken of everything else. -/
structure RecursiveMerge (merge : RawTable → RawTable → RawTable) : Prop where
  distinct {lower upper : RawTable} (below : (Entries.keys lower).Nodup) (above : (Entries.keys upper).Nodup) :
    (Entries.keys (merge lower upper)).Nodup
  entry {lower upper : RawTable} (above : (Entries.keys upper).Nodup) (key : String) :
    Entries.get? (merge lower upper) key = mergedEntry merge (Entries.get? upper key) (Entries.get? lower key)

/-- The keys of a merged table are distinct if those of the lower one are. -/
theorem nodup_mergeTables {lower : RawTable} (distinct : (Entries.keys lower).Nodup) (upper : RawTable) :
    (Entries.keys (mergeTables lower upper)).Nodup := by
  induction upper generalizing lower with
  | nil => rwa [mergeTables]
  | cons e rest ih =>
      rw [mergeTables]
      exact ih (Entries.nodup_put distinct _ _)

theorem recursiveMerge_mergeTables : RecursiveMerge mergeTables where
  distinct below _ := nodup_mergeTables below _
  entry {lower upper} above key := by
    rw [get?_mergeTables above]
    cases Entries.get? upper key with
    | none => rfl
    | some v =>
        cases Entries.get? lower key with
        | none => cases v <;> rfl
        | some w =>
            cases isTable : v.isTable with
            | false =>
                simp only [Option.elim, Value.merge_of_not_table isTable]
                cases v <;> first | rfl | cases isTable
            | true =>
                obtain ⟨entries, rfl⟩ := Value.exists_of_isTable isTable
                cases w <;> rfl

/-- No key occurs twice in a table or in a section of it. -/
structure Dictionary (table : RawTable) : Prop where
  distinct : (Entries.keys table).Nodup
  sections : ∀ name inner, (name, Value.table inner) ∈ table → (Entries.keys inner).Nodup

/-- No section of a table is an object already. -/
def Unchecked (table : RawTable) : Prop := ∀ name r, (name, Value.checked r) ∉ table

/-- A well keyed table is a dictionary, and so is each table in it. -/
theorem Value.WellKeyed.dictionary {table : RawTable} (keyed : (Value.table table).WellKeyed) : Dictionary table where
  distinct := keyed.distinct
  sections _ _ mem := (keyed.each _ mem).distinct

/-- A well keyed table holds no section that was checked before. -/
theorem Value.WellKeyed.unchecked {table : RawTable} (keyed : (Value.table table).WellKeyed) : Unchecked table := by
  intro name r mem
  exact Value.WellKeyed.not_checked r (keyed.each _ mem)

section Merge

variable {merge : RawTable → RawTable → RawTable} {lower upper : RawTable} {leaf : Leaf}

/-- A merged entry is like the upper one, or like the lower one where there is no upper one. -/
theorem alike_mergedEntry (o o' : Option Value) : Option.Rel Alike (mergedEntry merge o o') (o.or o') := by
  unfold mergedEntry
  split
  next => exact .some (.inr ⟨rfl, rfl⟩)
  next upper _ _ => exact alike_refl _
  next => exact alike_refl _

/-- A recursive merge of dictionaries is a dictionary. -/
theorem RecursiveMerge.dictionary (merges : RecursiveMerge merge) (below : Dictionary lower) (above : Dictionary upper) :
    Dictionary (merge lower upper) where
  distinct := merges.distinct below.distinct above.distinct
  sections name inner mem := by
    have found := Entries.get?_of_mem (merges.distinct below.distinct above.distinct) mem
    rw [merges.entry above.distinct] at found
    unfold mergedEntry at found
    split at found
    next u l there there' =>
      obtain rfl := Value.table.inj (Option.some.inj found)
      exact merges.distinct (below.sections name l (Entries.mem_of_get? there'))
        (above.sections name u (Entries.mem_of_get? there))
    next there _ =>
      cases found
      exact above.sections name inner (Entries.mem_of_get? there)
    next => exact below.sections name inner (Entries.mem_of_get? found)

/-- The upper of two tables is in sections if they are together. -/
theorem sectioned_upper (merges : RecursiveMerge merge) (sectioned : Sectioned (merge lower upper))
    (distinct : (Entries.keys upper).Nodup) : Sectioned upper := by
  intro name mem v there
  have merged := @RecursiveMerge.entry merge merges lower upper distinct name
  rw [there] at merged
  unfold mergedEntry at merged
  split at merged
  next inner _ same _ =>
    rw [Option.some.inj same]
    exact .table name inner
  next same _ =>
    obtain rfl := Option.some.inj same
    exact sectioned name mem v merged
  next absent => cases absent

/-- Inside an upper section each single thing is what that has, or else what the lower entry has, unless the lower entry
    is an object. -/
theorem alike_inside?_mergedEntry (merges : RecursiveMerge merge) {inner : RawTable} {o : Option Value}
    (distinct : (Entries.keys inner).Nodup) (unchecked : ∀ r, o ≠ some (.checked r)) (key : String) :
    Option.Rel Alike (inside? (mergedEntry merge (some (.table inner)) o) key)
      ((inside? (some (.table inner)) key).or (inside? o key)) := by
  match o with
  | some (.table entries) =>
      have entry := @RecursiveMerge.entry merge merges entries inner distinct key
      change Option.Rel Alike (Entries.get? (merge entries inner) key) _
      rw [entry]
      exact alike_mergedEntry _ _
  | some (.checked r) => exact absurd rfl (unchecked r)
  -- what is no section has nothing to say, and the upper section stays as it is
  | none | some .null | some (.bool _) | some (.int _) | some (.real _) | some (.text _) | some .brokenText
  | some .moment | some (.list _) =>
      change Option.Rel Alike _ (Option.or _ none)
      rw [Option.or_none]
      exact alike_refl _

/-- Each single thing is what the upper table has, or else what the lower one has. -/
theorem leaf?_merge (merges : RecursiveMerge merge) (above : Dictionary upper) (unchecked : Unchecked lower)
    (sectioned : Sectioned (merge lower upper)) :
    Option.Rel Alike ((merge lower upper).leaf? leaf) ((upper.leaf? leaf).or (lower.leaf? leaf)) := by
  cases inside : leaf.section? with
  | none =>
      rw [leaf?_of_outside inside, leaf?_of_outside inside, leaf?_of_outside inside, merges.entry above.distinct]
      exact alike_mergedEntry _ _
  | some name =>
      have isSection := sectioned_upper merges sectioned above.distinct name (Leaf.section?_mem inside)
      rw [leaf?_of_inside inside, leaf?_of_inside inside, leaf?_of_inside inside, merges.entry above.distinct]
      cases there : Entries.get? upper name with
      | none => exact alike_refl _
      | some v =>
          cases isSection v there with
          | object r =>
              -- the object leaves nothing for what lies below it
              have said : (inside? (some (.checked r)) leaf.key).isSome = true :=
                r.isSome_get?_entries (Leaf.key_mem_resolver inside)
              obtain ⟨w, said⟩ := Option.isSome_iff_exists.1 said
              rw [said, Option.some_or]
              exact said ▸ alike_refl _
          | table _ inner =>
              refine alike_inside?_mergedEntry merges (above.sections name inner (Entries.mem_of_get? there)) ?_ leaf.key
              intro r below
              exact unchecked name r (Entries.mem_of_get? below)

end Merge

/-!
### Several tables
-/

section MergeAll

variable {merge : RawTable → RawTable → RawTable} {first : RawTable} {others : List RawTable} {leaf : Leaf}

/-- Several tables merged one below the other. -/
def mergeAll (merge : RawTable → RawTable → RawTable) (first : RawTable) (others : List RawTable) : RawTable :=
  others.foldl (fun upper lower => merge lower upper) first

theorem findSome?_cons_or {α β : Type} (f : α → Option β) (a : α) (as : List α) :
    (a :: as).findSome? f = (f a).or (as.findSome? f) := by
  rw [List.findSome?_cons]
  cases f a <;> rfl

/-- Where the merged table has sections in the places of sections, so has the foremost of the tables. -/
theorem sectioned_first (merges : RecursiveMerge merge) (keyed : Dictionary first) (each : ∀ t ∈ others, Dictionary t)
    (sectioned : Sectioned (mergeAll merge first others)) : Sectioned first := by
  induction others generalizing first with
  | nil => exact sectioned
  | cons lower others ih =>
      obtain ⟨below, each⟩ := List.forall_mem_cons.1 each
      exact sectioned_upper merges (ih (merges.dictionary below keyed) each sectioned) keyed.distinct

/-- Each single thing is what the first of the tables has that has anything for it. Only the first may have objects for
    its sections: below a table an object would be dropped as a whole. -/
theorem leaf?_mergeAll (merges : RecursiveMerge merge) (keyed : Dictionary first)
    (each : ∀ t ∈ others, Dictionary t ∧ Unchecked t) (sectioned : Sectioned (mergeAll merge first others)) :
    Option.Rel Alike ((mergeAll merge first others).leaf? leaf)
      ((first :: others).findSome? (RawTable.leaf? · leaf)) := by
  induction others generalizing first with
  | nil =>
      rw [findSome?_cons_or, List.findSome?_nil, Option.or_none]
      exact alike_refl _
  | cons lower others ih =>
      obtain ⟨⟨below, unchecked⟩, each⟩ := List.forall_mem_cons.1 each
      have merged := merges.dictionary below keyed
      have together := sectioned_first merges merged (fun t mem => (each t mem).1) sectioned
      have two := @leaf?_merge merge lower first leaf merges keyed unchecked together
      refine alike_trans (ih merged each sectioned) ?_
      rw [findSome?_cons_or, findSome?_cons_or, findSome?_cons_or, ← Option.or_assoc]
      exact rel_or two (alike_refl _)

end MergeAll

end Outline.Settings
