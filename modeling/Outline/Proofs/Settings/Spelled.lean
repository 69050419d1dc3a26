/-
Module: Outline.Proofs.Settings.Spelled
Layer: Proofs
Purpose: Keys in any case. Of the keys of a table that spell one setting the first counts among the settings, and the last
  in the resolver section of variables. There a value from a variable of its own takes the place of the plain spelling,
  so it is found unless the table spells the setting once more behind that place.
Main exports: RawTable.named?, get?_settingKeys, nodup_settingKeys, RawTable.lastSpelled?, get?_lowerResolverKeys,
  RawTable.overruled?, lastSpelled?_mergeTables
-/
import Outline.Proofs.Settings.Nested

namespace Outline.Settings

open Text (Uncased)
open Value (Alike mergeTables)

/-!
### Keys of settings
-/

section Named

variable {table : RawTable} {seen : List String} {field : String}

/-- What a table has under the first key that names a setting, in any case. -/
def RawTable.named? (table : RawTable) (field : String) : Option Value :=
  (table.find? fun e => Text.lower e.1 = field).map Prod.snd

theorem lower_of_known (known : field ∈ fieldNames) : Text.lower field = field := by
  have all : ∀ f ∈ fieldNames, Text.lower f = f := by decide +kernel
  exact all field known

/-- A key names the setting that it is in lower case, if there is such a setting. -/
theorem fieldOfKey?_eq_some_iff {key : String} :
    fieldOfKey? key = some field ↔ Text.lower key = field ∧ field ∈ fieldNames := by
  unfold fieldOfKey?
  split
  next known =>
    rw [List.contains_iff_mem] at known
    constructor
    · intro same
      obtain rfl := Option.some.inj same
      exact ⟨rfl, known⟩
    · rintro ⟨rfl, -⟩
      rfl
  next unknown =>
    rw [List.contains_iff_mem] at unknown
    constructor
    · intro none
      cases none
    · rintro ⟨rfl, known⟩
      exact absurd known unknown

theorem fieldOfKey?_of_known (known : field ∈ fieldNames) : fieldOfKey? field = some field :=
  fieldOfKey?_eq_some_iff.2 ⟨lower_of_known known, known⟩

/-- Under the name of a setting stands what the first key naming it has. -/
theorem get?_settingKeys (known : field ∈ fieldNames) (fresh : field ∉ seen) :
    Entries.get? (settingKeys seen table) field = table.named? field := by
  induction table generalizing seen with
  | nil => rfl
  | cons e rest ih =>
      obtain ⟨key, v⟩ := e
      unfold settingKeys RawTable.named?
      rw [List.find?_cons]
      cases names : fieldOfKey? key with
      | some f =>
          obtain ⟨spelled, known'⟩ := fieldOfKey?_eq_some_iff.1 names
          by_cases same : f = field
          · subst same
            simp [fresh, spelled, Entries.get?]
          · -- a key for another setting is kept or dropped, and neither matters here
            have other : decide (Text.lower key = field) = false := by simpa [spelled] using same
            simp only [other]
            split
            · exact ih fresh
            · rw [Entries.get?, if_neg same]
              exact ih fun mem => (List.mem_cons.1 mem).elim (fun again => same again.symm) fresh
      | none =>
          have other : Text.lower key ≠ field := by
            intro spelled
            cases names.symm.trans (fieldOfKey?_eq_some_iff.2 ⟨spelled, known⟩)
          have differ : key ≠ field := by
            rintro rfl
            exact other (lower_of_known known)
          simp only [decide_eq_false other]
          rw [Entries.get?, if_neg differ]
          exact ih fresh

/-- Each key of a table that is given on names a setting, and none of those before, or was there already. -/
theorem mem_keys_settingKeys {key : String} (mem : key ∈ Entries.keys (settingKeys seen table)) :
    key ∈ fieldNames ∧ key ∉ seen ∨ fieldOfKey? key = none ∧ key ∈ Entries.keys table := by
  induction table generalizing seen with
  | nil => cases mem
  | cons e rest ih =>
      obtain ⟨key', v⟩ := e
      unfold settingKeys at mem
      split at mem
      next f names =>
        split at mem
        next => exact (ih mem).imp_right fun ⟨unnamed, among⟩ => ⟨unnamed, List.mem_cons_of_mem _ among⟩
        next new =>
          rcases List.mem_cons.1 mem with rfl | further
          · exact .inl ⟨(fieldOfKey?_eq_some_iff.1 names).2, by simpa using new⟩
          · rcases ih further with ⟨known, fresh⟩ | ⟨unnamed, among⟩
            · exact .inl ⟨known, fun old => fresh (List.mem_cons_of_mem _ old)⟩
            · exact .inr ⟨unnamed, List.mem_cons_of_mem _ among⟩
      next unnamed =>
        rcases List.mem_cons.1 mem with rfl | further
        · exact .inr ⟨unnamed, List.mem_cons_self⟩
        · exact (ih further).imp_right fun ⟨unnamed', among⟩ => ⟨unnamed', List.mem_cons_of_mem _ among⟩

theorem nodup_settingKeys (distinct : (Entries.keys table).Nodup) (seen : List String) :
    (Entries.keys (settingKeys seen table)).Nodup := by
  induction table generalizing seen with
  | nil => exact distinct
  | cons e rest ih =>
      obtain ⟨key, v⟩ := e
      obtain ⟨fresh, distinct⟩ := List.nodup_cons.1 distinct
      unfold settingKeys
      split
      next f names =>
        split
        · exact ih distinct seen
        · refine List.nodup_cons.2 ⟨?_, ih distinct (f :: seen)⟩
          intro again
          rcases mem_keys_settingKeys again with ⟨-, new⟩ | ⟨unnamed, -⟩
          · exact new List.mem_cons_self
          · cases unnamed.symm.trans (fieldOfKey?_of_known (fieldOfKey?_eq_some_iff.1 names).2)
      next unnamed =>
        refine List.nodup_cons.2 ⟨?_, ih distinct seen⟩
        intro again
        rcases mem_keys_settingKeys again with ⟨known, -⟩ | ⟨-, among⟩
        · cases unnamed.symm.trans (fieldOfKey?_of_known known)
        · exact fresh among

/-- Only keys are spelled anew. -/
theorem exists_mem_of_mem_settingKeys {e : String × Value} (mem : e ∈ settingKeys seen table) :
    ∃ key, (key, e.2) ∈ table := by
  induction table generalizing seen with
  | nil => cases mem
  | cons first rest ih =>
      obtain ⟨k, v⟩ := first
      have further : ∀ {seen}, e ∈ settingKeys seen rest → ∃ key, (key, e.2) ∈ (k, v) :: rest := by
        intro seen among
        obtain ⟨key, inside⟩ := ih among
        exact ⟨key, List.mem_cons_of_mem _ inside⟩
      unfold settingKeys at mem
      split at mem
      next =>
        split at mem
        · exact further mem
        · rcases List.mem_cons.1 mem with rfl | among
          · exact ⟨k, List.mem_cons_self⟩
          · exact further among
      next =>
        rcases List.mem_cons.1 mem with rfl | among
        · exact ⟨k, List.mem_cons_self⟩
        · exact further among

end Named

/-!
### Keys of the resolver section
-/

section LastSpelled

variable {table entries : RawTable} {key k : String} {v : Value}

/-- The last entry of a table whose key spells a setting. -/
def RawTable.lastSpelled? (table : RawTable) (key : String) : Option (String × Value) :=
  table.reverse.find? fun e => Text.lower e.1 = key

/-- The last spelling of a key is found further back, or is the first entry. -/
theorem lastSpelled?_cons (e : String × Value) (table : RawTable) (key : String) :
    RawTable.lastSpelled? (e :: table) key =
      (table.lastSpelled? key).or (if Text.lower e.1 = key then some e else none) := by
  rw [RawTable.lastSpelled?, List.reverse_cons, List.find?_append, RawTable.lastSpelled?]
  split
  next same => rw [List.find?_cons_of_pos (by simpa using same)]
  next differ => rw [List.find?_cons_of_neg (by simpa using differ), List.find?_nil]

/-- Under the name of a resolver setting stands what its last spelling has. -/
theorem get?_lowerResolverKeys (known : key ∈ resolverFieldNames) :
    Entries.get? (lowerResolverKeys table) key = (table.lastSpelled? key).map Prod.snd := by
  have spells : ∀ k, (if resolverFieldNames.contains (Text.lower k) = true then Text.lower k else k) = key ↔
      Text.lower k = key := by
    intro k
    split
    next => exact Iff.rfl
    next unknown =>
      rw [List.contains_iff_mem] at unknown
      have lower : ∀ f ∈ resolverFieldNames, Text.lower f = f := by decide +kernel
      constructor
      · rintro rfl
        exact lower _ known
      · rintro rfl
        exact absurd known unknown
  rw [lowerResolverKeys, Entries.get?_ofPairs, RawTable.lastSpelled?, ← List.map_reverse, List.find?_map, Option.map_map]
  simp only [Function.comp_def, spells]

theorem Plain.tail {e : String × Value} (plain : Plain (e :: table)) : Plain table where
  keyed := .table (List.nodup_cons.1 plain.keyed.distinct).2 (List.forall_mem_cons.1 plain.keyed.each).2
  uncased k mem := plain.uncased k (List.mem_cons_of_mem _ mem)

theorem Plain.lower {e : String × Value} (plain : Plain (e :: table)) : Text.lower e.1 = e.1 :=
  Text.lower_of_uncased (plain.uncased e.1 List.mem_cons_self)

/-- Among keys without capitals there is no other spelling. -/
theorem lastSpelled?_of_plain (plain : Plain table) (key : String) :
    (table.lastSpelled? key).map Prod.snd = Entries.get? table key := by
  induction table with
  | nil => rfl
  | cons e rest ih =>
      obtain ⟨fresh, -⟩ := List.nodup_cons.1 plain.keyed.distinct
      rw [lastSpelled?_cons, plain.lower, Entries.get?, ← ih plain.tail]
      split
      next same =>
        have none : RawTable.lastSpelled? rest key = none := by
          rw [← Option.map_eq_none_iff, ih plain.tail, Entries.get?_eq_none_iff, ← same]
          exact fresh
        rw [none]
        rfl
      next => rw [Option.or_none]

/-- Storing under a key that spells another changes no spelling. -/
theorem lastSpelled?_put_of_ne (differ : Text.lower k ≠ key) :
    RawTable.lastSpelled? (Entries.put table k v) key = table.lastSpelled? key := by
  induction table with
  | nil => simp [Entries.put, lastSpelled?_cons, differ]
  | cons e rest ih =>
      obtain ⟨k', v'⟩ := e
      rw [Entries.put]
      split
      next same =>
        subst same
        rw [lastSpelled?_cons, lastSpelled?_cons, if_neg differ, if_neg differ]
      next => rw [lastSpelled?_cons, lastSpelled?_cons, ih]

/-- What a table and a value that takes the place of its plain spelling say of a setting. -/
def RawTable.overruled? (table : RawTable) (key : String) (single : Option Value) : Option Value :=
  match table.lastSpelled? key, single with
  | some (k, w), some v => if k ≠ key ∧ (Entries.get? table key).isSome = true then some w else some v
  | some (_, w), none => some w
  | none, single => single

theorem get?_of_unspelled (uncased : Text.lower key = key) (unspelled : table.lastSpelled? key = none) :
    Entries.get? table key = none := by
  rw [Entries.get?_eq_none_iff]
  intro mem
  obtain ⟨e, among, same⟩ := List.mem_map.1 mem
  have other := List.find?_eq_none.1 unspelled e (List.mem_reverse.2 among)
  rw [show e.1 = key from same] at other
  exact other (decide_eq_true uncased)

/-- The last spelling of a key is an entry of the table. -/
theorem mem_of_lastSpelled? {e : String × Value} (spelled : table.lastSpelled? key = some e) : e ∈ table :=
  List.mem_reverse.1 (List.mem_of_find?_eq_some spelled)

/-- A value stored under the plain spelling is the last unless there is another spelling behind it. -/
theorem lastSpelled?_put_self (uncased : Text.lower key = key) (distinct : (Entries.keys table).Nodup) :
    (RawTable.lastSpelled? (Entries.put table key v) key).map Prod.snd = table.overruled? key (some v) := by
  induction table with
  | nil => simp [Entries.put, uncased, RawTable.lastSpelled?, RawTable.overruled?]
  | cons e rest ih =>
      obtain ⟨k, w⟩ := e
      obtain ⟨fresh, distinct⟩ := List.nodup_cons.1 distinct
      -- the value is stored here, or further on
      by_cases same : k = key
      · subst same
        have put : Entries.put ((k, w) :: rest) k v = (k, v) :: rest := by rw [Entries.put, if_pos rfl]
        unfold RawTable.overruled?
        rw [put, lastSpelled?_cons, lastSpelled?_cons, if_pos uncased, if_pos uncased, Entries.get?, if_pos rfl]
        cases last : RawTable.lastSpelled? rest k with
        | none => simp
        | some e =>
            have differ : e.1 ≠ k := by
              intro again
              have isKey : e.1 ∈ Entries.keys rest := List.mem_map_of_mem (mem_of_lastSpelled? last)
              exact fresh (again ▸ isKey)
            simp [differ]
      · have put : Entries.put ((k, w) :: rest) key v = (k, w) :: Entries.put rest key v := by
          rw [Entries.put, if_neg same]
        have inner := ih distinct
        unfold RawTable.overruled? at inner ⊢
        rw [put, lastSpelled?_cons, lastSpelled?_cons, Entries.get?, if_neg same]
        cases last : RawTable.lastSpelled? rest key with
        | none =>
            rw [last] at inner
            obtain ⟨e, isLast, rfl⟩ := Option.map_eq_some_iff.1 inner
            rw [isLast, get?_of_unspelled uncased last]
            split <;> simp
        | some e =>
            rw [last] at inner
            cases further : RawTable.lastSpelled? (Entries.put rest key v) key with
            | none =>
                rw [further] at inner
                simp only [Option.map_none] at inner
                split at inner
                · cases inner
                · cases inner
            | some e' =>
                rw [further] at inner
                exact inner

theorem overruled?_none (table : RawTable) (key : String) :
    table.overruled? key none = (table.lastSpelled? key).map Prod.snd := by
  unfold RawTable.overruled?
  cases table.lastSpelled? key <;> rfl

theorem alike_overruled? {o o' : Option Value} (alike : Option.Rel Alike o o') :
    Option.Rel Alike (table.overruled? key o) (table.overruled? key o') := by
  unfold RawTable.overruled?
  cases alike with
  | none => exact alike_refl _
  | some same =>
      cases table.lastSpelled? key with
      | none => exact .some same
      | some spelled =>
          obtain ⟨k, w⟩ := spelled
          simp only []
          split
          · exact alike_refl _
          · exact .some same

/-- In a merged table the last spelling of a key is the last below, unless the plain table above overrules it. -/
theorem lastSpelled?_mergeTables (distinct : (Entries.keys table).Nodup) (plain : Plain entries) :
    Option.Rel Alike ((RawTable.lastSpelled? (mergeTables table entries) key).map Prod.snd)
      (table.overruled? key (Entries.get? entries key)) := by
  induction entries generalizing table with
  | nil =>
      rw [mergeTables, Entries.get?, overruled?_none]
      exact alike_refl _
  | cons e rest ih =>
      obtain ⟨k, v⟩ := e
      obtain ⟨fresh, -⟩ := List.nodup_cons.1 plain.keyed.distinct
      rw [mergeTables, Entries.get?]
      refine alike_trans (ih (Entries.nodup_put distinct k _) plain.tail) ?_
      by_cases same : k = key
      · subst same
        rw [if_pos rfl, Entries.get?_eq_none_iff.2 fresh, overruled?_none, lastSpelled?_put_self plain.lower distinct]
        refine alike_overruled? (.some ?_)
        split
        · exact Value.alike_merge _ v
        · exact .refl v
      · have other : Text.lower k ≠ key := by
          rw [plain.lower]
          exact same
        unfold RawTable.overruled?
        rw [if_neg same, lastSpelled?_put_of_ne other, Entries.get?_put_of_ne _ _ (Ne.symm same)]
        exact alike_refl _

end LastSpelled

end Outline.Settings
