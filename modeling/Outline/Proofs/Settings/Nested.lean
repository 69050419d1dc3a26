/-
Module: Outline.Proofs.Settings.Nested
Layer: Proofs
Purpose: The variables for single entries of a section. Each is stored at the keys that its name leads to, one after the
  other; what an entry is in the end does not depend on their order: it is what the variable with just its name says,
  and if there is none, a variable for something below it makes it a table.
Main exports: entryName, Variables.own?, Variables.leadsBelow, Variables.single?, get?_entriesFromVariables, Plain,
  plain_entriesFromVariables, stored_eq_nil_iff
-/
import Outline.Proofs.Settings.Merging
import Outline.Proofs.Text.Lower
import Outline.Proofs.Text.Split

namespace Outline.Settings

open Text (Uncased)
open Value (Alike)

/-- Name of the variable for an entry of a section. -/
def entryName (field key : String) : String := variableName field ++ "__" ++ key

/-- What the variable with the name of an entry says of it, if the name leads there: a doubled underscore in a key leads
    on. -/
def Variables.own? (given : Variables) (field key : String) : Option Value :=
  if entryPath? field (entryName field key) = some [key] then
    (Entries.get? given (entryName field key)).bind (entryValue? field [key])
  else none

/-- Is there a variable for something below an entry? -/
def Variables.leadsBelow (given : Variables) (field key : String) : Bool :=
  given.any fun e =>
    match entryPath? field e.1 with
    | some (k :: _ :: _) => k == key
    | _ => false

/-- What single variables say of an entry. One for something below it makes it a table. -/
def Variables.single? (given : Variables) (field key : String) : Option Value :=
  (given.own? field key).or (if given.leadsBelow field key then some (.table []) else none)

/-!
### Names
-/

theorem splitDoubled_ne_nil (cs : List Char) : splitDoubled cs ≠ [] := by
  fun_cases splitDoubled cs
  · exact List.cons_ne_nil _ _
  · exact List.cons_ne_nil _ _
  next c rest _ =>
    cases splitDoubled rest
    · exact List.cons_ne_nil _ _
    · exact List.cons_ne_nil _ _

/-- Where a name is not split, the piece is the name. -/
theorem eq_of_splitDoubled {cs piece : List Char} (single : splitDoubled cs = [piece]) : piece = cs := by
  fun_induction splitDoubled cs generalizing piece with
  | case1 => exact (List.cons.inj single).1.symm
  | case2 rest ih => exact absurd (List.cons.inj single).2 (splitDoubled_ne_nil rest)
  | case3 c rest _ ih =>
      cases pieces : splitDoubled rest with
      | nil => exact absurd pieces (splitDoubled_ne_nil rest)
      | cons first others =>
          rw [pieces, Text.consLine] at single
          obtain ⟨rfl, rfl⟩ := List.cons.inj single
          rw [ih pieces]

theorem mem_of_mem_splitDoubled {cs piece : List Char} {c : Char} (isPiece : piece ∈ splitDoubled cs) (mem : c ∈ piece) :
    c ∈ cs := by
  fun_induction splitDoubled cs generalizing piece with
  | case1 =>
      obtain rfl := List.mem_singleton.1 isPiece
      exact mem
  | case2 rest ih =>
      rcases List.mem_cons.1 isPiece with rfl | further
      · cases mem
      · exact List.mem_cons_of_mem _ (List.mem_cons_of_mem _ (ih further mem))
  | case3 d rest _ ih =>
      cases pieces : splitDoubled rest with
      | nil => exact absurd pieces (splitDoubled_ne_nil rest)
      | cons first others =>
          rw [pieces, Text.consLine] at isPiece
          rcases List.mem_cons.1 isPiece with rfl | further
          · rcases List.mem_cons.1 mem with rfl | inside
            · exact List.mem_cons_self
            · exact List.mem_cons_of_mem _ (ih (pieces ▸ List.mem_cons_self) inside)
          · exact List.mem_cons_of_mem _ (ih (pieces ▸ List.mem_cons_of_mem _ further) mem)

section Names

variable {field name key : String} {path : List String}

/-- The name of an entry leads to the pieces of what stands behind the setting's name. -/
theorem entryPath?_entryName (field rest : String) :
    entryPath? field (entryName field rest) = some ((splitDoubled rest.toList).map String.ofList) := by
  have begins : Text.startsWith (entryName field rest) (variableName field ++ "__") = true :=
    Text.startsWith_iff_exists.2 ⟨rest, rfl⟩
  have chars : (entryName field rest).toList = (variableName field ++ "__").toList ++ rest.toList := String.toList_append
  unfold entryPath?
  simp only [begins, if_true]
  rw [chars, List.drop_left]

/-- The keys to an entry are the pieces of what follows the name of the setting. -/
theorem exists_of_entryPath? (leads : entryPath? field name = some path) :
    ∃ rest, name = entryName field rest ∧ path = (splitDoubled rest.toList).map String.ofList := by
  have begins : Text.startsWith name (variableName field ++ "__") = true := by
    unfold entryPath? at leads
    simp only [] at leads
    split at leads
    · assumption
    · cases leads
  obtain ⟨rest, rfl⟩ := Text.startsWith_iff_exists.1 begins
  exact ⟨rest, rfl, (Option.some.inj ((entryPath?_entryName field rest).symm.trans leads)).symm⟩

/-- A name that leads into a setting leads somewhere in it. -/
theorem entryPath?_ne_nil (leads : entryPath? field name = some path) : path ≠ [] := by
  obtain ⟨rest, -, rfl⟩ := exists_of_entryPath? leads
  exact mt List.map_eq_nil_iff.1 (splitDoubled_ne_nil _)

/-- Only the name of an entry leads there. -/
theorem eq_entryName (leads : entryPath? field name = some [key]) : name = entryName field key := by
  obtain ⟨rest, rfl, pieces⟩ := exists_of_entryPath? leads
  obtain ⟨piece, others, split⟩ := List.exists_cons_of_ne_nil (splitDoubled_ne_nil rest.toList)
  rw [split, List.map_cons] at pieces
  obtain ⟨rfl, none⟩ := List.cons.inj pieces
  rw [List.map_eq_nil_iff.1 none.symm] at split
  rw [eq_of_splitDoubled split, String.ofList_toList]

end Names

/-!
### Writing at a path
-/

section Writing

variable {table : RawTable} {key k : String} {v : Value} {rest : List String}

/-- Storing below one key leaves the others as they are. -/
theorem get?_setAt_of_ne (differ : key ≠ k) : Entries.get? (setAt v (k :: rest) table) key = Entries.get? table key := by
  cases rest with
  | nil => exact Entries.get?_put_of_ne table v differ
  | cons next rest =>
      unfold setAt
      split
      · exact Entries.get?_put_of_ne table _ differ
      · exact Entries.get?_put_of_ne table _ differ
      · rfl

/-- What is written below an entry leaves what is no table, and makes a table of what is missing. -/
theorem alike_setAt_below (more : rest ≠ []) :
    Option.Rel Alike (Entries.get? (setAt v (key :: rest) table) key)
      (some ((Entries.get? table key).getD (.table []))) := by
  obtain ⟨next, rest, rfl⟩ := List.exists_cons_of_ne_nil more
  unfold setAt
  split
  next absent =>
    rw [Entries.get?_put_self, absent]
    exact .some (.inr ⟨rfl, rfl⟩)
  next found =>
    rw [Entries.get?_put_self, found]
    exact .some (.inr ⟨rfl, rfl⟩)
  next found =>
    rw [found]
    exact .some (.refl _)

/-- Storing a well keyed value at a path keeps a table well keyed. -/
theorem wellKeyed_setAt (keyed : (Value.table table).WellKeyed) (stored : v.WellKeyed) (path : List String) :
    (Value.table (setAt v path table)).WellKeyed := by
  induction path generalizing table with
  | nil => exact keyed
  | cons k rest ih =>
      cases rest with
      | nil => exact keyed.put k stored
      | cons next rest =>
          unfold setAt
          split
          · exact keyed.put k (ih .empty)
          next found => exact keyed.put k (ih (keyed.get? found))
          · exact keyed

theorem mem_keys_setAt (mem : key ∈ Entries.keys (setAt v (k :: rest) table)) : key = k ∨ key ∈ Entries.keys table := by
  by_cases same : key = k
  · exact .inl same
  · rw [← Entries.isSome_get?_iff, get?_setAt_of_ne same, Entries.isSome_get?_iff] at mem
    exact .inr mem

end Writing

/-!
### All variables of a section
-/

section Stored

variable {field key : String} {given : Variables} {table stored : RawTable} {e : String × Option String}

/-- Store what one variable says of the entries of a setting; none if it cannot be read. -/
def storeEntry (field : String) (table : Option RawTable) (e : String × Option String) : Option RawTable :=
  match table, entryPath? field e.1 with
  | some table, some path => (entryValue? field path e.2).map fun v => setAt v path table
  | table, _ => table

/-- The entries of a setting are stored one variable after the other. -/
theorem entriesFromVariables_eq (field : String) (given : Variables) :
    entriesFromVariables field given = given.foldl (storeEntry field) (some []) := rfl

/-- Once a variable could not be read, none of the others counts. -/
theorem foldl_storeEntry_none (field : String) (given : Variables) : given.foldl (storeEntry field) none = none := by
  induction given with
  | nil => rfl
  | cons e given ih => exact ih

/-- One variable is stored, and then the others. -/
inductive StoresFirst (field : String) (table : RawTable) (e : String × Option String) (after : RawTable) : Prop where
  | passed (elsewhere : entryPath? field e.1 = none) (same : after = table)
  | written {path : List String} {v : Value} (leads : entryPath? field e.1 = some path)
      (read : entryValue? field path e.2 = some v) (set : after = setAt v path table)

/-- Where all variables are stored, the first one is, and then the others. -/
theorem exists_storesFirst (done : (e :: given).foldl (storeEntry field) (some table) = some stored) :
    ∃ after, StoresFirst field table e after ∧ given.foldl (storeEntry field) (some after) = some stored := by
  rw [List.foldl_cons] at done
  cases leads : entryPath? field e.1 with
  | none =>
      have passed : storeEntry field (some table) e = some table := by simp only [storeEntry, leads]
      rw [passed] at done
      exact ⟨table, .passed leads rfl, done⟩
  | some path =>
      have step : storeEntry field (some table) e = (entryValue? field path e.2).map fun v => setAt v path table := by
        simp only [storeEntry, leads]
      rw [step] at done
      cases read : entryValue? field path e.2 with
      | none =>
          rw [read, Option.map_none, foldl_storeEntry_none] at done
          cases done
      | some v =>
          rw [read, Option.map_some] at done
          exact ⟨_, .written leads read rfl, done⟩

theorem alike_or_of_some {o o' : Option Value} {v : Value} (alike : Option.Rel Alike o (some v)) :
    Option.Rel Alike (o.or o') (some v) := by
  cases alike with
  | some same => exact .some same

/-- Without a variable that has just its name, an entry is what it was before, or a table if something is stored
    below. -/
theorem get?_stored_of_not_named (done : given.foldl (storeEntry field) (some table) = some stored)
    (notNamed : ∀ e ∈ given, entryPath? field e.1 ≠ some [key]) :
    Option.Rel Alike (Entries.get? stored key)
      ((Entries.get? table key).or (if given.leadsBelow field key then some (.table []) else none)) := by
  induction given generalizing table with
  | nil =>
      cases done
      rw [Variables.leadsBelow, List.any_nil, if_neg Bool.false_ne_true, Option.or_none]
      exact alike_refl _
  | cons e given ih =>
      obtain ⟨first, notNamed⟩ := List.forall_mem_cons.1 notNamed
      obtain ⟨after, stores, further⟩ := exists_storesFirst done
      refine alike_trans (ih further notNamed) ?_
      rw [Variables.leadsBelow, Variables.leadsBelow, List.any_cons]
      cases stores with
      | passed elsewhere same =>
          simp only [elsewhere, same, Bool.false_or]
          exact alike_refl _
      | @written path v leads read set =>
          obtain ⟨k, rest, rfl⟩ := List.exists_cons_of_ne_nil (entryPath?_ne_nil leads)
          subst set
          by_cases same : k = key
          · subst same
            -- written below the entry, since no variable has just its name
            have more : rest ≠ [] := by
              rintro rfl
              exact first leads
            obtain ⟨next, rest, rfl⟩ := List.exists_cons_of_ne_nil more
            simp only [leads, beq_self_eq_true, Bool.true_or, if_true, Option.or_some]
            exact alike_or_of_some (alike_setAt_below more)
          · rw [get?_setAt_of_ne (Ne.symm same)]
            have elsewhere : (match some (k :: rest) with | some (k :: _ :: _) => k == key | _ => false) = false := by
              cases rest <;> simp [same]
            simp only [leads, elsewhere, Bool.false_or]
            exact alike_refl _

/-- The variable with just the name of an entry decides what it is. -/
theorem get?_stored_of_named (distinct : (Entries.keys given).Nodup)
    (done : given.foldl (storeEntry field) (some table) = some stored) {value : Option String}
    (named : (entryName field key, value) ∈ given) (leads : entryPath? field (entryName field key) = some [key]) :
    ∃ v, entryValue? field [key] value = some v ∧ Option.Rel Alike (Entries.get? stored key) (some v) := by
  induction given generalizing table with
  | nil => cases named
  | cons e given ih =>
      obtain ⟨fresh, distinct⟩ := List.nodup_cons.1 distinct
      obtain ⟨after, stores, further⟩ := exists_storesFirst done
      rcases List.mem_cons.1 named with rfl | among
      · cases stores with
        | passed elsewhere _ => cases leads.symm.trans elsewhere
        | @written path v leads' read set =>
            obtain rfl := Option.some.inj (leads.symm.trans leads')
            have notNamed : ∀ e ∈ given, entryPath? field e.1 ≠ some [key] := by
              intro e mem again
              have isKey : e.1 ∈ Entries.keys given := List.mem_map_of_mem mem
              exact fresh (eq_entryName again ▸ isKey)
            have kept := get?_stored_of_not_named further notNamed
            rw [set, setAt, Entries.get?_put_self, Option.some_or] at kept
            exact ⟨v, read, kept⟩
      · exact ih distinct further among

end Stored

section Entries

variable {field key : String} {given : Variables} {entries : RawTable}

/-- An entry of a section is what single variables say of it. -/
theorem get?_entriesFromVariables (distinct : (Entries.keys given).Nodup)
    (read : entriesFromVariables field given = some entries) :
    Option.Rel Alike (Entries.get? entries key) (given.single? field key) := by
  rw [entriesFromVariables_eq] at read
  rw [Variables.single?, Variables.own?]
  by_cases leads : entryPath? field (entryName field key) = some [key]
  · rw [if_pos leads]
    cases named : Entries.get? given (entryName field key) with
    | some value =>
        obtain ⟨v, isValue, alike⟩ := get?_stored_of_named distinct read (Entries.mem_of_get? named) leads
        rw [Option.bind_some, isValue, Option.some_or]
        exact alike
    | none =>
        have notNamed : ∀ e ∈ given, entryPath? field e.1 ≠ some [key] := by
          intro e mem again
          have isKey : e.1 ∈ Entries.keys given := List.mem_map_of_mem mem
          exact Entries.get?_eq_none_iff.1 named (eq_entryName again ▸ isKey)
        exact get?_stored_of_not_named read notNamed
  · have notNamed : ∀ e ∈ given, entryPath? field e.1 ≠ some [key] :=
      fun e _ again => leads (eq_entryName again ▸ again)
    rw [if_neg leads]
    exact get?_stored_of_not_named read notNamed

/-- A value decoded from the text of a variable is well keyed. -/
theorem wellKeyed_of_decodeJson? {s : String} {v : Value} (read : decodeJson? s = some v) : v.WellKeyed := by
  obtain ⟨json, parsed, rfl⟩ := Option.map_eq_some_iff.1 read
  cases whole : Json.parse s with
  | error e =>
      rw [whole] at parsed
      cases parsed
  | ok json' =>
      rw [whole] at parsed
      obtain rfl := Option.some.inj parsed
      exact Json.wellKeyed_of_parse whole

theorem wellKeyed_of_entryValue? {path : List String} {value : Option String} {v : Value}
    (read : entryValue? field path value = some v) : v.WellKeyed := by
  unfold entryValue? at read
  split at read
  · cases read
    exact .atom rfl
  next s =>
    split at read
    · cases read
      exact .atom rfl
    · split at read
      · cases read
        cases decoded : decodeJson? s with
        | none => exact .atom rfl
        | some v => exact wellKeyed_of_decodeJson? decoded
      · split at read
        · exact wellKeyed_of_decodeJson? read
        · cases read
          exact .atom rfl

/-- What is stored of variables without capitals in their names has keys without capitals, and no key twice. -/
structure Plain (table : RawTable) : Prop where
  keyed : (Value.table table).WellKeyed
  uncased : ∀ k ∈ Entries.keys table, ∀ c ∈ k.toList, Uncased c

/-- Variables with uncased names leave a table with plain keys. -/
theorem plain_stored {table : RawTable} (plain : Plain table)
    (uncased : ∀ e ∈ given, ∀ c ∈ e.1.toList, Uncased c)
    (done : given.foldl (storeEntry field) (some table) = some entries) : Plain entries := by
  induction given generalizing table with
  | nil =>
      cases done
      exact plain
  | cons e given ih =>
      obtain ⟨first, uncased⟩ := List.forall_mem_cons.1 uncased
      obtain ⟨after, stores, further⟩ := exists_storesFirst done
      refine ih ?_ uncased further
      cases stores with
      | passed _ same => exact same ▸ plain
      | @written path v leads read set =>
          subst set
          refine ⟨wellKeyed_setAt plain.keyed (wellKeyed_of_entryValue? read) path, ?_⟩
          obtain ⟨rest, named, pieces⟩ := exists_of_entryPath? leads
          obtain ⟨k, others, rfl⟩ := List.exists_cons_of_ne_nil (entryPath?_ne_nil leads)
          intro k' mem c inside
          rcases mem_keys_setAt mem with rfl | before
          · obtain ⟨piece, isPiece, rfl⟩ := List.mem_map.1 (pieces ▸ List.mem_cons_self)
            rw [String.toList_ofList] at inside
            have isChar := mem_of_mem_splitDoubled isPiece inside
            refine first c ?_
            rw [named, entryName, String.toList_append]
            exact List.mem_append_right _ isChar
          · exact plain.uncased k' before c inside

/-- The entries of a setting given by variables with uncased names have plain keys. -/
theorem plain_entriesFromVariables (uncased : ∀ e ∈ given, ∀ c ∈ e.1.toList, Uncased c)
    (read : entriesFromVariables field given = some entries) : Plain entries :=
  plain_stored ⟨.empty, fun _ none => absurd none List.not_mem_nil⟩ uncased read

theorem setAt_ne_nil (v : Value) (k : String) (rest : List String) (table : RawTable) :
    setAt v (k :: rest) table ≠ [] := by
  intro empty
  have nothing : Entries.get? (setAt v (k :: rest) table) k = none := by rw [empty, Entries.get?]
  cases rest with
  | nil =>
      rw [setAt, Entries.get?_put_self] at nothing
      cases nothing
  | cons next rest =>
      have written := @alike_setAt_below table k v (next :: rest) (List.cons_ne_nil next rest)
      rw [nothing] at written
      cases written

/-- Something is stored exactly if there is a variable for an entry. -/
theorem stored_eq_nil_iff {table : RawTable} (done : given.foldl (storeEntry field) (some table) = some entries) :
    entries = [] ↔ table = [] ∧ ∀ e ∈ given, entryPath? field e.1 = none := by
  induction given generalizing table with
  | nil =>
      cases done
      exact ⟨fun empty => ⟨empty, fun _ none => absurd none List.not_mem_nil⟩, And.left⟩
  | cons e given ih =>
      obtain ⟨after, stores, further⟩ := exists_storesFirst done
      rw [ih further, List.forall_mem_cons]
      cases stores with
      | passed elsewhere same =>
          rw [same]
          exact ⟨fun ⟨empty, others⟩ => ⟨empty, elsewhere, others⟩, fun ⟨empty, _, others⟩ => ⟨empty, others⟩⟩
      | @written path v leads read set =>
          obtain ⟨k, rest, rfl⟩ := List.exists_cons_of_ne_nil (entryPath?_ne_nil leads)
          constructor
          · rintro ⟨empty, -⟩
            exact absurd (set ▸ empty) (setAt_ne_nil v k rest table)
          · rintro ⟨-, elsewhere, -⟩
            cases leads.symm.trans elsewhere

end Entries

end Outline.Settings
