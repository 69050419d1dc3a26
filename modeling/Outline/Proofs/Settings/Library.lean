/-
Module: Outline.Proofs.Settings.Library
Layer: Proofs
Purpose: What is relied on of the library that settings are put together with: how it reads variables, spells keys, merges
  tables and checks the result. Whatever a source says, a library that does so is as good as any other. The one in use
  does so.
Main exports: RawTable.stated?, ReadsVariables, SpellsKeys, Library.Documented, documented_standard
-/
import Outline.Proofs.Settings.Variables
import Outline.Proofs.Specifier.Tables

namespace Outline.Settings

open Value (Alike)
open Variables (Lowered)

/-- What a table in which keys have any case says of a single thing. The first key that names a setting counts. -/
def RawTable.stated? (table : RawTable) (leaf : Leaf) : Option Value :=
  match leaf.section? with
  | none => table.named? leaf.key
  | some name => inside? (table.named? name) leaf.key

/-!
### What is relied on
-/

/-- Variables are read setting by setting, their names in any case: a variable for an entry of a section counts more than
    the JSON of the section. The table that they give has no key twice. -/
structure ReadsVariables (read : Variables → Except VariableError RawTable) : Prop where
  keyed {given : Variables} {table : RawTable} (done : read given = .ok table) : (Value.table table).WellKeyed
  leaf {given : Variables} {table : RawTable} (done : read given = .ok table) (leaf : Leaf) :
    Option.Rel Alike (table.leaf? leaf) ((lowerNames given).leaf? leaf)

/-- A key that names a setting in any case stands for this setting, and the values stay. -/
structure SpellsKeys (spelled : RawTable → RawTable) : Prop where
  distinct {table : RawTable} (before : (Entries.keys table).Nodup) : (Entries.keys (spelled table)).Nodup
  kept {table : RawTable} {e : String × Value} (mem : e ∈ spelled table) : ∃ key, (key, e.2) ∈ table
  leaf (table : RawTable) (leaf : Leaf) : (spelled table).leaf? leaf = table.stated? leaf

/-- The library does what it is documented to do. -/
structure Library.Documented (library : Library) : Prop where
  environment : ReadsVariables library.environment
  dotEnv : ReadsVariables library.dotEnv
  spelled : SpellsKeys library.spelled
  /-- Sources are combined by a recursive merge. -/
  merge : RecursiveMerge library.merge
  /-- A section that passes the check has entries. -/
  sections {table : RawTable} {s : Settings} (valid : library.validate table = .ok s) : Sectioned table
  /-- A setting that passes the check has its value in the table, or its default. -/
  validate {table : RawTable} {s : Settings} (valid : library.validate table = .ok s) (leaf : Leaf) :
    Shows s leaf (table.leaf? leaf)

namespace SpellsKeys

variable {spelled : RawTable → RawTable} {table : RawTable}

/-- Spelling the keys of a dictionary leaves a dictionary. -/
theorem dictionary (spells : SpellsKeys spelled) (keyed : Dictionary table) : Dictionary (spelled table) where
  distinct := spells.distinct keyed.distinct
  sections _ inner mem := by
    obtain ⟨key, before⟩ := spells.kept mem
    exact keyed.sections key inner before

/-- Spelling the keys of a well keyed table leaves a well keyed table. -/
theorem wellKeyed (spells : SpellsKeys spelled) (keyed : (Value.table table).WellKeyed) :
    (Value.table (spelled table)).WellKeyed := by
  refine .table (spells.distinct keyed.distinct) fun e mem => ?_
  obtain ⟨key, before⟩ := spells.kept mem
  exact keyed.each (key, e.2) before

end SpellsKeys

/-!
### The library in use
-/

section Single

variable {table : RawTable} {leaf : Leaf} {origin : String}

/-- With the keys in the spelling of their settings a table says the same. -/
theorem leaf?_settingKeys (table : RawTable) (leaf : Leaf) :
    RawTable.leaf? (settingKeys [] table) leaf = table.stated? leaf := by
  unfold RawTable.stated?
  cases inside : leaf.section? with
  | none =>
      rw [leaf?_of_outside inside]
      exact get?_settingKeys (Leaf.key_mem inside) List.not_mem_nil
  | some name =>
      have named := @get?_settingKeys table [] name (Leaf.section?_known inside) List.not_mem_nil
      rw [leaf?_of_inside inside, named]

/-- What an unknown variable is as an entry. -/
def unknown? (e : String × Option String) : Option (String × Value) :=
  match e.2 with
  | some s => if s = "" || fieldNames.contains e.1 || isUsedName e.1 then none else some (e.1, .text s)
  | none => none

/-- The unknown variables are those that stand for no setting, in their order. -/
theorem unknownVariables_eq (vars : Variables) : unknownVariables vars = vars.filterMap unknown? := rfl

/-- An unknown variable is kept as a text under its own name. -/
theorem exists_of_unknown? {e : String × Option String} {e' : String × Value} (unknown : unknown? e = some e') :
    ∃ s, e' = (e.1, .text s) ∧ e.1 ∉ fieldNames := by
  unfold unknown? at unknown
  cases value : e.2 with
  | none =>
      rw [value] at unknown
      cases unknown
  | some s =>
      rw [value] at unknown
      simp only [Option.ite_none_left_eq_some, Bool.or_eq_true, not_or] at unknown
      obtain ⟨⟨⟨-, unknownName⟩, -⟩, made⟩ := unknown
      refine ⟨s, (Option.some.inj made).symm, fun known => unknownName ?_⟩
      exact List.contains_iff_mem.2 known

/-- No unknown variable stands under the name of a setting. -/
theorem mem_keys_unknownVariables {vars : Variables} {key : String} (mem : key ∈ Entries.keys (unknownVariables vars)) :
    key ∉ fieldNames := by
  obtain ⟨e, isUnknown, rfl⟩ := List.mem_map.1 mem
  obtain ⟨e', -, made⟩ := List.mem_filterMap.1 (unknownVariables_eq vars ▸ isUnknown)
  obtain ⟨s, rfl, fresh⟩ := exists_of_unknown? made
  exact fresh

theorem keys_unknownVariables_sublist (vars : Variables) :
    (Entries.keys (unknownVariables vars)).Sublist (Entries.keys vars) := by
  rw [unknownVariables_eq]
  induction vars with
  | nil => exact .slnil
  | cons e rest ih =>
      rw [List.filterMap_cons]
      cases made : unknown? e with
      | none => exact ih.cons e.1
      | some e' =>
          obtain ⟨s, rfl, -⟩ := exists_of_unknown? made
          exact ih.cons_cons e.1

/-- The unknown variables of a file do not change what it says. -/
theorem leaf?_append_unknownVariables (table : RawTable) (vars : Variables) (leaf : Leaf) :
    RawTable.leaf? (table ++ unknownVariables vars) leaf = table.leaf? leaf := by
  have same : ∀ field ∈ fieldNames, Entries.get? (table ++ unknownVariables vars) field = Entries.get? table field := by
    intro field known
    have absent : Entries.get? (unknownVariables vars) field = none :=
      Entries.get?_eq_none_iff.2 fun mem => mem_keys_unknownVariables mem known
    rw [Entries.get?_append, absent, Option.or_none]
  cases inside : leaf.section? with
  | none => rw [leaf?_of_outside inside, leaf?_of_outside inside, same leaf.key (Leaf.key_mem inside)]
  | some name => rw [leaf?_of_inside inside, leaf?_of_inside inside, same name (Leaf.section?_known inside)]

/-- The settings and unknown variables of a file make a well keyed table together. -/
theorem wellKeyed_append_unknownVariables {vars : Variables} (lowered : Lowered vars)
    (read : fromVariables origin vars = .ok table) : (Value.table (table ++ unknownVariables vars)).WellKeyed := by
  have keyed := wellKeyed_fromVariables lowered read
  obtain ⟨known, -⟩ := get?_go nodup_fieldNames read
  refine .table ?_ fun e mem => ?_
  · rw [Entries.keys, List.map_append, List.nodup_append]
    refine ⟨keyed.distinct, lowered.distinct.sublist (keys_unknownVariables_sublist vars), ?_⟩
    rintro key mem _ mem' rfl
    exact mem_keys_unknownVariables mem' (known.subset mem)
  · rcases List.mem_append.1 mem with set | unknown
    · exact keyed.each e set
    · obtain ⟨e', -, made⟩ := List.mem_filterMap.1 (unknownVariables_eq vars ▸ unknown)
      obtain ⟨s, rfl, -⟩ := exists_of_unknown? made
      exact .atom rfl

end Single

theorem readsVariables_environment : ReadsVariables Library.standard.environment where
  keyed done := wellKeyed_fromVariables (Variables.lowered_lowerNames _) done
  leaf done := leaf?_fromVariables (Variables.lowered_lowerNames _) done

/-- A file of variables is read as documented; its unknown variables name no setting. -/
theorem readsVariables_dotEnv : ReadsVariables Library.standard.dotEnv where
  keyed done := by
    obtain ⟨table, read, made⟩ := exists_of_bind_eq_ok done
    cases made
    exact wellKeyed_append_unknownVariables (Variables.lowered_lowerNames _) read
  leaf done leaf := by
    obtain ⟨table, read, made⟩ := exists_of_bind_eq_ok done
    cases made
    rw [leaf?_append_unknownVariables]
    exact leaf?_fromVariables (Variables.lowered_lowerNames _) read leaf

/-- The library in use does what is relied on. -/
theorem documented_standard : Library.standard.Documented where
  environment := readsVariables_environment
  dotEnv := readsVariables_dotEnv
  spelled :=
    { distinct := fun before => nodup_settingKeys before []
      kept := exists_mem_of_mem_settingKeys
      leaf := leaf?_settingKeys }
  merge := recursiveMerge_mergeTables
  sections := sectioned_of_validate
  validate := shows_of_validate

end Outline.Settings
