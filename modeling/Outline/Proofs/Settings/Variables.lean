/-
Module: Outline.Proofs.Settings.Variables
Layer: Proofs
Purpose: What variables say of each single thing that can be set. A number is the text of its variable, a list the JSON of
  its variable, and an entry of a section is what its own variable says, or else the object that the variable of the
  section holds. The variable of a section silences those of its entries if it holds JSON that is no object.
Main exports: Variables.text?, Variables.json?, Variables.entry?, Variables.whole?, Variables.leaf?, leaf?_fromVariables,
  wellKeyed_fromVariables
-/
import Outline.Proofs.Settings.Spelled

namespace Outline.Settings

open Text (Uncased)
open Value (Alike mergeTables)

namespace Variables

/-- Text of a variable, if it has one. -/
def text? (given : Variables) (name : String) : Option String := (Entries.get? given name).join

/-- The JSON that the variable of a setting holds. -/
def json? (given : Variables) (field : String) : Option Value := (given.text? (variableName field)).bind decodeJson?

/-- What variables say of an entry of a section. -/
def entry? (given : Variables) (field key : String) : Option Value :=
  match given.json? field with
  | none => given.single? field key
  | some (.table table) =>
    if field = "resolver" then RawTable.overruled? table key (given.single? field key)
    else (given.single? field key).or (Entries.get? table key)
  | some _ => none

/-- What variables say of a setting that is written in JSON as a whole. Variables for entries of it make it a table. -/
def whole? (given : Variables) (field : String) : Option Value :=
  match given.text? (variableName field) with
  | none => if given.any fun e => (entryPath? field e.1).isSome then some (.table []) else none
  | some s =>
    match decodeJson? s with
    | some .null => none
    | v => v

/-- What variables say of a single thing that can be set. -/
def leaf? (given : Variables) (leaf : Leaf) : Option Value :=
  match leaf.section? with
  | some name => given.entry? name leaf.key
  | none => if isComplex leaf.key then given.whole? leaf.key else (given.text? (variableName leaf.key)).map .text

/-- Different variables have different names, and none of them has a capital. -/
structure Lowered (given : Variables) : Prop where
  distinct : (Entries.keys given).Nodup
  uncased : ∀ e ∈ given, ∀ c ∈ e.1.toList, Uncased c

/-- Variables whose names were lowered have lower names. -/
theorem lowered_lowerNames (given : Variables) : Lowered (lowerNames given) := by
  refine ⟨Entries.nodup_ofPairs _, ?_⟩
  intro e mem c inside
  rcases Entries.mem_merge mem with none | among
  · cases none
  · obtain ⟨e', -, rfl⟩ := List.mem_map.1 among
    exact Text.uncased_of_mem_lower inside

end Variables

open Variables (Lowered)

/-!
### Settings that hold others
-/

section Complex

variable {given : Variables} {field key : String} {o : Option Value}

/-- What becomes of the variable of a setting and those of its entries. -/
inductive Reads (given : Variables) (field : String) : Option Value → Prop where
  | entries {entries : RawTable} (absent : given.text? (variableName field) = none)
      (read : entriesFromVariables field given = some entries) :
      Reads given field (if entries.isEmpty then none else some (.table entries))
  | object {s : String} {table entries : RawTable} (there : given.text? (variableName field) = some s)
      (decoded : decodeJson? s = some (.table table)) (read : entriesFromVariables field given = some entries) :
      Reads given field (some (.table (mergeTables table entries)))
  | null {s : String} (there : given.text? (variableName field) = some s) (decoded : decodeJson? s = some .null) :
      Reads given field none
  | other {s : String} {v : Value} (there : given.text? (variableName field) = some s) (decoded : decodeJson? s = some v)
      (notTable : v.isTable = false) (notNull : v ≠ .null) : Reads given field (some v)

/-- A setting with parts is read from its own variable and those of its parts. -/
theorem reads_of_complexFromVariables (read : complexFromVariables field given = some o) : Reads given field o := by
  unfold complexFromVariables at read
  split at read
  next absent =>
    obtain ⟨entries, stored, made⟩ := Option.bind_eq_some_iff.1 read
    cases made
    exact .entries absent stored
  next s there =>
    obtain ⟨v, decoded, onward⟩ := Option.bind_eq_some_iff.1 read
    split at onward
    next table =>
      obtain ⟨entries, stored, made⟩ := Option.bind_eq_some_iff.1 onward
      cases made
      exact .object there decoded stored
    · cases onward
      exact .null there decoded
    next notTable notNull =>
      cases onward
      refine .other there decoded ?_ notNull
      rw [← Bool.not_eq_true]
      intro isTable
      obtain ⟨entries, same⟩ := Value.exists_of_isTable isTable
      exact notTable entries same

theorem json?_of_absent (absent : given.text? (variableName field) = none) : given.json? field = none := by
  rw [Variables.json?, absent, Option.bind_none]

/-- A variable that can be decoded gives what it decodes to. -/
theorem json?_of_decoded {s : String} {v : Value} (there : given.text? (variableName field) = some s)
    (decoded : decodeJson? s = some v) : given.json? field = some v := by
  rw [Variables.json?, there, Option.bind_some, decoded]

theorem wellKeyed_of_reads (lowered : Lowered given) (reads : Reads given field o) {v : Value} (there : o = some v) :
    v.WellKeyed := by
  cases reads with
  | entries absent read =>
      split at there
      · cases there
      · cases there
        exact (plain_entriesFromVariables lowered.uncased read).keyed
  | object _ decoded read =>
      cases there
      have plain := plain_entriesFromVariables lowered.uncased read
      exact wellKeyed_mergeTables (wellKeyed_of_decodeJson? decoded) plain.keyed
  | null => cases there
  | other _ decoded =>
      cases there
      exact wellKeyed_of_decodeJson? decoded

/-- What variables say of a setting that is written in JSON as a whole. -/
theorem alike_whole? (reads : Reads given field o) : Option.Rel Alike o (given.whole? field) := by
  unfold Variables.whole?
  cases reads with
  | @entries entries absent read =>
      have empty := stored_eq_nil_iff read
      rw [absent]
      cases entries with
      | nil =>
          have none : (given.any fun e => (entryPath? field e.1).isSome) = false := by
            simpa [List.any_eq_false] using (empty.1 rfl).2
          simp only [none]
          exact .none
      | cons e rest =>
          have some' : (given.any fun e => (entryPath? field e.1).isSome) = true := by
            rw [← Bool.not_eq_false, List.any_eq_false]
            intro none
            refine List.cons_ne_nil e rest (empty.2 ⟨rfl, fun e mem => ?_⟩)
            simpa using none e mem
          simp only [some']
          exact .some (.inr ⟨rfl, rfl⟩)
  | @object s table entries there decoded read =>
      rw [there]
      simp only [decoded]
      exact .some (.inr ⟨rfl, rfl⟩)
  | null there decoded =>
      rw [there]
      simp only [decoded]
      exact .none
  | other there decoded notTable notNull =>
      rw [there]
      simp only [decoded]
      split
      next null => exact absurd (Option.some.inj null) notNull
      next => exact alike_refl _

/-- What variables say of an entry of a map. -/
theorem alike_entry?_map (lowered : Lowered given) (isMap : field ≠ "resolver") (reads : Reads given field o) :
    Option.Rel Alike (inside? o key) (given.entry? field key) := by
  unfold Variables.entry?
  cases reads with
  | @entries entries absent read =>
      rw [json?_of_absent absent]
      refine alike_trans ?_ (get?_entriesFromVariables lowered.distinct read)
      cases entries <;> exact alike_refl _
  | @object s table entries there decoded read =>
      rw [json?_of_decoded there decoded]
      simp only [if_neg isMap]
      have plain := plain_entriesFromVariables lowered.uncased read
      refine alike_trans (alike_get?_mergeTables plain.keyed.distinct key) ?_
      exact rel_or (get?_entriesFromVariables lowered.distinct read) (alike_refl _)
  | null there decoded =>
      rw [json?_of_decoded there decoded]
      exact .none
  | @other s v there decoded notTable notNull =>
      rw [json?_of_decoded there decoded]
      cases v with
      | table entries => cases notTable
      | checked r => exact absurd (wellKeyed_of_decodeJson? decoded) (Value.WellKeyed.not_checked r)
      | _ => exact .none

/-- The section of the resolver, with its keys in the spelling of their settings. -/
def lowerSection (o : Option Value) : Option Value :=
  match o with
  | some (.table table) => some (.table (lowerResolverKeys table))
  | o => o

/-- What variables say of an entry of the resolver section. -/
theorem alike_entry?_resolver (lowered : Lowered given) (known : key ∈ resolverFieldNames)
    (reads : Reads given "resolver" o) :
    Option.Rel Alike (inside? (lowerSection o) key) (given.entry? "resolver" key) := by
  unfold Variables.entry?
  cases reads with
  | @entries entries absent read =>
      have plain := plain_entriesFromVariables lowered.uncased read
      rw [json?_of_absent absent]
      refine alike_trans ?_ (get?_entriesFromVariables lowered.distinct read)
      -- names of variables have no capitals, so no two of the keys spell one setting
      rw [← lastSpelled?_of_plain plain, ← get?_lowerResolverKeys known]
      cases entries <;> exact alike_refl _
  | @object s table entries there decoded read =>
      have plain := plain_entriesFromVariables lowered.uncased read
      rw [json?_of_decoded there decoded]
      simp only [if_true]
      change Option.Rel Alike (Entries.get? (lowerResolverKeys (mergeTables table entries)) key) _
      rw [get?_lowerResolverKeys known]
      refine alike_trans (lastSpelled?_mergeTables (wellKeyed_of_decodeJson? decoded).distinct plain) ?_
      exact alike_overruled? (get?_entriesFromVariables lowered.distinct read)
  | null there decoded =>
      rw [json?_of_decoded there decoded]
      exact .none
  | @other s v there decoded notTable notNull =>
      rw [json?_of_decoded there decoded]
      cases v with
      | table entries => cases notTable
      | checked r => exact absurd (wellKeyed_of_decodeJson? decoded) (Value.WellKeyed.not_checked r)
      | _ => exact .none

end Complex

/-!
### All settings
-/

section All

variable {given : Variables} {field origin : String} {o : Option Value} {table : RawTable}

/-- The resolver is read like any setting with parts, its keys in lower case. -/
theorem fieldFromVariables_resolver (given : Variables) :
    fieldFromVariables "resolver" given = (complexFromVariables "resolver" given).map lowerSection := by
  have isComplex : isComplex "resolver" = true := by decide
  rw [fieldFromVariables, isComplex, if_pos rfl]
  congr 1
  funext o
  cases o with
  | none => rfl
  | some v => cases v <;> rfl

theorem fieldFromVariables_complex (complex : isComplex field = true) (other : field ≠ "resolver") :
    fieldFromVariables field given = complexFromVariables field given := by
  rw [fieldFromVariables, if_pos complex]
  cases complexFromVariables field given with
  | none => rfl
  | some o =>
      rw [Option.map_some]
      split
      next => exact absurd rfl other
      next => rfl

/-- What variables set, setting by setting. -/
theorem get?_go {fields : List String} (distinct : fields.Nodup)
    (read : fromVariables.go origin given fields = .ok table) :
    (Entries.keys table).Sublist fields ∧
      ∀ field ∈ fields, fieldFromVariables field given = some (Entries.get? table field) := by
  induction fields generalizing table with
  | nil =>
      cases read
      exact ⟨.slnil, fun _ none => absurd none List.not_mem_nil⟩
  | cons f rest ih =>
      obtain ⟨fresh, distinct⟩ := List.nodup_cons.1 distinct
      unfold fromVariables.go at read
      split at read
      · cases read
      next nothing =>
        obtain ⟨sublist, each⟩ := ih distinct read
        have absent : Entries.get? table f = none := Entries.get?_eq_none_iff.2 fun mem => fresh (sublist.subset mem)
        exact ⟨sublist.cons f, List.forall_mem_cons.2 ⟨by rw [nothing, absent], each⟩⟩
      next v something =>
        obtain ⟨others, further, made⟩ := exists_of_bind_eq_ok read
        cases made
        obtain ⟨sublist, each⟩ := ih distinct further
        refine ⟨sublist.cons_cons f, List.forall_mem_cons.2 ⟨?_, fun field mem => ?_⟩⟩
        · rw [something, Entries.get?, if_pos rfl]
        · have differ : f ≠ field := by
            rintro rfl
            exact fresh mem
          rw [each field mem, Entries.get?, if_neg differ]

theorem nodup_fieldNames : fieldNames.Nodup := by decide

/-- What variables set of each single thing. -/
theorem leaf?_fromVariables (lowered : Lowered given) (read : fromVariables origin given = .ok table) (leaf : Leaf) :
    Option.Rel Alike (table.leaf? leaf) (given.leaf? leaf) := by
  obtain ⟨-, each⟩ := get?_go nodup_fieldNames read
  unfold Variables.leaf?
  cases inside : leaf.section? with
  | some name =>
      rw [leaf?_of_inside inside]
      rcases List.mem_pair.1 (Leaf.section?_mem inside) with rfl | rfl
      · have resolver := each "resolver" (by decide)
        rw [fieldFromVariables_resolver] at resolver
        obtain ⟨o, complex, made⟩ := Option.map_eq_some_iff.1 resolver
        rw [← made]
        exact alike_entry?_resolver lowered (Leaf.key_mem_resolver inside) (reads_of_complexFromVariables complex)
      · have aliases := each "path_aliases" (by decide)
        rw [fieldFromVariables_complex (by decide) (by decide)] at aliases
        exact alike_entry?_map lowered (by decide) (reads_of_complexFromVariables aliases)
  | none =>
      have own := each leaf.key (Leaf.key_mem inside)
      rw [leaf?_of_outside inside]
      simp only []
      split
      next complex =>
        have notResolver : leaf.key ≠ "resolver" := by
          cases leaf with
          | workers | sourceExtensions | ignoredDirectories => decide
          | _ => cases inside
        rw [fieldFromVariables_complex complex notResolver] at own
        exact alike_whole? (reads_of_complexFromVariables own)
      next simple =>
        rw [fieldFromVariables, if_neg simple] at own
        rw [← Option.some.inj own]
        exact alike_refl _

theorem wellKeyed_lowerResolverKeys {entries : RawTable} (keyed : (Value.table entries).WellKeyed) :
    (Value.table (lowerResolverKeys entries)).WellKeyed := by
  refine .merge .empty fun e mem => ?_
  obtain ⟨e', among, rfl⟩ := List.mem_map.1 mem
  exact keyed.each e' among

/-- The value that variables give a setting is well keyed. -/
theorem wellKeyed_of_fieldFromVariables {v : Value} (lowered : Lowered given)
    (read : fieldFromVariables field given = some (some v)) : v.WellKeyed := by
  by_cases complex : isComplex field = true
  · by_cases resolver : field = "resolver"
    · subst resolver
      rw [fieldFromVariables_resolver] at read
      obtain ⟨o, made, lower⟩ := Option.map_eq_some_iff.1 read
      have reads := reads_of_complexFromVariables made
      unfold lowerSection at lower
      split at lower
      next =>
        obtain rfl := Option.some.inj lower
        exact wellKeyed_lowerResolverKeys (wellKeyed_of_reads lowered reads rfl)
      next => exact wellKeyed_of_reads lowered reads lower
    · rw [fieldFromVariables_complex complex resolver] at read
      exact wellKeyed_of_reads lowered (reads_of_complexFromVariables read) rfl
  · rw [fieldFromVariables, if_neg complex] at read
    obtain ⟨s, -, rfl⟩ := Option.map_eq_some_iff.1 (Option.some.inj read)
    exact .atom rfl

/-- What variables set is well keyed. -/
theorem wellKeyed_fromVariables (lowered : Lowered given) (read : fromVariables origin given = .ok table) :
    (Value.table table).WellKeyed := by
  obtain ⟨sublist, each⟩ := get?_go nodup_fieldNames read
  have distinct : (Entries.keys table).Nodup := sublist.nodup nodup_fieldNames
  refine .table distinct fun e mem => ?_
  have known : e.1 ∈ fieldNames := sublist.subset (List.mem_map_of_mem mem)
  have made := each e.1 known
  rw [Entries.get?_of_mem distinct mem] at made
  exact wellKeyed_of_fieldFromVariables lowered made

end All

end Outline.Settings
