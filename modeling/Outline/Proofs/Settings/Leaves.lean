/-
Module: Outline.Proofs.Settings.Leaves
Layer: Proofs
Purpose: The single things that can be set, and what checked settings show of the table that they come from: for each
  of them the value that the table has, or the default if it has none. A section has to be a table then, and no single
  thing can be one.
Main exports: Leaf, RawTable.leaf?, Shows, SectionOf, Sectioned, sectioned_of_validate, shows_of_validate,
  Shows.notTable
-/
import Outline.Proofs.CommandLine.Options
import Outline.Proofs.Entries.Keys
import Outline.Settings.Load

namespace Outline.Settings

open CommandLine (exists_of_map_eq_ok)

/-- A single thing that can be set. -/
inductive Leaf where
  | workers
  | sourceExtensions
  | ignoredDirectories
  | extensions
  | indexFiles
  | workspace
  | probe
  | aliasTarget (pattern : String)
deriving DecidableEq, Repr

/-- The section that holds it, if one does. -/
def Leaf.section? : Leaf → Option String
  | workers | sourceExtensions | ignoredDirectories => none
  | extensions | indexFiles | workspace | probe => some "resolver"
  | aliasTarget _ => some "path_aliases"

/-- Its key, in the section if there is one. -/
def Leaf.key : Leaf → String
  | workers => "scanner_num_workers"
  | sourceExtensions => "source_extensions"
  | ignoredDirectories => "ignored_dirs"
  | extensions => "extensions"
  | indexFiles => "index_files"
  | workspace => "workspace_dir"
  | probe => "probe"
  | aliasTarget pattern => pattern

/-- A list of texts as a value. -/
def Value.texts (ts : List String) : Value := .list (ts.map .text)

/-- All that an object for the resolver section sets. -/
def ResolverSection.entries (r : ResolverSection) : Entries Value :=
  [("extensions", .texts r.search.extensions), ("index_files", .texts r.search.indexFiles),
    ("workspace_dir", r.workspace.elim .null .text), ("probe", .text r.probe.name)]

/-- An object leaves nothing open. -/
theorem ResolverSection.isSome_get?_entries (r : ResolverSection) {key : String} (known : key ∈ resolverFieldNames) :
    (Entries.get? r.entries key).isSome = true := by
  rw [Entries.isSome_get?_iff]
  exact known

/-- The entries of what a setting that holds others is given as. -/
def Value.entries? : Value → Option (Entries Value)
  | table inner => some inner
  | checked r => some r.entries
  | _ => none

/-- What the value of a section has for an entry. -/
def inside? (o : Option Value) (key : String) : Option Value :=
  (o.bind Value.entries?).bind (Entries.get? · key)

/-- What a table has for it. -/
def RawTable.leaf? (table : RawTable) (leaf : Leaf) : Option Value :=
  match leaf.section? with
  | none => Entries.get? table leaf.key
  | some name => inside? (Entries.get? table name) leaf.key

/-- A leaf in a section is looked for in the entry of the section. -/
theorem leaf?_of_inside {table : RawTable} {leaf : Leaf} {name : String} (inside : leaf.section? = some name) :
    table.leaf? leaf = inside? (Entries.get? table name) leaf.key := by
  unfold RawTable.leaf?
  rw [inside]

/-- A leaf in no section is looked for in the table itself. -/
theorem leaf?_of_outside {table : RawTable} {leaf : Leaf} (outside : leaf.section? = none) :
    table.leaf? leaf = Entries.get? table leaf.key := by
  unfold RawTable.leaf?
  rw [outside]

/-!
### Values of settings
-/

/-- A setting is read from a value, or it has its default if there is none. -/
def Takes {α : Type} (reads : Value → α → Prop) (fallback setting : α) : Option Value → Prop
  | some v => reads v setting
  | none => setting = fallback

/-- What settings have is read from what a source says of it, or is the default. -/
def Shows (s : Settings) (leaf : Leaf) : Option Value → Prop :=
  let defaults : Settings := {}
  match leaf with
  | .workers => Takes (fun v n => checkOptionalInteger [leaf.key] v = .ok n) defaults.workers s.workers
  | .sourceExtensions => Takes (fun v ts => v = .texts ts) defaults.sourceExtensions s.sourceExtensions
  | .ignoredDirectories =>
      Takes (fun v names => ∃ ts, v = .texts ts ∧ names = distinct ts) defaults.ignoredDirectories s.ignoredDirectories
  | .extensions => Takes (fun v ts => v = .texts ts) defaults.search.extensions s.search.extensions
  | .indexFiles => Takes (fun v ts => v = .texts ts) defaults.search.indexFiles s.search.indexFiles
  | .workspace => Takes (fun v w => v = w.elim .null .text) defaults.workspace s.workspace
  | .probe => Takes (fun v kind => v = .text kind.name) defaults.probe s.probe
  | .aliasTarget pattern =>
      Takes (fun v target => ∃ t, v = .text t ∧ target = some t) none (Entries.get? s.aliases pattern)

/-!
### Checks
-/

variable {location : List String} {v : Value}

theorem checkText_eq_ok {t : String} (checked : checkText location v = .ok t) : v = .text t := by
  unfold checkText at checked
  split at checked
  · cases checked
    rfl
  · cases checked
  · cases checked

/-- Where all pass a check, each passes it, in their order. -/
theorem checkAll_eq_ok {α β : Type} {check : α → Checked β} {as : List α} {bs : List β}
    (checked : checkAll check as = .ok bs) : List.Forall₂ (fun a b => check a = .ok b) as bs := by
  induction as generalizing bs with
  | nil =>
      cases checked
      exact .nil
  | cons a as ih =>
      rw [checkAll] at checked
      split at checked
      next b bs' first others =>
        cases checked
        exact .cons first (ih others)
      all_goals cases checked

theorem checkAll_indexed {items : List Value} {ts : List String}
    (checked : checkAll (fun (place, v) => checkText place v) (indexed location items) = .ok ts) :
    Value.list items = .texts ts := by
  have each := List.forall₂_map_left_iff.1 (checkAll_eq_ok checked)
  have same : List.Forall₂ (· = ·) (items.zipIdx.map Prod.fst) (ts.map Value.text) :=
    List.forall₂_map_left_iff.2 (List.forall₂_map_right_iff.2 (each.imp fun _ _ => checkText_eq_ok))
  rw [List.zipIdx_map_fst, List.forall₂_eq_eq_eq] at same
  rw [Value.texts, same]

theorem checkTexts_eq_ok {ts : List String} (checked : checkTexts location v = .ok ts) : v = .texts ts := by
  unfold checkTexts at checked
  split at checked
  · exact checkAll_indexed checked
  · cases checked

/-- Only lists of texts pass the check for a set; the set has each of them once. -/
theorem checkTextSet_eq_ok {names : List String} (checked : checkTextSet location v = .ok names) :
    ∃ ts, v = .texts ts ∧ names = distinct ts := by
  unfold checkTextSet at checked
  split at checked
  · obtain ⟨ts, listed, rfl⟩ := exists_of_map_eq_ok checked
    exact ⟨ts, checkAll_indexed listed, rfl⟩
  · cases checked

/-- Only texts and null pass the check for an optional text. -/
theorem checkOptionalText_eq_ok {t : Option String} (checked : checkOptionalText location v = .ok t) :
    v = t.elim .null .text := by
  unfold checkOptionalText at checked
  split at checked
  all_goals cases checked
  all_goals rfl

/-- Only the names of probes pass the check for a probe. -/
theorem checkProbe_eq_ok {kind : ProbeKind} (checked : checkProbe location v = .ok kind) : v = .text kind.name := by
  unfold checkProbe at checked
  split at checked
  · split at checked
    next found =>
      cases checked
      have named := List.find?_some found
      rw [beq_iff_eq] at named
      rw [named]
    · cases checked
  · cases checked

theorem checkAll_zipIdx (location : List String) (ts : List String) (n : Nat) :
    checkAll (fun (place, v) => checkText place v)
      (((ts.map Value.text).zipIdx n).map fun (v, i) => (location ++ [toString i], v)) = .ok ts := by
  induction ts generalizing n with
  | nil => rfl
  | cons t ts ih =>
      rw [List.map_cons, List.zipIdx_cons, List.map_cons, checkAll, ih]
      rfl

theorem checkTexts_texts (location ts : List String) : checkTexts location (.texts ts) = .ok ts :=
  checkAll_zipIdx location ts 0

/-- The name of a probe passes the check for a probe. -/
theorem checkProbe_name (location : List String) (kind : ProbeKind) : checkProbe location (.text kind.name) = .ok kind := by
  cases kind <;> rfl

theorem checkOptionalText_elim (location : List String) (o : Option String) :
    checkOptionalText location (o.elim .null .text) = .ok o := by
  cases o <;> rfl

/-- A map of texts has its keys as they stand. -/
theorem get?_of_checkTextMap {entries : Entries Value} {aliases : Entries String} {pattern : String}
    (checked : checkTextMap location (.table entries) = .ok aliases) :
    Entries.get? entries pattern = (Entries.get? aliases pattern).map .text := by
  have each := checkAll_eq_ok checked
  clear checked
  induction each with
  | nil => rfl
  | @cons e e' _ _ first _ ih =>
      obtain ⟨key, v⟩ := e
      obtain ⟨t, isText, rfl⟩ := exists_of_map_eq_ok first
      rw [Entries.get?, Entries.get?, checkText_eq_ok isText]
      split
      next => rfl
      next => exact ih

/-- A checked entry takes the value of the table, or the default if the table has none. -/
theorem takes_of_entryOr {α : Type} {table : RawTable} {key : String} {fallback setting : α}
    {check : List String → Value → Checked α} {reads : Value → α → Prop}
    (sound : ∀ v a, check (location ++ [key]) v = .ok a → reads v a)
    (checked : entryOr table location key fallback check = .ok setting) :
    Takes reads fallback setting (Entries.get? table key) := by
  unfold entryOr at checked
  split at checked
  next v found =>
    rw [found]
    exact sound v setting checked
  next absent =>
    cases checked
    rw [absent]
    rfl

/-- The entries of a checked section are those of the resolver. -/
theorem checkResolver_eq_ok {defaults s : Settings} {v : Value} (checked : checkResolver defaults location v = .ok s) :
    ∃ entries, v.entries? = some entries ∧
      entryOr entries location "extensions" defaults.search.extensions checkTexts = .ok s.search.extensions ∧
      entryOr entries location "index_files" defaults.search.indexFiles checkTexts = .ok s.search.indexFiles ∧
      entryOr entries location "workspace_dir" defaults.workspace checkOptionalText = .ok s.workspace ∧
      entryOr entries location "probe" defaults.probe checkProbe = .ok s.probe := by
  unfold checkResolver at checked
  split at checked
  next r =>
    cases checked
    exact ⟨r.entries, rfl, checkTexts_texts _ _, checkTexts_texts _ _, checkOptionalText_elim _ _, checkProbe_name _ _⟩
  next entries =>
    simp only [] at checked
    split at checked
    next first second third fourth =>
      cases checked
      exact ⟨entries, rfl, first, second, third, fourth⟩
    · cases checked
  · cases checked

/-- The entries of a section of a table; a section that is not there has none. -/
structure SectionOf (table : RawTable) (name : String) (inner : Entries Value) : Prop where
  found : ∀ v, Entries.get? table name = some v → v.entries? = some inner
  absent : Entries.get? table name = none → inner = []

theorem SectionOf.of_found {table : RawTable} {name : String} {inner : Entries Value} {v : Value}
    (there : Entries.get? table name = some v) (holds : v.entries? = some inner) : SectionOf table name inner where
  found v' there' := Option.some.inj (there'.symm.trans there) ▸ holds
  absent none := by cases there.symm.trans none

theorem SectionOf.of_absent {table : RawTable} {name : String} (absent : Entries.get? table name = none) :
    SectionOf table name [] where
  found v there := by cases there.symm.trans absent
  absent _ := rfl

/-- A leaf in a section is what the section has under its key. -/
theorem SectionOf.leaf?_eq {table : RawTable} {name : String} {inner : Entries Value}
    (isSection : SectionOf table name inner) {leaf : Leaf} (inside : leaf.section? = some name) :
    table.leaf? leaf = Entries.get? inner leaf.key := by
  rw [leaf?_of_inside inside, inside?]
  cases there : Entries.get? table name with
  | none =>
      rw [isSection.absent there]
      rfl
  | some v =>
      rw [Option.bind_some, isSection.found v there]
      rfl

/-- A checked table has passed the check of each entry. -/
structure Passes (table : RawTable) (s : Settings) (resolver : Entries Value) : Prop where
  known : unknownKeys table = []
  isSection : SectionOf table "resolver" resolver
  extensions : entryOr resolver ["resolver"] "extensions" ({} : Settings).search.extensions checkTexts =
    .ok s.search.extensions
  indexFiles : entryOr resolver ["resolver"] "index_files" ({} : Settings).search.indexFiles checkTexts =
    .ok s.search.indexFiles
  workspace : entryOr resolver ["resolver"] "workspace_dir" ({} : Settings).workspace checkOptionalText = .ok s.workspace
  probe : entryOr resolver ["resolver"] "probe" ({} : Settings).probe checkProbe = .ok s.probe
  aliases : entryOr table [] "path_aliases" ({} : Settings).aliases checkTextMap = .ok s.aliases
  sourceExtensions : entryOr table [] "source_extensions" ({} : Settings).sourceExtensions checkTexts =
    .ok s.sourceExtensions
  ignored : entryOr table [] "ignored_dirs" ({} : Settings).ignoredDirectories checkTextSet = .ok s.ignoredDirectories
  workers : entryOr table [] "scanner_num_workers" ({} : Settings).workers checkOptionalInteger = .ok s.workers

/-- A table that is accepted has passed every check of its settings. -/
theorem passes_of_validate {table : RawTable} {s : Settings} (valid : validate table = .ok s) :
    ∃ resolver, Passes table s resolver := by
  unfold validate at valid
  simp only [] at valid
  split at valid
  next known aliases checked extensions ignored workers =>
    cases valid
    unfold entryOr at checked
    split at checked
    next v found =>
      obtain ⟨entries, holds, first, second, third, fourth⟩ := checkResolver_eq_ok checked
      exact ⟨entries, known, .of_found found holds, first, second, third, fourth, aliases, extensions, ignored, workers⟩
    next absent =>
      cases checked
      exact ⟨[], known, .of_absent absent, rfl, rfl, rfl, rfl, aliases, extensions, ignored, workers⟩
  · cases valid

/-- The map of a checked table is a section of it. -/
theorem exists_sectionOf_aliases {table : RawTable} {aliases : Entries String}
    (checked : entryOr table [] "path_aliases" ({} : Settings).aliases checkTextMap = .ok aliases) :
    ∃ entries, SectionOf table "path_aliases" entries ∧
      (∀ v, Entries.get? table "path_aliases" = some v → v = .table entries) ∧
      ∀ pattern, Entries.get? entries pattern = (Entries.get? aliases pattern).map .text := by
  unfold entryOr at checked
  split at checked
  next v found =>
    cases v with
    | table entries =>
        refine ⟨entries, .of_found found rfl, fun v there => ?_, fun _ => get?_of_checkTextMap checked⟩
        exact Option.some.inj (there.symm.trans found)
    | _ => cases checked
  next absent =>
    cases checked
    exact ⟨[], .of_absent absent, (fun v there => by cases there.symm.trans absent), fun _ => rfl⟩

/-- Names of the settings that hold others. -/
def sectionNames : List String := ["resolver", "path_aliases"]

/-- What a setting that holds others can be given as: a table, or an object for the resolver section. -/
inductive SectionValue : String → Value → Prop where
  | table (name : String) (inner : Entries Value) : SectionValue name (.table inner)
  | object (r : ResolverSection) : SectionValue "resolver" (.checked r)

/-- What a table has for the settings that hold others can be read as entries. -/
def Sectioned (table : RawTable) : Prop :=
  ∀ name ∈ sectionNames, ∀ v, Entries.get? table name = some v → SectionValue name v

/-- A leaf lies in one of the known sections or in none. -/
theorem Leaf.section?_mem {leaf : Leaf} {name : String} (inside : leaf.section? = some name) : name ∈ sectionNames := by
  cases leaf
  all_goals cases inside
  all_goals decide

theorem Leaf.section?_known {leaf : Leaf} {name : String} (inside : leaf.section? = some name) : name ∈ fieldNames := by
  have known : ∀ name ∈ sectionNames, name ∈ fieldNames := by decide
  exact known name (Leaf.section?_mem inside)

/-- The leaves in the section of the resolver are settings of the resolver. -/
theorem Leaf.key_mem_resolver {leaf : Leaf} (inside : leaf.section? = some "resolver") :
    leaf.key ∈ resolverFieldNames := by
  cases leaf with
  | extensions | indexFiles | workspace | probe => decide
  | workers | sourceExtensions | ignoredDirectories => cases inside
  | aliasTarget pattern =>
      have names : "path_aliases" = "resolver" := Option.some.inj inside
      exact absurd names (by decide)

theorem Leaf.key_mem {leaf : Leaf} (outside : leaf.section? = none) : leaf.key ∈ fieldNames := by
  cases leaf with
  | workers | sourceExtensions | ignoredDirectories => decide
  | _ => cases outside

/-- A table that is accepted has sections in the places of sections. -/
theorem sectioned_of_validate {table : RawTable} {s : Settings} (valid : validate table = .ok s) : Sectioned table := by
  obtain ⟨resolver, passes⟩ := passes_of_validate valid
  obtain ⟨entries, -, isMap, -⟩ := exists_sectionOf_aliases passes.aliases
  intro name mem v there
  rcases List.mem_pair.1 mem with rfl | rfl
  · have holds := passes.isSection.found v there
    cases v with
    | table inner => exact .table "resolver" inner
    | checked r => exact .object r
    | _ => cases holds
  · rw [isMap v there]
    exact .table "path_aliases" entries

/-- What checked settings show of the table that they come from. -/
theorem shows_of_validate {table : RawTable} {s : Settings} (valid : validate table = .ok s) (leaf : Leaf) :
    Shows s leaf (table.leaf? leaf) := by
  obtain ⟨resolver, passes⟩ := passes_of_validate valid
  cases leaf with
  | workers => exact takes_of_entryOr (fun _ _ => id) passes.workers
  | sourceExtensions => exact takes_of_entryOr (fun _ _ => checkTexts_eq_ok) passes.sourceExtensions
  | ignoredDirectories => exact takes_of_entryOr (fun _ _ => checkTextSet_eq_ok) passes.ignored
  | extensions =>
      rw [passes.isSection.leaf?_eq rfl]
      exact takes_of_entryOr (fun _ _ => checkTexts_eq_ok) passes.extensions
  | indexFiles =>
      rw [passes.isSection.leaf?_eq rfl]
      exact takes_of_entryOr (fun _ _ => checkTexts_eq_ok) passes.indexFiles
  | workspace =>
      rw [passes.isSection.leaf?_eq rfl]
      exact takes_of_entryOr (fun _ _ => checkOptionalText_eq_ok) passes.workspace
  | probe =>
      rw [passes.isSection.leaf?_eq rfl]
      exact takes_of_entryOr (fun _ _ => checkProbe_eq_ok) passes.probe
  | aliasTarget pattern =>
      obtain ⟨entries, isSection, -, same⟩ := exists_sectionOf_aliases passes.aliases
      rw [isSection.leaf?_eq rfl, Leaf.key, same]
      cases there : Entries.get? s.aliases pattern with
      | none => exact there
      | some t => exact ⟨t, rfl, there⟩

/-- No setting is read from a table. -/
theorem Shows.notTable {s : Settings} {leaf : Leaf} {entries : List (String × Value)}
    (shown : Shows s leaf (some (.table entries))) : False := by
  cases leaf with
  | workers => cases shown
  | sourceExtensions => cases shown
  | ignoredDirectories =>
      obtain ⟨ts, same, -⟩ := shown
      cases same
  | extensions => cases shown
  | indexFiles => cases shown
  | workspace =>
      have same : Value.table entries = s.workspace.elim .null .text := shown
      cases given : s.workspace with
      | none =>
          rw [given] at same
          cases same
      | some w =>
          rw [given] at same
          cases same
  | probe => cases shown
  | aliasTarget pattern =>
      obtain ⟨t, same, -⟩ := shown
      cases same

end Outline.Settings
