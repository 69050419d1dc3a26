/-
Module: Outline.Settings.Load
Layer: Settings
Purpose: Settings from all their sources. What is given directly counts most, then the environment, then a file of
  variables, then the files of settings; what no source gives has its default. Keys are matched with settings without
  regard to the case of their letters.
Main exports: ConfigFormat, ConfigFile, Sources, Sources.text?, LoadError, settingKeys, Library, Library.load, loadSettings
-/
import Outline.Settings.DotEnv
import Outline.Settings.Environment
import Outline.Settings.Toml
import Outline.Text.Lower
import Outline.Text.Utf8

namespace Outline.Settings

/-- Format of a file with settings. -/
inductive ConfigFormat where
  | toml
  | json
  | dotEnv
deriving DecidableEq, Repr, Inhabited

/-- A file with settings; its content, if it exists. -/
structure ConfigFile where
  format : ConfigFormat
  content : Option ByteArray

/-- Everything that settings can come from. -/
structure Sources where
  /-- Given directly. -/
  given : RawTable := []
  environment : Entries String := []
  /-- The file that is named first. -/
  file : Option ConfigFile := none
  /-- Other files; of several of one format the first counts. -/
  furtherFiles : List ConfigFile := []

/-- Why no settings could be loaded. -/
inductive LoadError where
  /-- The file is not UTF-8. -/
  | undecodable
  | malformedToml
  | malformedJson
  /-- The file holds an integer of more digits than are read. -/
  | oversizedNumber
  /-- The JSON file holds neither an object nor a list of entries. -/
  | notATable
  /-- An item of the JSON file that stands for an entry has not two parts. -/
  | notAnEntry
  | variable (e : VariableError)
  | invalid (issues : List Issue)
deriving DecidableEq, Repr, Inhabited

/-- Text of a file; a file that is missing or empty has none. -/
def ConfigFile.text? (f : ConfigFile) : Except LoadError (Option String) :=
  match f.content with
  | none => .ok none
  | some bytes =>
    if bytes.isEmpty then .ok none
    else match String.fromUTF8? bytes with
      | some s => .ok (some s)
      | none => .error .undecodable

/-- Text of the file of a format, if there is one. -/
def Sources.text? (sources : Sources) (format : ConfigFormat) : Except LoadError (Option String) :=
  match (sources.file.toList ++ sources.furtherFiles).find? (·.format = format) with
  | some f => f.text?
  | none => .ok none

/-- The entry that an item of a list stands for: its two parts are a key and a value. The keys of a table and the
    characters of a text count as its parts. -/
def entryOfItem (item : Value) : Except LoadError (String × Value) :=
  match item with
  | .list [.text key, value] => .ok (key, value)
  | .list [_, _] => .error .notATable
  | .list _ => .error .notAnEntry
  | .table [(key, _), (value, _)] => .ok (key, .text value)
  | .table _ => .error .notAnEntry
  | .text s =>
    match s.toList with
    | [key, value] => .ok (key.toString, .text value.toString)
    | _ => .error .notAnEntry
  | .brokenText => .error .notAnEntry
  | _ => .error .notATable

/-- The table of a JSON file. A list of entries is a table too, and so is an empty text. -/
def tableOfValue : Value → Except LoadError RawTable
  | .table table => .ok table
  | .list items => (items.mapM entryOfItem).map Entries.ofPairs
  | .text s => if s = "" then .ok [] else .error .notAnEntry
  | .brokenText => .error .notAnEntry
  | _ => .error .notATable

/-- The failure to load settings that a fault of their file is, given what a malformed file is. -/
def faultOfFile (malformed : LoadError) : DocumentFault → LoadError
  | .malformed => malformed
  | .oversized => .oversizedNumber

/-- The table of a TOML file. -/
def tableOfToml (text : String) : Except LoadError RawTable := (parseToml text).mapError (faultOfFile .malformedToml)

/-- The table of a JSON file. -/
def tableOfJson (text : String) : Except LoadError RawTable := do
  tableOfValue (.ofJson (← (Json.parse text).mapError (faultOfFile .malformedJson)))

/-- The table of a file of settings, given how its text is read; without a text it is empty. -/
def tableOfFile (read : String → Except LoadError RawTable) : Option String → Except LoadError RawTable
  | some text => read text
  | none => .ok []

/-- The setting that a key names; the case of its letters does not matter. -/
def fieldOfKey? (key : String) : Option String :=
  if fieldNames.contains (Text.lower key) then some (Text.lower key) else none

/-- Keys that name settings in the spelling of their settings. The first of several keys for one setting counts and
    the others are dropped; keys that name nothing stay. `seen` holds the settings already named. -/
def settingKeys (seen : List String) : RawTable → RawTable
  | [] => []
  | (key, v) :: rest =>
    match fieldOfKey? key with
    | some field =>
      if seen.contains field then settingKeys seen rest else (field, v) :: settingKeys (field :: seen) rest
    | none => (key, v) :: settingKeys seen rest

/-!
### Loading
-/

/-- What settings are put together with: a library reads variables, joins the tables of the sources and checks the
    result. -/
structure Library where
  /-- The variables that the text of a file sets in an environment. -/
  parse : Entries String → String → Variables
  /-- The table that the variables of the environment are read as. -/
  environment : Variables → Except VariableError RawTable
  /-- The table that the variables of a file are read as. -/
  dotEnv : Variables → Except VariableError RawTable
  /-- A table with the keys that name settings in the spelling of these. -/
  spelled : RawTable → RawTable
  /-- What two tables say together; the second counts more. -/
  merge : RawTable → RawTable → RawTable
  validate : RawTable → Checked Settings

namespace Sources

/-- The variables of the environment. -/
def environmentVariables (sources : Sources) : Variables := sources.environment.map fun (k, v) => (k, some v)

/-- The variables of a file of variables, given how its text is read. -/
def fileVariables (sources : Sources) (parse : Entries String → String → Variables) : Option String → Variables
  | some text => parse sources.environment text
  | none => []

end Sources

namespace Library

variable (library : Library)

/-- What the sources say together, before it is checked. -/
def mergedTable (sources : Sources) : Except LoadError RawTable := do
  let fileVariables := sources.fileVariables library.parse (← sources.text? .dotEnv)
  let fromToml ← tableOfFile tableOfToml (← sources.text? .toml)
  let fromJson ← tableOfFile tableOfJson (← sources.text? .json)
  let fromEnvironment ← (library.environment sources.environmentVariables).mapError .variable
  let fromDotEnv ← (library.dotEnv fileVariables).mapError .variable
  return library.merge (library.spelled fromJson) <|
    library.merge (library.spelled fromToml) <|
    library.merge fromDotEnv <|
    library.merge fromEnvironment (library.spelled sources.given)

/-- Load settings from their sources. -/
def load (sources : Sources) : Except LoadError Settings := do
  (library.validate (← library.mergedTable sources)).mapError .invalid

/-- The library in use. Names of variables have any case. -/
def standard : Library where
  parse := parseDotEnv
  environment given := fromVariables "EnvSettingsSource" (lowerNames given)
  dotEnv given := do
    return (← fromVariables "DotEnvSettingsSource" (lowerNames given)) ++ unknownVariables (lowerNames given)
  spelled := settingKeys []
  merge := Value.mergeTables
  validate := Settings.validate

end Library

/-- Load settings from their sources, with the library in use. -/
def loadSettings (sources : Sources) : Except LoadError Settings := Library.standard.load sources

end Outline.Settings
