/-
Module: Outline.Settings.Environment
Layer: Settings
Purpose: Settings given by variables. A variable is named for its setting, in any case; a doubled underscore leads
  into a section or a map. Settings that are not single values are written in JSON, and a variable for one of their
  entries counts more than the JSON.
Main exports: Variables, lowerNames, fieldFromVariables, fromVariables, VariableError, unknownVariables
-/
import Outline.Json.Parser
import Outline.Settings.Validate
import Outline.Text.Lower

namespace Outline.Settings

/-- Variables by their lower-case names; a variable of a file may lack a value. -/
abbrev Variables := Entries (Option String)

/-- Beginning of the names of all variables. -/
def variableStem : String := "declscan_"

/-- Name of the variable of a setting. -/
def variableName (field : String) : String := variableStem ++ field

/-- Variables with their names in lower case; the last of those that fall together wins. -/
def lowerNames (given : Variables) : Variables :=
  Entries.ofPairs (given.map fun (k, v) => (Text.lower k, v))

/-- A variable whose value cannot be read. -/
structure VariableError where
  field : String
  /-- Name of the source that holds it. -/
  origin : String
deriving DecidableEq, Repr, Inhabited

/-- Wording of a variable error. -/
def VariableError.message (e : VariableError) : String :=
  "error parsing value for field \"" ++ e.field ++ "\" from source \"" ++ e.origin ++ "\""

/-- Pieces of a name between doubled underscores. -/
def splitDoubled : List Char → List (List Char)
  | [] => [[]]
  | '_' :: '_' :: rest => [] :: splitDoubled rest
  | c :: rest => Text.consLine c (splitDoubled rest)

/-- Is the setting written in JSON? -/
def isComplex (field : String) : Bool := field != "scanner_num_workers"

/-- A JSON text as a value. -/
def decodeJson? (s : String) : Option Value := (Json.parse s).toOption.map Value.ofJson

/-- Paths to the lists of the resolver section; the stem of all variables may be repeated in front of their names,
    though such an entry sets nothing. -/
def resolverLists : List (List String) :=
  ["extensions", "index_files"].flatMap fun name => [[name], [variableName name]]

/-- The value of a variable for an entry of a setting, given the keys that lead to it; none if it cannot be read.
    The entries of a map are JSON if they can be read so, the lists of the resolver section must be JSON, and all
    else is taken as it is. An empty value is taken as it is too. -/
def entryValue? (field : String) (path : List String) (value : Option String) : Option Value :=
  match value with
  | none => some .null
  | some s =>
    if s = "" then some (.text s)
    else if field = "path_aliases" then some ((decodeJson? s).getD (.text s))
    else if field = "resolver" && resolverLists.contains path then decodeJson? s
    else some (.text s)

/-- Write a value at a path, making tables on the way. A path through something else is passed over. -/
def setAt (v : Value) : List String → RawTable → RawTable
  | [], table => table
  | [last], table => Entries.put table last v
  | key :: rest, table =>
    match Entries.get? table key with
    | none => Entries.put table key (.table (setAt v rest []))
    | some (.table inner) => Entries.put table key (.table (setAt v rest inner))
    | some _ => table

/-- The keys of an entry that a variable is about, if it is about one of the setting. -/
def entryPath? (field name : String) : Option (List String) :=
  let stem := variableName field ++ "__"
  if Text.startsWith name stem then
    some ((splitDoubled (name.toList.drop stem.toList.length)).map String.ofList)
  else none

/-- The entries of a setting given by variables of their own. -/
def entriesFromVariables (field : String) (given : Variables) : Option RawTable :=
  given.foldl (fun table (name, value) =>
    match table, entryPath? field name with
    | some table, some path => (entryValue? field path value).map fun v => setAt v path table
    | table, _ => table) (some [])

/-- Keys of the resolver section are taken in any case. -/
def lowerResolverKeys (table : RawTable) : RawTable :=
  Entries.ofPairs <| table.map fun (k, v) =>
    (if resolverFieldNames.contains (Text.lower k) then Text.lower k else k, v)

/-- What a setting is by its variables: nothing, a value, or unreadable (the outer none). -/
def complexFromVariables (field : String) (given : Variables) : Option (Option Value) :=
  match (Entries.get? given (variableName field)).join with
  | none => do
    let entries ← entriesFromVariables field given
    return if entries.isEmpty then none else some (.table entries)
  | some s => do
    match ← decodeJson? s with
    | .table table => return some (.table (Value.mergeTables table (← entriesFromVariables field given)))
    | .null => return none
    | v => return some v

/-- The value of a setting by its variables. -/
def fieldFromVariables (field : String) (given : Variables) : Option (Option Value) :=
  if isComplex field then
    (complexFromVariables field given).map fun v =>
      match field, v with
      | "resolver", some (.table table) => some (.table (lowerResolverKeys table))
      | _, v => v
  else some ((Entries.get? given (variableName field)).join.map .text)

/-- Everything that variables set, or the first setting that cannot be read. -/
def fromVariables (origin : String) (given : Variables) : Except VariableError RawTable :=
  go fieldNames
where
  /-- What variables set of some settings. -/
  go : List String → Except VariableError RawTable
    | [] => .ok []
    | field :: rest =>
      match fieldFromVariables field given with
      | none => .error ⟨field, origin⟩
      | some none => go rest
      | some (some v) => do return (field, v) :: (← go rest)

/-- Is the name that of a variable for a setting, or for something inside it? -/
def isUsedName (name : String) : Bool :=
  fieldNames.any fun field =>
    name == variableName field || (isComplex field && Text.startsWith name (variableName field))

/-- Variables of a file that set nothing: they are unknown keys. Names of settings without the stem, and variables
    without a value, are passed over. -/
def unknownVariables (given : Variables) : RawTable :=
  given.filterMap fun (name, value) =>
    match value with
    | some s => if s = "" || fieldNames.contains name || isUsedName name then none else some (name, .text s)
    | none => none

end Outline.Settings
