/-
Module: Outline.CommandLine.Words
Layer: CommandLine
Purpose: The words of a command line sorted into options and arguments, from left to right. A word that starts with
  a dash is an option unless it is only a dash; an option that takes a value has it behind an equals sign or in
  the next word, whatever that is; two dashes end the options.
Main exports: Sorted, isOptionWord, readOption, sortWords, readFront
-/
import Outline.CommandLine.Usage

namespace Outline.CommandLine

/-- Words sorted into options, each with its value, and arguments. -/
structure Sorted where
  /-- Options in the order given. One that takes no value is given by its spelling. -/
  options : List (Choice × String) := []
  arguments : List String := []
deriving DecidableEq, Repr, Inhabited

namespace Sorted

/-- Options in front of what is sorted already. -/
def addOptions (given : List (Choice × String)) (s : Sorted) : Sorted := { s with options := given ++ s.options }

/-- An argument in front of what is sorted already. -/
def addArgument (word : String) (s : Sorted) : Sorted := { s with arguments := word :: s.arguments }

/-- All values given to an option. -/
def values (s : Sorted) (o : Choice) : List String :=
  s.options.filterMap fun (other, value) => if other = o then some value else none

/-- The value that counts when an option is repeated: the last. -/
def value? (s : Sorted) (o : Choice) : Option String := (s.values o).getLast?

/-- The options given, each once, in the order of their first occurrence. -/
def given (s : Sorted) : List Choice := distinct (s.options.map (·.1))

end Sorted

/-- Does a word give options? -/
def isOptionWord (word : String) : Bool := Text.startsWith word "-" && word != "-"

/-- What an option word says. -/
inductive OptionWord where
  | complete (given : List (Choice × String))
  /-- The value of the option is the next word. -/
  | open (option : Choice) (spelling : String)
deriving DecidableEq, Repr, Inhabited

/-- Options of single letters behind one dash. None of them takes a value. -/
def readLetters (known : List Choice) : List Char → Except UsageError (List (Choice × String))
  | [] => .ok []
  | c :: rest =>
    let spelling := "-" ++ c.toString
    match Choice.find? known spelling with
    | some o => do return (o, spelling) :: (← readLetters known rest)
    | none => .error (.unknownOption spelling)

/-- Is the spelling that of an option of more than one letter? -/
def isLong (spelling : String) : Bool := 2 < spelling.length

/-- Read an option word: one option with or without a value, or a row of single letters. -/
def readOption (known : List Choice) (word : String) : Except UsageError OptionWord :=
  let spelling := String.ofList (word.toList.takeWhile (· ≠ '='))
  let value? := if word.toList.contains '=' then
      some (String.ofList ((word.toList.dropWhile (· ≠ '=')).drop 1))
    else none
  match if isLong spelling then Choice.find? known spelling else none with
  | some o =>
    match o.takesValue, value? with
    | true, some value => .ok (.complete [(o, value)])
    | true, none => .ok (.open o spelling)
    | false, some _ => .error (.unwantedValue spelling)
    | false, none => .ok (.complete [(o, spelling)])
  | none =>
    if Text.startsWith word "--" then .error (.unknownOption spelling)
    else (readLetters known (word.toList.drop 1)).map .complete

/-- Sort the words behind a command. -/
def sortWords (known : List Choice) : List String → Except UsageError Sorted
  | [] => .ok {}
  | word :: rest =>
    if word = "--" then .ok { arguments := rest }
    else if isOptionWord word then
      match readOption known word with
      | .error e => .error e
      | .ok (.complete given) => (sortWords known rest).map (Sorted.addOptions given)
      | .ok (.open o spelling) =>
        match rest with
        | [] => .error (.missingValue spelling)
        | value :: rest => (sortWords known rest).map (Sorted.addOptions [(o, value)])
    else (sortWords known rest).map (Sorted.addArgument word)

/-- The words in front of the command: is help asked for, and which words come from the command on? -/
def readFront : List String → Except UsageError (Bool × List String)
  | [] => .ok (false, [])
  | word :: rest =>
    if word = "--" then .ok (false, rest)
    else if isOptionWord word then do
      let _ ← readOption [.help] word
      let (_, words) ← readFront rest
      return (true, words)
    else .ok (false, word :: rest)

end Outline.CommandLine
