/-
Module: Outline.Proofs.CommandLine.Shared
Layer: Proofs
Purpose: Options that both commands have: entries of the alias table, the probe and the configuration file. In any number
  and order and in either spelling, the words that give them are sorted into the same options by both commands, and what
  comes behind them is sorted as if they were not there.
Main exports: SharedOption, SharedOption.words, sortWords_shared, IsArgument, scanWords, extractWords,
  sortWords_scanWords, sortWords_extractWords, IsArgument.append
-/
import Mathlib.Data.List.TakeWhile
import Outline.Proofs.CommandLine.Options

namespace Outline.CommandLine

/-- An option that both commands have, with its value, and whether the two are written in one word. -/
structure SharedOption where
  choice : Choice
  value : String
  joined : Bool := false
  shared : choice = .aliases ∨ choice = .probe ∨ choice = .config

/-- First spelling of an option. -/
def Choice.spelling (o : Choice) : String := o.spellings.headD ""

namespace SharedOption

variable (o : SharedOption)

/-- The words that give the option. -/
def words : List String :=
  if o.joined then [o.choice.spelling ++ "=" ++ o.value] else [o.choice.spelling, o.value]

/-- The option as it is sorted. -/
def given : Choice × String := (o.choice, o.value)

end SharedOption

section Words

variable {known : List Choice} {word value : String} {o : SharedOption}

/-- What stands in front of the first equals sign of a text, and what stands behind it. -/
theorem splits_at_equals {front : String} (plain : '=' ∉ front.toList) (value : String) :
    (front ++ "=" ++ value).toList.takeWhile (· ≠ '=') = front.toList ∧
      ((front ++ "=" ++ value).toList.dropWhile (· ≠ '=')).drop 1 = value.toList := by
  have text : (front ++ "=" ++ value).toList = front.toList ++ '=' :: value.toList := by simp
  have passes : ∀ c ∈ front.toList, decide (c ≠ '=') = true := by
    intro c mem
    rw [decide_eq_true_eq]
    rintro rfl
    exact plain mem
  rw [text, List.takeWhile_append_of_pos passes, List.dropWhile_append_of_pos passes]
  simp

/-- An option that takes a value is read with that value from one word. -/
theorem readOption_joined {spelling : String} {choice : Choice} (plain : '=' ∉ spelling.toList)
    (long : isLong spelling = true) (found : Choice.find? known spelling = some choice)
    (takes : choice.takesValue = true) (value : String) :
    readOption known (spelling ++ "=" ++ value) = .ok (.complete [(choice, value)]) := by
  obtain ⟨front, behind⟩ := splits_at_equals plain value
  have equals : (spelling ++ "=" ++ value).toList.contains '=' = true := by simp
  simp only [readOption, front, behind, equals, String.ofList_toList, if_true, long, found, takes]

/-- And it takes the next word if there is no equals sign. -/
theorem readOption_separate {spelling : String} {choice : Choice} (plain : '=' ∉ spelling.toList)
    (long : isLong spelling = true) (found : Choice.find? known spelling = some choice)
    (takes : choice.takesValue = true) : readOption known spelling = .ok (.open choice spelling) := by
  have passes : ∀ c ∈ spelling.toList, decide (c ≠ '=') = true := by
    intro c mem
    rw [decide_eq_true_eq]
    rintro rfl
    exact plain mem
  have whole : spelling.toList.takeWhile (· ≠ '=') = spelling.toList := List.takeWhile_eq_self_iff.2 passes
  have none : spelling.toList.contains '=' = false := by simpa using plain
  simp only [readOption, whole, none, String.ofList_toList, Bool.false_eq_true, if_false, if_true, long, found, takes]

/-- Both commands know the option under its spelling. -/
theorem find?_spelling (command : Command) {o : Choice} (shared : o = .aliases ∨ o = .probe ∨ o = .config) :
    Choice.find? command.options o.spelling = some o ∧ '=' ∉ o.spelling.toList ∧ isLong o.spelling = true ∧
      Text.startsWith o.spelling "--" = true ∧ o.spelling ≠ "--" ∧ o.takesValue = true := by
  rcases shared with rfl | rfl | rfl <;> cases command <;> decide +kernel

/-- A word that starts with two dashes is an option, whatever stands behind. -/
theorem isOptionWord_of_startsWith {front : String} (dashes : Text.startsWith front "--" = true) (behind : String) :
    isOptionWord (front ++ behind) = true := by
  obtain ⟨rest, text⟩ := List.isPrefixOf_iff_prefix.1 dashes
  have letters : (front ++ behind).toList = '-' :: '-' :: (rest ++ behind.toList) := by
    rw [String.toList_append, ← text]
    rfl
  have more : (front ++ behind) ≠ "-" := by
    intro same
    rw [same] at letters
    cases letters
  rw [isOptionWord, Text.startsWith, letters]
  simp [more]

/-- The words of one shared option sort into the option, for either command. -/
theorem sortWords_sharedOne (command : Command) (o : SharedOption) (rest : List String) :
    sortWords command.options (o.words ++ rest) = (sortWords command.options rest).map (Sorted.addOptions [o.given]) := by
  obtain ⟨found, plain, long, dashes, notEnd, takes⟩ := find?_spelling command o.shared
  unfold SharedOption.words
  split
  next =>
    have isOption : isOptionWord (o.choice.spelling ++ "=" ++ o.value) = true := by
      rw [String.append_assoc]
      exact isOptionWord_of_startsWith dashes _
    have notDashes : o.choice.spelling ++ "=" ++ o.value ≠ "--" := by
      intro same
      have equals : '=' ∈ (o.choice.spelling ++ "=" ++ o.value).toList := by simp
      rw [same] at equals
      exact absurd equals (by decide)
    rw [List.singleton_append, sortWords_cons, if_neg notDashes, if_pos isOption,
      readOption_joined plain long found takes]
    rfl
  next =>
    have isOption : isOptionWord o.choice.spelling = true := by
      have whole := isOptionWord_of_startsWith dashes ""
      rwa [String.append_empty] at whole
    rw [List.cons_append, List.singleton_append, sortWords_cons, if_neg notEnd, if_pos isOption,
      readOption_separate plain long found takes]
    rfl

/-- The words of shared options sort into the options, for either command. -/
theorem sortWords_shared (command : Command) (options : List SharedOption) (rest : List String) :
    sortWords command.options (options.flatMap SharedOption.words ++ rest) =
      (sortWords command.options rest).map (Sorted.addOptions (options.map SharedOption.given)) := by
  induction options with
  | nil => cases sorted : sortWords command.options rest <;> simp [sorted, Except.map, Sorted.addOptions]
  | cons o options ih =>
      rw [List.flatMap_cons, List.append_assoc, sortWords_sharedOne, ih]
      cases sortWords command.options rest <;> rfl

/-- A word that is sorted as an argument: no option, and not the end of the options. -/
def IsArgument (word : String) : Prop := isOptionWord word = false ∧ word ≠ "--"

/-- A word that is an argument sorts into the arguments. -/
theorem sortWords_argument (isArgument : IsArgument word) (rest : List String) :
    sortWords known (word :: rest) = (sortWords known rest).map (Sorted.addArgument word) := by
  rw [sortWords_cons, if_neg isArgument.2, if_neg (by simp [isArgument.1])]

/-- A last word that ends up as an argument is one in itself. -/
theorem isArgument_of_sortWords {s : Sorted} {argument : String} (isSorted : sortWords known [word] = .ok s)
    (arguments : s.arguments = [argument]) : IsArgument word ∧ argument = word ∧ s.options = [] := by
  rw [sortWords_cons] at isSorted
  split at isSorted
  next =>
    cases isSorted
    cases arguments
  next notEnd =>
    split at isSorted
    next =>
      split at isSorted
      next => cases isSorted
      next given _ =>
        cases isSorted
        cases arguments
      next => cases isSorted
    next noOption =>
      cases isSorted
      cases arguments
      exact ⟨⟨by simpa using noOption, notEnd⟩, rfl, rfl⟩

/-- The words of a scan of a directory with some options in front of it. -/
def scanWords (options : List SharedOption) (root : String) : List String :=
  options.flatMap SharedOption.words ++ [root]

/-- The words by which one file is asked for, with a workspace and the same options. -/
def extractWords (options : List SharedOption) (target workspace : String) : List String :=
  target :: "--workspace" :: workspace :: options.flatMap SharedOption.words

/-- The words of a scan sort into the shared options and the root, if the root is all the arguments. -/
theorem sortWords_scanWords {options : List SharedOption} {root : String} {s : Sorted} {argument : String}
    (isSorted : sortWords Command.scan.options (scanWords options root) = .ok s) (arguments : s.arguments = [argument]) :
    IsArgument root ∧ argument = root ∧ s = { options := options.map SharedOption.given, arguments := [root] } := by
  rw [scanWords, sortWords_shared] at isSorted
  obtain ⟨last, sortedLast, rfl⟩ := exists_of_map_eq_ok isSorted
  obtain ⟨isArgument, rfl, none⟩ := isArgument_of_sortWords sortedLast arguments
  refine ⟨isArgument, rfl, ?_⟩
  rw [Sorted.addOptions, none, List.append_nil]
  exact congrArg (Sorted.mk _) arguments

/-- The words of an extraction sort into the shared options, the workspace and the target. -/
theorem sortWords_extractWords {target : String} (isArgument : IsArgument target) (options : List SharedOption)
    (workspace : String) : sortWords Command.extract.options (extractWords options target workspace) =
      .ok { options := (.workspace, workspace) :: options.map SharedOption.given, arguments := [target] } := by
  have isOption : isOptionWord "--workspace" = true := by decide +kernel
  have read : readOption Command.extract.options "--workspace" = .ok (.open .workspace "--workspace") := by
    decide +kernel
  have shared := sortWords_shared .extract options []
  rw [List.append_nil] at shared
  rw [extractWords, sortWords_argument isArgument, sortWords_cons, if_neg (by decide), if_pos isOption, read]
  dsimp only
  rw [shared, sortWords_nil]
  simp [Except.map, Sorted.addOptions, Sorted.addArgument]

/-- The options of both commands are no others. -/
theorem choice_of_mem_shared {options : List SharedOption} {p : Choice × String}
    (mem : p ∈ options.map SharedOption.given) : p.1 ≠ .workspace ∧ p.1 ≠ .help := by
  obtain ⟨o, _, rfl⟩ := List.mem_map.1 mem
  change o.choice ≠ _ ∧ o.choice ≠ _
  rcases o.shared with same | same | same <;> rw [same] <;> decide

/-- Shared options name no workspace, so the one at the end counts. -/
theorem workspace_shared (options : List SharedOption) (root target : String) : Sorted.value?
    { options := (.workspace, root) :: options.map SharedOption.given, arguments := [target] } .workspace = some root := by
  have others : (options.map SharedOption.given).filterMap
      (fun p => if p.1 = .workspace then some p.2 else none) = [] := by
    rw [List.filterMap_eq_nil_iff]
    exact fun p mem => if_neg (choice_of_mem_shared mem).1
  change (root :: (options.map SharedOption.given).filterMap fun p => if p.1 = .workspace then some p.2 else none).getLast? =
    some root
  rw [others]
  rfl

theorem help_notMem_shared (options : List SharedOption) (root target : String) :
    .help ∉ Sorted.given { options := (.workspace, root) :: options.map SharedOption.given, arguments := [target] } := by
  intro help
  obtain ⟨p, mem, isHelp⟩ := List.mem_map.1 (mem_distinct.1 help)
  rcases List.mem_cons.1 mem with rfl | mem
  · cases isHelp
  · exact (choice_of_mem_shared mem).2 isHelp

/-- Nothing put behind a word makes it an option. -/
theorem IsArgument.append {front : String} (isArgument : IsArgument front) (written : front ≠ "") (notDash : front ≠ "-")
    (behind : String) : IsArgument (front ++ behind) := by
  have noDash : front.toList.head? ≠ some '-' := by
    intro first
    obtain ⟨rest, letters⟩ := List.head?_eq_some_iff.1 first
    have isOption := isArgument.1
    rw [isOptionWord, Text.startsWith, letters] at isOption
    simp [notDash] at isOption
  obtain ⟨c, rest, letters⟩ := List.exists_cons_of_ne_nil (mt String.toList_eq_nil_iff.1 written)
  rw [letters, List.head?_cons] at noDash
  have other : c ≠ '-' := fun same => noDash (same ▸ rfl)
  have whole : (front ++ behind).toList = c :: (rest ++ behind.toList) := by rw [String.toList_append, letters]; rfl
  constructor
  · rw [isOptionWord, Text.startsWith, whole]
    simp [other.symm]
  · intro same
    rw [same] at whole
    exact other (List.cons.inj whole).1.symm

end Words

end Outline.CommandLine
