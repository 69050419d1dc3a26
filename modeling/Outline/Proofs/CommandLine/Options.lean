/-
Module: Outline.Proofs.CommandLine.Options
Layer: Proofs
Purpose: What the checked values of a command line are. They depend on the order of the words in no other way than that
  of a repeated option the last value counts, and they are those of the options that a command has.
Main exports: sortWords_cases, sortWords_known, Sorted.mem_given, Choice.accepts, foldlM_applyOption_ok_iff, foldl_set,
  Sorted.checked, checkArguments_ok_iff
-/
import Outline.CommandLine.Arguments
import Outline.Proofs.Dependency.Names
import Outline.Proofs.Module.Prescan

namespace Outline.CommandLine

/-!
### Sorted words
-/

theorem exists_of_map_eq_ok {α β ε : Type} {x : Except ε α} {f : α → β} {b : β} (done : x.map f = .ok b) :
    ∃ a, x = .ok a ∧ f a = b := by
  cases x with
  | error e => cases done
  | ok a => exact ⟨a, rfl, Except.ok.inj done⟩

theorem eq_ok_of_mapError {α ε δ : Type} {x : Except ε α} {f : ε → δ} {v : α} (done : x.mapError f = .ok v) : x = .ok v := by
  cases x with
  | error e => cases done
  | ok v' => exact congrArg _ (Except.ok.inj done)

section Words

variable {known : List Choice} {spelling word : String} {o : Choice}

theorem known_of_find? (found : Choice.find? known spelling = some o) : o ∈ known := List.mem_of_find?_eq_some found

theorem readLetters_known {cs : List Char} {given : List (Choice × String)} (read : readLetters known cs = .ok given) :
    ∀ p ∈ given, p.1 ∈ known := by
  induction cs generalizing given with
  | nil =>
      cases read
      exact fun p none => absurd none List.not_mem_nil
  | cons c rest ih =>
      simp only [readLetters] at read
      split at read
      next o found =>
        obtain ⟨others, further, last⟩ := exists_of_bind_eq_ok read
        cases last
        exact List.forall_mem_cons.2 ⟨known_of_find? found, ih further⟩
      next => cases read

/-- The options that a word gives. -/
def OptionWord.choices : OptionWord → List Choice
  | .complete given => given.map (·.1)
  | .open o _ => [o]

theorem readOption_known {said : OptionWord} (read : readOption known word = .ok said) : ∀ o ∈ said.choices, o ∈ known := by
  simp only [readOption] at read
  split at read
  next o found =>
    have isKnown : o ∈ known := by
      split at found
      · exact known_of_find? found
      · cases found
    split at read
    all_goals cases read
    all_goals exact fun other mem => List.mem_singleton.1 mem ▸ isKnown
  next =>
    split at read
    · cases read
    · obtain ⟨given, letters, rfl⟩ := exists_of_map_eq_ok read
      intro o mem
      obtain ⟨p, among, rfl⟩ := List.mem_map.1 mem
      exact readLetters_known letters p among

theorem sortWords_nil (known : List Choice) : sortWords known [] = .ok {} := rfl

/-- Words are sorted from the first on: an option, an argument, or two dashes that end the options. -/
theorem sortWords_cons (known : List Choice) (word : String) (rest : List String) : sortWords known (word :: rest) =
    if word = "--" then .ok { arguments := rest }
    else if isOptionWord word then
      match readOption known word with
      | .error e => .error e
      | .ok (.complete given) => (sortWords known rest).map (Sorted.addOptions given)
      | .ok (.open o spelling) =>
        match rest with
        | [] => .error (.missingValue spelling)
        | value :: rest => (sortWords known rest).map (Sorted.addOptions [(o, value)])
    else (sortWords known rest).map (Sorted.addArgument word) := by
  -- the generated equations take long to make
  cases rest with
  | nil =>
      delta sortWords
      rfl
  | cons value rest =>
      delta sortWords
      rfl

/-- The first of some words ends the options, gives some, takes the next word as its value, or is an argument. -/
theorem sortWords_cases {rest : List String} {s : Sorted} (isSorted : sortWords known (word :: rest) = .ok s) :
    s = { arguments := rest } ∨
      (∃ given others, readOption known word = .ok (.complete given) ∧ sortWords known rest = .ok others ∧
        s = others.addOptions given) ∨
      (∃ o spelling value behind others, readOption known word = .ok (.open o spelling) ∧ rest = value :: behind ∧
        sortWords known behind = .ok others ∧ s = others.addOptions [(o, value)]) ∨
      ∃ others, sortWords known rest = .ok others ∧ s = others.addArgument word := by
  rw [sortWords_cons] at isSorted
  split at isSorted
  next => exact .inl (Except.ok.inj isSorted).symm
  next =>
    split at isSorted
    next =>
      split at isSorted
      next => cases isSorted
      next given read =>
        obtain ⟨others, further, same⟩ := exists_of_map_eq_ok isSorted
        exact .inr (.inl ⟨given, others, read, further, same.symm⟩)
      next o spelling read =>
        split at isSorted
        next => cases isSorted
        next value behind =>
          obtain ⟨others, further, same⟩ := exists_of_map_eq_ok isSorted
          exact .inr (.inr (.inl ⟨o, spelling, value, behind, others, read, rfl, further, same.symm⟩))
    next =>
      obtain ⟨others, further, same⟩ := exists_of_map_eq_ok isSorted
      exact .inr (.inr (.inr ⟨others, further, same.symm⟩))

/-- Only options among those known are given. -/
def Sorted.Known (known : List Choice) (s : Sorted) : Prop := ∀ p ∈ s.options, p.1 ∈ known

/-- Where no options are given all given ones are known. -/
theorem Sorted.known_of_no_options {s : Sorted} (none : s.options = []) : s.Known known := by
  intro p mem
  rw [none] at mem
  cases mem

/-- Only options that the command has are given. -/
theorem sortWords_known {words : List String} {s : Sorted} (isSorted : sortWords known words = .ok s) : s.Known known := by
  -- the value of an option is a word of its own, so the claim is carried along for the words behind it, too
  have both : (∀ s, sortWords known words = .ok s → s.Known known) ∧
      ∀ s, sortWords known words.tail = .ok s → s.Known known := by
    clear isSorted
    induction words with
    | nil =>
        have nothing : ∀ s, sortWords known [] = .ok s → s.Known known := by
          rintro s ⟨⟩
          exact Sorted.known_of_no_options rfl
        exact ⟨nothing, nothing⟩
    | cons word rest ih =>
        obtain ⟨behind, behindValue⟩ := ih
        refine ⟨?_, behind⟩
        intro s isSorted
        rcases sortWords_cases isSorted with rfl | ⟨given, others, read, further, rfl⟩ |
          ⟨o, spelling, value, last, others, read, rfl, further, rfl⟩ | ⟨others, further, rfl⟩
        · exact Sorted.known_of_no_options rfl
        · intro p mem
          rcases List.mem_append.1 mem with own | other
          · exact readOption_known read p.1 (List.mem_map_of_mem own)
          · exact behind others further p other
        · have isKnown : o ∈ known := readOption_known read o (List.mem_singleton_self o)
          exact List.forall_mem_cons.2 ⟨isKnown, behindValue others further⟩
        · exact behind others further
  exact both.1 s isSorted

end Words

section Given

variable {words : Sorted} {o : Choice}

theorem Sorted.mem_values {value : String} : value ∈ words.values o ↔ (o, value) ∈ words.options := by
  simp only [Sorted.values, List.mem_filterMap, Option.ite_none_right_eq_some, Option.some.injEq, Prod.exists]
  constructor
  · rintro ⟨other, value, mem, rfl, rfl⟩
    exact mem
  · exact fun mem => ⟨o, value, mem, rfl, rfl⟩

/-- An option is given if it has a value. -/
theorem Sorted.mem_given : o ∈ words.given ↔ (words.value? o).isSome := by
  rw [Sorted.given, mem_distinct, Sorted.value?, List.getLast?_isSome]
  constructor
  · intro mem
    obtain ⟨⟨o, value⟩, among, rfl⟩ := List.mem_map.1 mem
    exact List.ne_nil_of_mem (Sorted.mem_values.2 among)
  · intro some
    obtain ⟨value, mem⟩ := List.exists_mem_of_ne_nil _ some
    exact List.mem_map_of_mem (Sorted.mem_values.1 mem)

end Given

/-!
### Checked values
-/

section Checks

variable {disk : Disk} {command : Command} {words : Sorted} {a a' : Arguments} {o : Choice} {path value : String}

/-- Does a path lead to an entry of the kind wanted? -/
def EntryKind.leads (disk : Disk) (path : String) : EntryKind → Bool
  | .file => disk.isFile path
  | .directory => disk.isDirectory path

/-- The check of a path passes where the path leads to an entry of the wanted kind; it leaves the path as it is. -/
theorem checkEntry_ok_iff {wanted : EntryKind} {parameter path' : String} :
    checkEntry disk wanted parameter path = .ok path' ↔ wanted.leads disk path ∧ path' = path := by
  unfold checkEntry EntryKind.leads Disk.isFile Disk.isDirectory
  cases wanted with
  | file => cases disk.find? path with
    | none => simp
    | some t => cases t <;> simp [eq_comm]
  | directory => cases disk.find? path with
    | none => simp
    | some t => cases t <;> simp [eq_comm]

theorem checkEntry_map_ok_iff {wanted : EntryKind} {parameter : String} {f : String → Arguments} :
    (do return f (← checkEntry disk wanted parameter path)) = .ok a' ↔ wanted.leads disk path ∧ a' = f path := by
  cases checked : checkEntry disk wanted parameter path with
  | ok path' =>
      obtain ⟨leads, rfl⟩ := checkEntry_ok_iff.1 checked
      simp [leads, bind, Except.bind, pure, Except.pure, eq_comm]
  | error e =>
      have not : ¬wanted.leads disk path := by
        intro leads
        rw [checkEntry_ok_iff.2 ⟨leads, rfl⟩] at checked
        cases checked
      simp [not, bind, Except.bind]

/-- Is the value of an option acceptable? -/
def Choice.accepts (disk : Disk) (value : String) : Choice → Bool
  | .workspace => EntryKind.directory.leads disk value
  | .config => EntryKind.file.leads disk value
  | .probe => (ProbeKind.ofName? value).isSome
  | .workers => (Text.integer? value).isSome
  | .aliases | .debug | .help => true

/-- Set what an option says. -/
def Sorted.set (words : Sorted) (a : Arguments) (o : Choice) : Arguments :=
  let value := (words.value? o).getD ""
  match o with
  | .workspace => { a with workspace := some value }
  | .config => { a with config := some value }
  | .aliases => { a with aliases := words.values .aliases }
  | .probe => { a with probe := ProbeKind.ofName? value }
  | .workers => { a with workers := Text.integer? value }
  | .debug => { a with debug := value == "--debug" }
  | .help => a

/-- An option is applied where its value is accepted; it sets its own argument. -/
theorem applyOption_ok_iff : applyOption disk words a o = .ok a' ↔
    o.accepts disk ((words.value? o).getD "") ∧ a' = words.set a o := by
  cases o with
  | workspace => exact checkEntry_map_ok_iff
  | config => exact checkEntry_map_ok_iff
  | probe =>
      simp only [applyOption, Choice.accepts, Sorted.set]
      cases ProbeKind.ofName? ((words.value? .probe).getD "") with
      | none => simp
      | some kind =>
          simp only [Except.ok.injEq, Option.isSome_some, true_and]
          exact eq_comm
  | workers =>
      simp only [applyOption, Choice.accepts, Sorted.set]
      cases Text.integer? ((words.value? .workers).getD "") with
      | none => simp
      | some n =>
          simp only [Except.ok.injEq, Option.isSome_some, true_and]
          exact eq_comm
  | aliases | debug | help => simp [applyOption, Choice.accepts, Sorted.set, eq_comm]

/-- Options are applied where all values are accepted; each sets its own argument. -/
theorem foldlM_applyOption_ok_iff {given : List Choice} : given.foldlM (applyOption disk words) a = .ok a' ↔
    (∀ o ∈ given, o.accepts disk ((words.value? o).getD "")) ∧ a' = given.foldl words.set a := by
  induction given generalizing a with
  | nil =>
      constructor
      · intro applied
        exact ⟨fun o none => absurd none List.not_mem_nil, (Except.ok.inj applied).symm⟩
      · rintro ⟨_, rfl⟩
        rfl
  | cons o rest ih =>
      rw [List.foldlM_cons, List.forall_mem_cons, List.foldl_cons]
      constructor
      · intro applied
        obtain ⟨between, first, others⟩ := exists_of_bind_eq_ok applied
        obtain ⟨accepted, rfl⟩ := applyOption_ok_iff.1 first
        obtain ⟨further, last⟩ := ih.1 others
        exact ⟨⟨accepted, further⟩, last⟩
      · rintro ⟨⟨accepted, further⟩, last⟩
        rw [applyOption_ok_iff.2 ⟨accepted, rfl⟩]
        exact ih.2 ⟨further, last⟩

/-- What options set, one after the other: each field is that of its option, if this is given. -/
theorem foldl_set (given : List Choice) (a : Arguments) : given.foldl words.set a =
    { a with
      workspace := if .workspace ∈ given then some ((words.value? .workspace).getD "") else a.workspace
      aliases := if .aliases ∈ given then words.values .aliases else a.aliases
      probe := if .probe ∈ given then ProbeKind.ofName? ((words.value? .probe).getD "") else a.probe
      config := if .config ∈ given then some ((words.value? .config).getD "") else a.config
      workers := if .workers ∈ given then Text.integer? ((words.value? .workers).getD "") else a.workers
      debug := if .debug ∈ given then (words.value? .debug).getD "" == "--debug" else a.debug } := by
  induction given generalizing a with
  | nil => rfl
  | cons o rest ih =>
      rw [List.foldl_cons, ih]
      cases o <;> simp [Sorted.set]

/-- The arguments that sorted words give, with what they are to work on. -/
def Sorted.checked (words : Sorted) (target : String) : Arguments :=
  { target
    workspace := words.value? .workspace
    aliases := words.values .aliases
    probe := (words.value? .probe).bind ProbeKind.ofName?
    config := words.value? .config
    workers := (words.value? .workers).bind Text.integer?
    debug := words.value? .debug == some "--debug" }

/-- The arguments set by all given options are the checked arguments. -/
theorem foldl_set_given (target : String) :
    { words.given.foldl words.set {} with target } = words.checked target := by
  rw [foldl_set]
  have field : ∀ {α : Type} (o : Choice) (f : String → Option α),
      (if o ∈ words.given then f ((words.value? o).getD "") else none) = (words.value? o).bind f := by
    intro α o f
    simp only [Sorted.mem_given]
    cases words.value? o <;> simp
  have aliases : (if .aliases ∈ words.given then words.values .aliases else []) = words.values .aliases := by
    simp only [Sorted.mem_given, Sorted.value?, List.getLast?_isSome]
    split
    next => rfl
    next none => exact (not_not.1 none).symm
  have debug : (if .debug ∈ words.given then (words.value? .debug).getD "" == "--debug" else false) =
      (words.value? .debug == some "--debug") := by
    simp only [Sorted.mem_given]
    cases words.value? .debug <;> simp
  simp [Sorted.checked, field, aliases, debug]

/-- The words of a command are accepted if the values of the options are and there is one argument, which leads to what
    the command works on. -/
theorem checkArguments_ok_iff : checkArguments disk command words = .ok a ↔
    (∀ o ∈ words.given, o.accepts disk ((words.value? o).getD "")) ∧
      ∃ target, words.arguments = [target] ∧ command.wanted.leads disk target ∧ a = words.checked target := by
  unfold checkArguments
  constructor
  · intro checked
    obtain ⟨options, applied, onward⟩ := exists_of_bind_eq_ok checked
    obtain ⟨accepted, rfl⟩ := foldlM_applyOption_ok_iff.1 applied
    split at onward
    next => cases onward
    next target extra arguments =>
      obtain ⟨target', entry, last⟩ := exists_of_bind_eq_ok onward
      obtain ⟨leads, rfl⟩ := checkEntry_ok_iff.1 entry
      split at last
      next none =>
        rw [List.isEmpty_iff.1 none] at arguments
        exact ⟨accepted, target', arguments, leads, (Except.ok.inj last).symm.trans (foldl_set_given target')⟩
      next => cases last
  · rintro ⟨accepted, target, arguments, leads, rfl⟩
    rw [foldlM_applyOption_ok_iff.2 ⟨accepted, rfl⟩, ← foldl_set_given]
    simp only [bind, Except.bind, arguments]
    rw [checkEntry_ok_iff.2 ⟨leads, rfl⟩]
    rfl

end Checks

end Outline.CommandLine
