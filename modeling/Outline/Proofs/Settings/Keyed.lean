/-
Module: Outline.Proofs.Settings.Keyed
Layer: Proofs
Purpose: In a document that has been read, no table has two entries under one key. Both formats store the entries of a
  table one after the other, whatever is nested in them, and what is made of the whole keeps to it.
Main exports: Settings.Value.WellKeyed, Settings.Value.WellKeyed.put, Json.wellKeyed_of_parse,
  Settings.wellKeyed_of_parseToml, Settings.wellKeyed_of_tableOfToml, Settings.wellKeyed_of_tableOfJson
-/
import Outline.Proofs.CommandLine.Options
import Outline.Proofs.Entries.Keys
import Outline.Settings.Load

namespace Outline

open CommandLine (eq_ok_of_mapError exists_of_map_eq_ok)

namespace Settings

/-- A value that holds no others. -/
def Value.isAtom : Value → Bool
  | .checked _ | .list _ | .table _ => false
  | _ => true

/-- No table in a value has two entries under one key, and nothing in it is an object already. -/
inductive Value.WellKeyed : Value → Prop where
  | table {entries : List (String × Value)} (distinct : (Entries.keys entries).Nodup)
      (each : ∀ e ∈ entries, WellKeyed e.2) : WellKeyed (.table entries)
  | list {items : List Value} (each : ∀ v ∈ items, WellKeyed v) : WellKeyed (.list items)
  | atom {v : Value} (isAtom : v.isAtom = true) : WellKeyed v

namespace Value.WellKeyed

variable {entries : List (String × Value)} {key : String} {v : Value}

theorem distinct (keyed : WellKeyed (.table entries)) : (Entries.keys entries).Nodup := by
  cases keyed with
  | table distinct _ => exact distinct
  | atom isAtom => cases isAtom

theorem each (keyed : WellKeyed (.table entries)) : ∀ e ∈ entries, WellKeyed e.2 := by
  cases keyed with
  | table _ each => exact each
  | atom isAtom => cases isAtom

theorem items {vs : List Value} (keyed : WellKeyed (.list vs)) : ∀ v ∈ vs, WellKeyed v := by
  cases keyed with
  | list each => exact each
  | atom isAtom => cases isAtom

/-- A section that was checked before is not among the well keyed values; no text is read as one. -/
theorem not_checked (r : ResolverSection) : ¬WellKeyed (.checked r) := by
  intro keyed
  cases keyed with
  | atom isAtom => cases isAtom

theorem empty : WellKeyed (.table []) := .table List.nodup_nil fun _ none => absurd none List.not_mem_nil

/-- What is found in a well keyed table is well keyed. -/
theorem get? (keyed : WellKeyed (.table entries)) (found : Entries.get? entries key = some v) : WellKeyed v :=
  keyed.each (key, v) (Entries.mem_of_get? found)

/-- Storing a value keeps keys distinct. -/
theorem put (keyed : WellKeyed (.table entries)) (key : String) (stored : WellKeyed v) :
    WellKeyed (.table (Entries.put entries key v)) := by
  refine .table (Entries.nodup_put keyed.distinct key v) fun e mem => ?_
  rcases Entries.mem_put mem with rfl | among
  · exact stored
  · exact keyed.each e among

/-- Storing well keyed values, one after the other, keeps a table well keyed. -/
theorem merge {m pairs : List (String × Value)} (keyed : WellKeyed (.table m)) (each : ∀ e ∈ pairs, WellKeyed e.2) :
    WellKeyed (.table (Entries.merge m pairs)) := by
  refine .table (Entries.nodup_merge keyed.distinct pairs) fun e mem => ?_
  rcases Entries.mem_merge mem with before | new
  · exact keyed.each e before
  · exact each e new

end Value.WellKeyed

theorem eq_some_of_orMalformed {α : Type} {o : Option α} {a : α} (there : orMalformed o = .ok a) : o = some a := by
  cases o with
  | none => cases there
  | some b => exact congrArg some (Except.ok.inj there)

/-!
### JSON
-/

namespace Value

theorem ofJsonList_eq_map (items : List Json) : ofJsonList items = items.map ofJson := by
  induction items with
  | nil => rfl
  | cons v items ih => rw [ofJsonList, ih, List.map_cons]

/-- Storing a field and reading the object as a table is storing the value. -/
theorem ofJsonFields_put (fields : List (String × Json)) (key : String) (v : Json) :
    ofJsonFields (Entries.put fields key v) = Entries.put (ofJsonFields fields) key (ofJson v) := by
  induction fields with
  | nil => rfl
  | cons f fields ih =>
      obtain ⟨k, w⟩ := f
      by_cases same : k = key
      · simp [Entries.put, ofJsonFields, same]
      · simp [Entries.put, ofJsonFields, same, ih]

end Value

end Settings

namespace Json.Parser

open Settings (Value eq_some_of_orMalformed)

/-- A document read is well keyed, and so is what has been read of a list or an object. -/
structure ReadsKeyed (fuel : Nat) : Prop where
  value {cs rest : List Char} {v : Json} (read : value fuel cs = .ok (v, rest)) : (Value.ofJson v).WellKeyed
  items {cs rest : List Char} {vs : List Json} (read : items fuel cs = .ok (vs, rest)) :
    ∀ v ∈ vs, (Value.ofJson v).WellKeyed
  fields {before fs : List (String × Json)} {cs rest : List Char} (read : fields fuel before cs = .ok (fs, rest))
      (keyed : (Value.ofJson (.object before)).WellKeyed) : (Value.ofJson (.object fs)).WellKeyed

theorem isAtom_of_string {cs rest : List Char} {v : Json} (read : string cs = some (v, rest)) :
    (Value.ofJson v).isAtom = true := by
  obtain ⟨⟨units, after⟩, -, made⟩ := Option.bind_eq_some_iff.1 read
  simp only [Option.pure_def, Option.some.injEq, Prod.mk.injEq] at made
  obtain ⟨rfl, -⟩ := made
  split <;> rfl

theorem isAtom_of_word {cs rest : List Char} {v : Json} (read : word cs = some (v, rest)) :
    (Value.ofJson v).isAtom = true := by
  have atoms : ∀ w ∈ words, (Value.ofJson w.2).isAtom = true := by decide
  obtain ⟨⟨letters, w⟩, mem, found⟩ := List.exists_of_findSome?_eq_some read
  simp only [] at found
  split at found
  · cases found
    exact atoms _ mem
  · cases found

theorem isAtom_of_number {negative : Bool} {cs rest : List Char} {v : Json}
    (read : number negative cs = .ok (v, rest)) : (Value.ofJson v).isAtom = true := by
  unfold number at read
  extract_lets whole at read
  clear_value whole
  simp only [] at read
  split at read
  · cases read
  · split at read
    · obtain ⟨n, -, made⟩ := exists_of_map_eq_ok read
      cases made
      rfl
    · cases read
      rfl

/-- A word or number of a document is read as an atom. -/
theorem isAtom_of_wordOrNumber {cs rest : List Char} {v : Json} (read : wordOrNumber cs = .ok (v, rest)) :
    (Value.ofJson v).isAtom = true := by
  unfold wordOrNumber at read
  split at read
  next isWord =>
    cases read
    exact isAtom_of_word isWord
  next =>
    split at read
    · exact isAtom_of_number read
    · exact isAtom_of_number read

/-- Every value that is read from a document, with whatever fuel, is well keyed. -/
theorem readsKeyed (fuel : Nat) : ReadsKeyed fuel := by
  induction fuel with
  | zero =>
      constructor
      · intro cs rest v read
        cases read
      · intro cs rest vs read
        cases read
      · intro before fs cs rest read
        cases read
  | succ fuel ih =>
      constructor
      · intro cs rest v read
        unfold value at read
        split at read
        · exact .atom (isAtom_of_string (eq_some_of_orMalformed read))
        · split at read
          · cases read
            exact .list fun v none => absurd none List.not_mem_nil
          · obtain ⟨⟨vs, after⟩, inner, made⟩ := exists_of_map_eq_ok read
            obtain ⟨rfl, rfl⟩ := Prod.mk.inj made
            exact .list (by rw [Value.ofJsonList_eq_map]; exact List.forall_mem_map.2 (ih.items inner))
        · split at read
          · cases read
            exact .empty
          · obtain ⟨⟨fs, after⟩, inner, made⟩ := exists_of_map_eq_ok read
            obtain ⟨rfl, rfl⟩ := Prod.mk.inj made
            exact ih.fields inner .empty
        · exact .atom (isAtom_of_wordOrNumber read)
      · intro cs rest vs read
        unfold items at read
        obtain ⟨⟨v, after⟩, first, onward⟩ := exists_of_bind_eq_ok read
        simp only [] at onward
        split at onward
        · cases onward
          exact List.forall_mem_singleton.2 (ih.value first)
        · obtain ⟨⟨others, after'⟩, further, made⟩ := exists_of_bind_eq_ok onward
          cases made
          exact List.forall_mem_cons.2 ⟨ih.value first, ih.items further⟩
        · cases onward
      · intro before fs cs rest read keyed
        unfold fields at read
        split at read
        · obtain ⟨⟨key, rest'⟩, -, onward⟩ := exists_of_bind_eq_ok read
          simp only [] at onward
          split at onward
          · obtain ⟨⟨v, after⟩, inner, further⟩ := exists_of_bind_eq_ok onward
            have stored : (Value.ofJson (.object (Entries.put before key v))).WellKeyed := by
              rw [Value.ofJson, Value.ofJsonFields_put]
              exact keyed.put key (ih.value inner)
            simp only [] at further
            split at further
            · cases further
              exact stored
            · exact ih.fields further stored
            · cases further
          · cases onward
        · cases read

end Json.Parser

/-- A JSON document that has been read is well keyed. -/
theorem Json.wellKeyed_of_parse {text : String} {v : Json} (read : Json.parse text = .ok v) :
    (Settings.Value.ofJson v).WellKeyed := by
  obtain ⟨⟨v', rest⟩, whole, ended⟩ := exists_of_bind_eq_ok read
  simp only [] at ended
  split at ended
  · cases ended
    exact (Parser.readsKeyed _).value whole
  · cases ended

/-!
### TOML
-/

namespace Settings.Toml

theorem isAtom_of_oneOfWords {table : List (String × Value)} (atoms : ∀ w ∈ table, w.2.isAtom = true)
    {cs rest : List Char} {v : Value} (read : oneOfWords table cs = some (v, rest)) : v.isAtom = true := by
  obtain ⟨⟨letters, w⟩, mem, found⟩ := List.exists_of_findSome?_eq_some read
  simp only [] at found
  split at found
  · cases found
    exact atoms _ mem
  · cases found

theorem isAtom_of_basedInteger {base : Nat} {isDigit : Char → Bool} {cs rest : List Char} {v : Value}
    (read : basedInteger base isDigit cs = some (v, rest)) : v.isAtom = true := by
  obtain ⟨⟨ds, after⟩, -, onward⟩ := Option.bind_eq_some_iff.1 read
  obtain ⟨values, -, made⟩ := Option.bind_eq_some_iff.1 onward
  cases made
  rfl

theorem isAtom_of_parts {isWhole : Bool} {whole : Parsed Int} {r : Decimal} {after rest : List Char} {v : Value}
    (read : (if isWhole = true then do return (.int (← whole), after) else return (.real r, after)) =
      (.ok (v, rest) : Parsed (Value × List Char))) : v.isAtom = true := by
  split at read
  · obtain ⟨n, -, made⟩ := exists_of_bind_eq_ok read
    cases made
    rfl
  · cases read
    rfl

theorem isAtom_of_decimalNumber {cs rest : List Char} {v : Value} (read : decimalNumber cs = .ok (v, rest)) :
    v.isAtom = true := by
  unfold decimalNumber at read
  split at read
  extract_lets onward at read
  have ends : ∀ x, onward x = .ok (v, rest) → v.isAtom = true := fun x done => isAtom_of_parts done
  clear_value onward
  split at read
  · exact ends _ read
  · obtain ⟨x, -, further⟩ := exists_of_bind_eq_ok read
    exact ends x further

theorem isAtom_of_number {cs rest : List Char} {v : Value} (read : number cs = .ok (v, rest)) : v.isAtom = true := by
  unfold number at read
  extract_lets based at read
  have isBased : based = some (v, rest) → v.isAtom = true := by
    simp only [based]
    split
    · exact isAtom_of_basedInteger
    · exact isAtom_of_basedInteger
    · exact isAtom_of_basedInteger
    · exact fun none => absurd none (Option.some_ne_none _).symm
  clear_value based
  cases based with
  | some found => exact isBased (congrArg some (Except.ok.inj read))
  | none => exact isAtom_of_decimalNumber read

theorem isAtom_of_scalar {cs rest : List Char} {v : Value} (read : scalar cs = .ok (v, rest)) : v.isAtom = true := by
  unfold scalar at read
  split at read
  · obtain ⟨⟨s, after⟩, -, made⟩ := exists_of_map_eq_ok read
    cases made
    rfl
  · split at read
    next found =>
      cases read
      exact isAtom_of_oneOfWords (by decide) found
    next =>
      split at read
      · cases read
        rfl
      · cases read
      · split at read
        · cases read
          rfl
        · unfold numberOrWord at read
          split at read
          · exact isAtom_of_oneOfWords (by decide) (eq_some_of_orMalformed read)
          · exact isAtom_of_number read

/-- What a value in one piece says in front of its end is kept when more is written into it. -/
theorem wellKeyed_of_putInline {closed : List (List String)} {path parts : List String} {v : Value}
    {entries written : List (String × Value)} (keyed : (Value.table entries).WellKeyed) (stored : v.WellKeyed)
    (put : putInline closed path v parts entries = some written) : (Value.table written).WellKeyed := by
  induction parts generalizing path entries written with
  | nil => cases put
  | cons part rest ih =>
      cases rest with
      | nil =>
          rw [putInline] at put
          split at put
          · cases put
          · cases put
            exact keyed.put part stored
      | cons next rest =>
          unfold putInline at put
          extract_lets here at put
          split at put
          · cases put
          · split at put
            · obtain ⟨inner, further, rfl⟩ := Option.map_eq_some_iff.1 put
              exact keyed.put part (ih .empty further)
            next found =>
              obtain ⟨inner, further, rfl⟩ := Option.map_eq_some_iff.1 put
              exact keyed.put part (ih (keyed.get? found) further)
            · cases put

/-- What has been read of a document in one piece is well keyed. -/
structure ReadsKeyed (fuel : Nat) : Prop where
  value {cs rest : List Char} {v : Value} (read : value fuel cs = .ok (v, rest)) : v.WellKeyed
  items {cs rest : List Char} {vs : List Value} (read : items fuel cs = .ok (vs, rest)) : ∀ v ∈ vs, v.WellKeyed
  entries {closed : List (List String)} {before es : List (String × Value)} {cs rest : List Char}
      (read : inlineEntries fuel closed before cs = .ok (es, rest)) (keyed : (Value.table before).WellKeyed) :
    (Value.table es).WellKeyed

theorem readsKeyed (fuel : Nat) : ReadsKeyed fuel := by
  induction fuel with
  | zero =>
      constructor
      · intro cs rest v read
        cases read
      · intro cs rest vs read
        cases read
      · intro closed before es cs rest read
        cases read
  | succ fuel ih =>
      constructor
      · intro cs rest v read
        unfold value at read
        split at read
        · obtain ⟨after, -, onward⟩ := exists_of_bind_eq_ok read
          split at onward
          · cases onward
            exact .list fun v none => absurd none List.not_mem_nil
          · obtain ⟨⟨vs, after'⟩, inner, made⟩ := exists_of_bind_eq_ok onward
            cases made
            exact .list (ih.items inner)
        · split at read
          · cases read
            exact .empty
          · obtain ⟨⟨es, after⟩, inner, made⟩ := exists_of_bind_eq_ok read
            cases made
            exact ih.entries inner .empty
        · exact .atom (isAtom_of_scalar read)
      · intro cs rest vs read
        unfold items at read
        obtain ⟨⟨v, after⟩, first, onward⟩ := exists_of_bind_eq_ok read
        obtain ⟨next, -, further⟩ := exists_of_bind_eq_ok onward
        split at further
        · cases further
          exact List.forall_mem_singleton.2 (ih.value first)
        · obtain ⟨next', -, others⟩ := exists_of_bind_eq_ok further
          split at others
          · cases others
            exact List.forall_mem_singleton.2 (ih.value first)
          · obtain ⟨⟨vs', after'⟩, inner, made⟩ := exists_of_bind_eq_ok others
            cases made
            exact List.forall_mem_cons.2 ⟨ih.value first, ih.items inner⟩
        · cases further
      · intro closed before es cs rest read keyed
        unfold inlineEntries at read
        obtain ⟨⟨path, after⟩, -, onward⟩ := exists_of_bind_eq_ok read
        obtain ⟨after', -, onward⟩ := exists_of_bind_eq_ok onward
        obtain ⟨⟨v, after''⟩, inner, onward⟩ := exists_of_bind_eq_ok onward
        obtain ⟨written, put, onward⟩ := exists_of_bind_eq_ok onward
        have stored := wellKeyed_of_putInline keyed (ih.value inner) (eq_some_of_orMalformed put)
        extract_lets closed' at onward
        clear_value closed'
        split at onward
        · cases onward
          exact stored
        · exact ih.entries onward stored
        · cases onward

/-!
### Parts of a document
-/

/-- Storing an item and taking the values is storing the value of the item. -/
theorem valuesOf_put (entries : Items) (key : String) (i : Item) :
    valuesOf (Entries.put entries key i) = Entries.put (valuesOf entries) key i.toValue := by
  induction entries with
  | nil => rfl
  | cons e entries ih =>
      obtain ⟨k, j⟩ := e
      by_cases same : k = key
      · simp [Entries.put, valuesOf, same]
      · simp [Entries.put, valuesOf, same, ih]

/-- The value under a key is the value of the item under it. -/
theorem get?_valuesOf (entries : Items) (key : String) :
    Entries.get? (valuesOf entries) key = (Entries.get? entries key).map Item.toValue := by
  induction entries with
  | nil => rfl
  | cons e entries ih =>
      obtain ⟨k, i⟩ := e
      by_cases same : k = key
      · simp [Entries.get?, valuesOf, same]
      · simp [Entries.get?, valuesOf, same, ih]

mutual

/-- At the end of a section nothing is lost of what has been read. -/
theorem toValue_settle (i : Item) : i.settle.toValue = i.toValue := by
  cases i with
  | closed v => rfl
  | table origin entries => simp only [Item.settle, Item.toValue, valuesOf_settleAll entries]
  | tables elements => simp only [Item.settle, Item.toValue, tablesOf_settleEach elements]

theorem valuesOf_settleAll (entries : List (String × Item)) : valuesOf (settleAll entries) = valuesOf entries := by
  cases entries with
  | nil => rfl
  | cons e rest =>
      obtain ⟨k, i⟩ := e
      simp only [settleAll, valuesOf, toValue_settle i, valuesOf_settleAll rest]

theorem tablesOf_settleEach (elements : List (List (String × Item))) :
    tablesOf (settleEach elements) = tablesOf elements := by
  cases elements with
  | nil => rfl
  | cons t rest => simp only [settleEach, tablesOf, valuesOf_settleAll t, tablesOf_settleEach rest]

end

theorem tablesOf_eq_map (elements : List Items) : tablesOf elements = elements.map fun t => .table (valuesOf t) := by
  induction elements with
  | nil => rfl
  | cons t elements ih => rw [tablesOf, ih, List.map_cons]

/-- The entries of a table being read have distinct keys, and so have those of the tables in it. -/
def KeyedItems (entries : Items) : Prop := (Value.table (valuesOf entries)).WellKeyed

variable {entries inner changed : Items} {key : String} {i : Item} {path : List String} {v : Value}

theorem KeyedItems.empty : KeyedItems [] := Value.WellKeyed.empty

/-- Storing an item of a well keyed value keeps a document well keyed. -/
theorem KeyedItems.put (keyed : KeyedItems entries) (key : String) (stored : i.toValue.WellKeyed) :
    KeyedItems (Entries.put entries key i) := by
  rw [KeyedItems, valuesOf_put]
  exact Value.WellKeyed.put keyed key stored

/-- What is found in a well keyed document has a well keyed value. -/
theorem KeyedItems.get? (keyed : KeyedItems entries) (found : Entries.get? entries key = some i) :
    i.toValue.WellKeyed := by
  refine @Value.WellKeyed.get? _ key _ keyed ?_
  rw [get?_valuesOf, found, Option.map_some]

theorem wellKeyed_tables {elements : List Items} :
    (Item.tables elements).toValue.WellKeyed ↔ ∀ t ∈ elements, KeyedItems t := by
  rw [Item.toValue, tablesOf_eq_map]
  constructor
  · intro keyed t mem
    exact keyed.items _ (List.mem_reverse.2 (List.mem_map_of_mem mem))
  · intro each
    refine .list fun v mem => ?_
    obtain ⟨t, isElement, rfl⟩ := List.mem_map.1 (List.mem_reverse.1 mem)
    exact each t isElement

/-- Some change keeps the keys of a table distinct. -/
def Keeps (f : Items → Option Items) : Prop :=
  ∀ entries changed, KeyedItems entries → f entries = some changed → KeyedItems changed

variable {f : Items → Option Items}

/-- A change that keeps documents well keyed does so at the end of a path. -/
theorem Keeps.changeAt (keeps : Keeps f) (path : List String) : Keeps (changeAt f path) := by
  intro entries changed keyed done
  induction path generalizing entries changed with
  | nil => exact keeps entries changed keyed done
  | cons part rest ih =>
      unfold Toml.changeAt at done
      split at done
      · obtain ⟨inner, further, rfl⟩ := Option.map_eq_some_iff.1 done
        exact keyed.put part (ih _ _ .empty further)
      next found =>
        obtain ⟨inner, further, rfl⟩ := Option.map_eq_some_iff.1 done
        exact keyed.put part (ih _ _ (keyed.get? found) further)
      next last others found =>
        obtain ⟨inner, further, rfl⟩ := Option.map_eq_some_iff.1 done
        obtain ⟨isLast, each⟩ := List.forall_mem_cons.1 (wellKeyed_tables.1 (keyed.get? found))
        exact keyed.put part (wellKeyed_tables.2 (List.forall_mem_cons.2 ⟨ih _ _ isLast further, each⟩))
      · cases done

theorem keeps_openTable (path : List String) : Keeps (openTable path) := by
  intro document changed keyed done
  unfold openTable at done
  split at done
  · cases done
  next name _ =>
    refine Keeps.changeAt ?_ path.dropLast document changed keyed done
    intro entries written keyed opened
    simp only [] at opened
    split at opened
    · cases opened
      exact keyed.put name KeyedItems.empty
    next inner found =>
      cases opened
      have same : KeyedItems inner := keyed.get? found
      exact keyed.put name same
    · cases opened

/-- Appending to a list of tables keeps a document well keyed. -/
theorem keeps_appendTable (path : List String) : Keeps (appendTable path) := by
  intro document changed keyed done
  unfold appendTable at done
  split at done
  · cases done
  next name _ =>
    refine Keeps.changeAt ?_ path.dropLast document changed keyed done
    intro entries written keyed opened
    simp only [] at opened
    split at opened
    · cases opened
      exact keyed.put name (wellKeyed_tables.2 (List.forall_mem_singleton.2 .empty))
    next found =>
      cases opened
      exact keyed.put name (wellKeyed_tables.2 (List.forall_mem_cons.2 ⟨.empty, wellKeyed_tables.1 (keyed.get? found)⟩))
    · cases opened

/-- Storing a well keyed value under a dotted key keeps a document well keyed. -/
theorem keeps_putDotted {v : Value} (stored : v.WellKeyed) (path : List String) : Keeps (putDotted v path) := by
  intro entries changed keyed done
  induction path generalizing entries changed with
  | nil => cases done
  | cons part rest ih =>
      cases rest with
      | nil =>
          rw [putDotted] at done
          split at done
          · cases done
          · cases done
            exact keyed.put part stored
      | cons next rest =>
          unfold putDotted at done
          split at done
          · obtain ⟨inner, further, rfl⟩ := Option.map_eq_some_iff.1 done
            exact keyed.put part (ih _ _ .empty further)
          · cases done
          next found =>
            obtain ⟨inner, further, rfl⟩ := Option.map_eq_some_iff.1 done
            exact keyed.put part (ih _ _ (keyed.get? found) further)
          · cases done

theorem keyedItems_settleAll {document : Items} (keyed : KeyedItems document) : KeyedItems (settleAll document) := by
  rwa [KeyedItems, valuesOf_settleAll]

theorem keyedItems_of_statement {current current' : List String} {document changed : Items} {cs rest : List Char}
    (keyed : KeyedItems document) (read : statement current document cs = .ok (current', changed, rest)) :
    KeyedItems changed := by
  unfold statement at read
  split at read
  · obtain ⟨⟨path, after⟩, -, onward⟩ := exists_of_bind_eq_ok read
    obtain ⟨document', appended, made⟩ := exists_of_bind_eq_ok onward
    cases made
    exact keeps_appendTable _ _ _ (keyedItems_settleAll keyed) (eq_some_of_orMalformed appended)
  · obtain ⟨⟨path, after⟩, -, onward⟩ := exists_of_bind_eq_ok read
    obtain ⟨document', opened, made⟩ := exists_of_bind_eq_ok onward
    cases made
    exact keeps_openTable _ _ _ (keyedItems_settleAll keyed) (eq_some_of_orMalformed opened)
  · obtain ⟨⟨path, after⟩, -, onward⟩ := exists_of_bind_eq_ok read
    obtain ⟨after', -, onward⟩ := exists_of_bind_eq_ok onward
    obtain ⟨⟨v, after''⟩, inner, onward⟩ := exists_of_bind_eq_ok onward
    obtain ⟨document', written, made⟩ := exists_of_bind_eq_ok onward
    cases made
    have stored := (readsKeyed _).value inner
    exact (keeps_putDotted stored path).changeAt current _ _ keyed (eq_some_of_orMalformed written)

theorem keyedItems_of_statements {fuel : Nat} {current : List String} {document changed : Items} {cs : List Char}
    (keyed : KeyedItems document) (read : statements fuel current document cs = .ok changed) : KeyedItems changed := by
  induction fuel generalizing current document cs with
  | zero =>
      cases read
      exact keyed
  | succ fuel ih =>
      unfold statements at read
      split at read
      · cases read
        exact keyed
      · exact ih keyed read
      · extract_lets onward at read
        have ends : ∀ current' document' rest, KeyedItems document' →
            onward (current', document', rest) = .ok changed → KeyedItems changed := by
          intro current' document' rest keyed' further
          obtain ⟨next, -, last⟩ := exists_of_bind_eq_ok further
          split at last
          · cases last
            exact keyed'
          · exact ih keyed' last
          · cases last
        clear_value onward
        split at read
        · exact ends _ _ _ keyed read
        · obtain ⟨⟨current', document', rest⟩, first, further⟩ := exists_of_bind_eq_ok read
          exact ends _ _ _ (keyedItems_of_statement keyed first) further

end Settings.Toml

/-- A TOML document that has been read is well keyed. -/
theorem Settings.wellKeyed_of_parseToml {text : String} {table : Settings.RawTable} (read : parseToml text = .ok table) :
    (Value.table table).WellKeyed := by
  obtain ⟨document, whole, rfl⟩ := exists_of_map_eq_ok read
  exact Toml.keyedItems_of_statements .empty whole

namespace Settings

/-!
### Files
-/

theorem wellKeyed_of_entryOfItem {item v : Value} {key : String} (keyed : item.WellKeyed)
    (isEntry : entryOfItem item = .ok (key, v)) : v.WellKeyed := by
  unfold entryOfItem at isEntry
  split at isEntry
  · cases isEntry
    exact keyed.items v (by simp)
  · cases isEntry
  · cases isEntry
  · cases isEntry
    exact .atom rfl
  · cases isEntry
  · split at isEntry
    · cases isEntry
      exact .atom rfl
    · cases isEntry
  · cases isEntry
  · cases isEntry

theorem wellKeyed_of_entries {items : List Value} {entries : RawTable} (each : ∀ v ∈ items, v.WellKeyed)
    (read : items.mapM entryOfItem = .ok entries) : ∀ e ∈ entries, e.2.WellKeyed := by
  induction items generalizing entries with
  | nil =>
      cases read
      exact fun e none => absurd none List.not_mem_nil
  | cons item items ih =>
      obtain ⟨first, others⟩ := List.forall_mem_cons.1 each
      rw [List.mapM_cons] at read
      obtain ⟨e, isEntry, onward⟩ := exists_of_bind_eq_ok read
      obtain ⟨rest, further, made⟩ := exists_of_bind_eq_ok onward
      cases made
      exact List.forall_mem_cons.2 ⟨wellKeyed_of_entryOfItem first isEntry, ih others further⟩

/-- A table made of a well keyed value is well keyed. -/
theorem wellKeyed_of_tableOfValue {v : Value} {table : RawTable} (keyed : v.WellKeyed)
    (read : tableOfValue v = .ok table) : (Value.table table).WellKeyed := by
  unfold tableOfValue at read
  split at read
  · cases read
    exact keyed
  · obtain ⟨entries, each, rfl⟩ := exists_of_map_eq_ok read
    exact Value.WellKeyed.empty.merge (wellKeyed_of_entries keyed.items each)
  · split at read
    · cases read
      exact .empty
    · cases read
  · cases read
  · cases read

/-- What a file of settings says is well keyed. -/
theorem wellKeyed_of_tableOfToml {text? : Option String} {table : RawTable}
    (read : tableOfFile tableOfToml text? = .ok table) : (Value.table table).WellKeyed := by
  cases text? with
  | none =>
      cases read
      exact .empty
  | some text => exact wellKeyed_of_parseToml (eq_ok_of_mapError read)

/-- The table of a settings file is well keyed, whatever the file holds. -/
theorem wellKeyed_of_tableOfJson {text? : Option String} {table : RawTable}
    (read : tableOfFile tableOfJson text? = .ok table) : (Value.table table).WellKeyed := by
  cases text? with
  | none =>
      cases read
      exact .empty
  | some text =>
      obtain ⟨v, parsed, made⟩ := exists_of_bind_eq_ok read
      exact wellKeyed_of_tableOfValue (Json.wellKeyed_of_parse (eq_ok_of_mapError parsed)) made

end Settings

end Outline
