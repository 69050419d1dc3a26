/-
Module: Outline.Proofs.Module.Prescan
Layer: Proofs
Purpose: The names that the declarations of a statement are given out under, through all of its wrappers, against
  the names that the scan ahead of the walk finds in it. The scan looks through one export or one `declare`, and
  not into expressions: a name is sure to be found only if the statement shows it in plain sight.
Main exports: Gives, inPlainSight, prescan_ok, mem_declared_of_inPlainSight
-/
import Outline.Proofs.Module.Equations
import Outline.Proofs.Tree.Inside

namespace Outline

open Signature (orElse)

/-!
### Names given out
-/

/-- A statement may give out a declaration under a name. Exports and `declare`s give out what they wrap, an
    expression the namespace in it. -/
inductive Gives (src : Source) : Node → String → Prop where
  /-- Functions and classes may lack a name. -/
  | orDefault {n : Node} {name : String}
      (form : StatementForm.ofKind? n.kind ∈ [some .function, some .functionSignature, some .classDecl])
      (named : nameIn src n = .ok name) : Gives src n (orElse name "default")
  | named {n : Node} {name : String}
      (form : StatementForm.ofKind? n.kind ∈ [some .interfaceDecl, some .typeAlias, some .enumDecl])
      (named : nameIn src n = .ok name) : Gives src n name
  | binding {n c target : Node} {name : String} (form : StatementForm.ofKind? n.kind = some .bindings)
      (declarator : c ∈ n.namedOf ["variable_declarator"]) (named : c.field? "name" = some target)
      (plain : target.kind = "identifier") (text : src.textOf target = .ok name) : Gives src n name
  | nameSpace {n target : Node} {name : String} (form : StatementForm.ofKind? n.kind = some .nameSpace)
      (named : n.field? "name" = some target) (plain : target.kind ≠ "string")
      (text : src.textOf target = .ok name) : Gives src n (Text.compact name)
  | exported {n inner : Node} {name : String} (form : StatementForm.ofKind? n.kind = some .exporting)
      (wraps : n.field? "declaration" = some inner) (gives : Gives src inner name) : Gives src n name
  | ambient {n inner : Node} {name : String} (form : StatementForm.ofKind? n.kind = some .ambient)
      (wraps : n.named.head? = some inner) (gives : Gives src inner name) : Gives src n name
  | expression {n inner : Node} {name : String} (form : StatementForm.ofKind? n.kind = some .expression)
      (wraps : n.child? Node.namespaceKinds = some inner) (gives : Gives src inner name) : Gives src n name

/-- Is this the declaration itself, under a name that is there and stands as it is written? -/
def isPlain (src : Source) (d : Node) : Bool :=
  match StatementForm.ofKind? d.kind with
  | some .exporting | some .ambient | some .expression => false
  | some .bindings => true
  | some .nameSpace => (nameIn src d).toOption.all fun name => name ≠ "" && Text.compact name = name
  | _ => (nameIn src d).toOption.all (· ≠ "")

/-- Is this a plain declaration, or one export or one `declare` of one? -/
def inPlainSight (src : Source) (n : Node) : Bool := (unwrapped? n).any (isPlain src)

/-!
### The scan ahead
-/

section Except

variable {α β ε : Type} {f : α → Except ε β} {as : List α} {bs : List β}

/-- Where two steps in turn succeed, each of them does. -/
theorem exists_of_bind_eq_ok {x : Except ε α} {b : β} (done : x >>= f = .ok b) :
    ∃ a, x = .ok a ∧ f a = .ok b := by
  cases x with
  | error e => cases done
  | ok a => exact ⟨a, rfl, done⟩

theorem exists_mapM_eq_ok (each : ∀ a ∈ as, ∃ b, f a = .ok b) : ∃ bs, as.mapM f = .ok bs := by
  induction as with
  | nil => exact ⟨[], rfl⟩
  | cons a as ih =>
      obtain ⟨b, first⟩ := each a List.mem_cons_self
      obtain ⟨bs, rest⟩ := ih fun c mem => each c (List.mem_cons_of_mem a mem)
      refine ⟨b :: bs, ?_⟩
      rw [List.mapM_cons, first, rest]
      rfl

/-- Each item of a traversal that succeeded has its image among the results. -/
theorem exists_mem_of_mapM_eq_ok (done : as.mapM f = .ok bs) {a : α} (mem : a ∈ as) : ∃ b ∈ bs, f a = .ok b := by
  induction as generalizing bs with
  | nil => exact absurd mem List.not_mem_nil
  | cons c cs ih =>
      rw [List.mapM_cons] at done
      obtain ⟨b, first, done⟩ := exists_of_bind_eq_ok done
      obtain ⟨more, rest, done⟩ := exists_of_bind_eq_ok done
      cases done
      rcases List.mem_cons.1 mem with rfl | mem
      · exact ⟨b, List.mem_cons_self, first⟩
      · obtain ⟨d, among, same⟩ := ih rest mem
        exact ⟨d, List.mem_cons_of_mem b among, same⟩

end Except

variable {src : Source} {n d body : Node} {name : String}

theorem nameIn_ok (readable : src.Readable n) : ∃ name, nameIn src n = .ok name := by
  unfold nameIn
  split
  next target named => exact readable target (.deeper .here (Node.mem_children_of_field? named))
  next => exact ⟨"", rfl⟩

/-- What a statement wraps is among its children, if it is not the statement. -/
theorem readable_of_unwrapped? (readable : src.Readable n) (inner : unwrapped? n = some d) : src.Readable d := by
  unfold unwrapped? at inner
  split at inner
  · exact readable.child (Node.mem_children_of_field? inner)
  · split at inner
    · exact readable.child (Node.mem_children_of_mem_named (List.mem_of_head? inner))
    · cases inner
      exact readable

/-- The names that a statement of readable text adds to its scope can be read. -/
theorem statementScope_ok (readable : src.Readable n) : ∃ scope, statementScope src n = .ok scope := by
  unfold statementScope
  split
  next => exact ⟨{}, rfl⟩
  next d inner =>
    have below := readable_of_unwrapped? readable inner
    split
    next =>
      have each : ∀ c ∈ d.namedOf ["variable_declarator"], ∃ name, nameIn src c = .ok name := by
        intro c mem
        have child := Node.mem_children_of_mem_named (Node.mem_named_of_mem_namedOf mem)
        exact nameIn_ok (below.child child)
      obtain ⟨names, done⟩ := exists_mapM_eq_ok each
      rw [done]
      exact ⟨_, rfl⟩
    next =>
      obtain ⟨name, named⟩ := nameIn_ok below
      rw [named]
      exact ⟨_, rfl⟩

/-- In a body that can be read, the scan ahead comes to an end. -/
theorem prescan_ok (readable : src.Readable body) : ∃ scope, prescan src body = .ok scope := by
  have each : ∀ n ∈ body.named, ∃ scope, statementScope src n = .ok scope := by
    intro n mem
    exact statementScope_ok (readable.child (Node.mem_children_of_mem_named mem))
  obtain ⟨scopes, done⟩ := exists_mapM_eq_ok each
  unfold prescan
  rw [done]
  exact ⟨_, rfl⟩

/-- The names found in one statement are found in the body. -/
theorem mem_declared_of_statementScope {scope : Scope} (scanned : prescan src body = .ok scope)
    (statement : n ∈ body.named) {part : Scope} (found : statementScope src n = .ok part)
    (mem : name ∈ part.declared) : name ∈ scope.declared := by
  unfold prescan at scanned
  obtain ⟨scopes, done, scanned⟩ := exists_of_bind_eq_ok scanned
  cases scanned
  obtain ⟨part', among, found'⟩ := exists_mem_of_mapM_eq_ok done statement
  rw [found] at found'
  cases found'
  exact List.mem_flatMap.2 ⟨part, among, mem⟩

/-!
### What stands in plain sight is found
-/

/-- A statement gives out what it wraps. -/
theorem Gives.of_unwrapped? (gives : Gives src n name) (inner : unwrapped? n = some d) : Gives src d name := by
  cases gives with
  | orDefault form named =>
      rw [unwrapped?_eq_self (by intro other; simp [other] at form) (by intro other; simp [other] at form)] at inner
      cases inner
      exact .orDefault form named
  | named form named =>
      rw [unwrapped?_eq_self (by intro other; simp [other] at form) (by intro other; simp [other] at form)] at inner
      cases inner
      exact .named form named
  | binding form declarator named plain text =>
      rw [unwrapped?_eq_self (by simp [form]) (by simp [form])] at inner
      cases inner
      exact .binding form declarator named plain text
  | nameSpace form named plain text =>
      rw [unwrapped?_eq_self (by simp [form]) (by simp [form])] at inner
      cases inner
      exact .nameSpace form named plain text
  | expression form wraps gives =>
      rw [unwrapped?_eq_self (by simp [form]) (by simp [form])] at inner
      cases inner
      exact .expression form wraps gives
  | exported form wraps gives =>
      rw [unwrapped?_eq, form] at inner
      cases wraps.symm.trans inner
      exact gives
  | ambient form wraps gives =>
      rw [unwrapped?_eq, form] at inner
      cases wraps.symm.trans inner
      exact gives

variable {part : Scope}

/-- The scan finds every declarator of a variable statement, whatever its target looks like. -/
theorem mem_declared_of_binding (inner : unwrapped? n = some d) (form : StatementForm.ofKind? d.kind = some .bindings)
    {c : Node} (declarator : c ∈ d.namedOf ["variable_declarator"]) (named : nameIn src c = .ok name)
    (found : statementScope src n = .ok part) : name ∈ part.declared := by
  have kind : ["lexical_declaration", "variable_declaration"].contains d.kind :=
    List.contains_iff_mem.2 (StatementForm.ofKind?_eq_some_iff.1 form)
  simp only [statementScope, inner, kind, if_true] at found
  obtain ⟨names, done, found⟩ := exists_of_bind_eq_ok found
  cases found
  obtain ⟨name', among, named'⟩ := exists_mem_of_mapM_eq_ok done declarator
  rw [named] at named'
  cases named'
  exact among

/-- Of any other statement the scan finds the name, unless it is empty. -/
theorem mem_declared_of_nameIn (inner : unwrapped? n = some d) (form : StatementForm.ofKind? d.kind ≠ some .bindings)
    (named : nameIn src d = .ok name) (nonempty : name ≠ "") (found : statementScope src n = .ok part) :
    name ∈ part.declared := by
  have kind : ¬ ["lexical_declaration", "variable_declaration"].contains d.kind := by
    intro mem
    exact form (StatementForm.ofKind?_eq_some_iff.2 (List.contains_iff_mem.1 mem))
  simp only [statementScope, inner, kind] at found
  obtain ⟨name', named', found⟩ := exists_of_bind_eq_ok found
  rw [named] at named'
  cases named'
  cases found
  simp [nonempty]

/-- The scan finds every name that is given out in plain sight. -/
theorem mem_declared_of_inPlainSight (gives : Gives src n name) (plain : inPlainSight src n)
    (found : statementScope src n = .ok part) : name ∈ part.declared := by
  obtain ⟨d, inner, plain⟩ := (Option.any_eq_true _ _).1 plain
  have given := gives.of_unwrapped? inner
  unfold isPlain at plain
  cases given with
  | @orDefault _ short form named =>
      simp only [List.mem_cons, List.not_mem_nil, or_false] at form
      rcases form with form | form | form
      all_goals
        have written : short ≠ "" := by simpa [form, named, Except.toOption] using plain
        rw [orElse, if_neg written]
        exact mem_declared_of_nameIn inner (by simp [form]) named written found
  | named form named =>
      simp only [List.mem_cons, List.not_mem_nil, or_false] at form
      rcases form with form | form | form
      all_goals
        have written : name ≠ "" := by simpa [form, named, Except.toOption] using plain
        exact mem_declared_of_nameIn inner (by simp [form]) named written found
  | @binding _ c target _ form declarator named kind text =>
      have shown : nameIn src c = .ok name := by simpa only [nameIn, named] using text
      exact mem_declared_of_binding inner form declarator shown found
  | @nameSpace _ target short form named kind text =>
      have shown : nameIn src d = .ok short := by simpa only [nameIn, named] using text
      have written : short ≠ "" ∧ Text.compact short = short := by simpa [form, shown, Except.toOption] using plain
      rw [written.2]
      exact mem_declared_of_nameIn inner (by simp [form]) shown written.1 found
  | exported form => simp [form] at plain
  | ambient form => simp [form] at plain
  | expression form => simp [form] at plain

end Outline
