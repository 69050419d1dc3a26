/-
Module: Outline.Proofs.Module.Isolation
Layer: Proofs
Purpose: What a statement that is passed over for a syntax error can still do to its scope. The walk only logs it, but
  the scan ahead has read its names: it acts on the other statements through the answers of the scan, and in no other
  way. Taking it out changes nothing unless another statement asks for a name that it alone declares. An overload
  signature asks so, and gives way to an implementation that is never given out.
Main exports: Question, Scope.answers, Asks, processStatement_congr, Outcome.SameButEvents, processScope_without_broken
-/
import Outline.Proofs.Module.LocalExports

namespace Outline

/-!
### What a statement asks of the scan ahead
-/

/-- What may be asked of the names that a scope declares. -/
inductive Question where
  | isDeclared (name : String)
  | isImplemented (name : String)
deriving DecidableEq, Repr, Inhabited

/-- The answer of a scope to a question. -/
def Scope.answers (scope : Scope) : Question → Bool
  | .isDeclared name => scope.declared.contains name
  | .isImplemented name => scope.implemented.contains name

/-- A statement may ask a question: a function without a body whether it is implemented, an export of names whether
    they are declared. Exports and `declare`s ask what the statement inside them asks. -/
inductive Asks (src : Source) : Node → Question → Prop where
  | signature {n : Node} {name : String} (form : StatementForm.ofKind? n.kind = some .functionSignature)
      (named : nameIn src n = .ok name) : Asks src n (.isImplemented name)
  | listed {n clause spec : Node} {name : String} (form : StatementForm.ofKind? n.kind = some .exporting)
      (declaration : n.field? "declaration" = none) (source : n.field? "source" = none)
      (listing : n.child? ["export_clause"] = some clause) (among : spec ∈ clause.namedOf ["export_specifier"])
      (named : nameIn src spec = .ok name) : Asks src n (.isDeclared name)
  | byDefault {n value : Node} {name : String} (form : StatementForm.ofKind? n.kind = some .exporting)
      (declaration : n.field? "declaration" = none) (source : n.field? "source" = none)
      (holds : n.field? "value" = some value) (identifier : value.kind = "identifier")
      (text : src.textOf value = .ok name) : Asks src n (.isDeclared name)
  | exported {n inner : Node} {q : Question} (form : StatementForm.ofKind? n.kind = some .exporting)
      (wraps : n.field? "declaration" = some inner) (asks : Asks src inner q) : Asks src n q
  | ambient {n inner : Node} {q : Question} (form : StatementForm.ofKind? n.kind = some .ambient)
      (wraps : n.named.head? = some inner) (asks : Asks src inner q) : Asks src n q

section Congruence

variable {α β : Type} {s : Surroundings} {scope scope' : Scope} {n : Node}

/-- A walk may go on differently with values that it never comes to. -/
theorem Walk.bind_congr {x : Walk α} {f g : α → Walk β} {R : α → Prop}
    (ensures : Walk.Ensures (fun _ => True) (fun _ => True) R x) (same : ∀ a, R a → f a = g a) :
    x >>= f = x >>= g := by
  funext l
  cases ended : (x l).result with
  | error e => simp only [Bind.bind, Walk.bind, ended]
  | ok a => rw [Walk.bind_eq_of_ok ended, Walk.bind_eq_of_ok ended, same a ((ensures l).value a ended)]

/-- Walks that agree on every item agree on the list. -/
theorem Walk.forEach_congr {f g : α → Walk Unit} {as : List α} (same : ∀ a ∈ as, f a = g a) :
    Walk.forEach f as = Walk.forEach g as := by
  induction as with
  | nil => rfl
  | cons a as ih =>
      rw [Walk.forEach, Walk.forEach, same a List.mem_cons_self, ih fun b mem => same b (List.mem_cons_of_mem a mem)]

theorem readName_ensures {D : Declaration → Prop} {E : LocalExport → Prop} (s : Surroundings) (n : Node) :
    Walk.Ensures D E (fun name => nameIn s.source n = .ok name) (s.readOrEmpty (n.field? "name")) := by
  apply reading_ensures
  intro imports name ended
  unfold nameIn
  cases named : n.field? "name" with
  | none =>
      rw [named] at ended
      exact ended
  | some target =>
      rw [named] at ended
      exact ended

/-- The first of the names of an export specifier is the name of the node. -/
theorem exportedNames_localName {D : Declaration → Prop} {E : LocalExport → Prop} (s : Surroundings) (spec : Node) :
    Walk.Ensures D E (fun names => nameIn s.source spec = .ok names.1) (exportedNames s spec) := by
  apply Walk.Ensures.bind (readName_ensures s spec)
  intro name named
  cases spec.field? "alias" with
  | none => exact .pure named
  | some renamed => exact .bind (read_ensures s renamed) fun _ _ => .pure named

/-- A function signature asks its scope only whether its own name is implemented. -/
theorem processFunctionSignature_congr (isExported isDefault : Bool)
    (agree : ∀ name, nameIn s.source n = .ok name → scope.implemented.contains name = scope'.implemented.contains name) :
    processFunctionSignature s scope n isExported isDefault =
      processFunctionSignature s scope' n isExported isDefault := by
  apply Walk.bind_congr (readName_ensures s n)
  intro name named
  rw [agree name named]

/-- A default export asks its scope only about the name that it exports. -/
theorem processDefaultValue_congr {value : Node}
    (agree : value.kind = "identifier" → ∀ name, s.source.textOf value = .ok name →
      scope.declared.contains name = scope'.declared.contains name) :
    processDefaultValue s scope n value = processDefaultValue s scope' n value := by
  unfold processDefaultValue
  split
  · rfl
  · split
    · rfl
    · split
      next identifier =>
        apply Walk.bind_congr (read_ensures s value)
        intro name text
        rw [agree identifier name text]
      next => rfl

/-- An export clause asks its scope only about the names in it. -/
theorem processExportClause_congr {clause : Node}
    (agree : ∀ spec ∈ clause.namedOf ["export_specifier"], ∀ name, nameIn s.source spec = .ok name →
      scope.declared.contains name = scope'.declared.contains name) :
    processExportClause s scope n clause = processExportClause s scope' n clause := by
  apply Walk.forEach_congr
  intro spec among
  apply Walk.bind_congr (exportedNames_localName s spec)
  rintro ⟨localName, exportedName⟩ named
  dsimp only
  rw [agree spec among localName named]

/-- A statement does the same under scopes that answer its questions alike. A broken one asks none. -/
theorem processStatement_congr {n : Node} (isExported isDefault : Bool)
    (agree : isBroken n = false → ∀ q, Asks s.source n q → scope.answers q = scope'.answers q) :
    processStatement s scope n isExported isDefault = processStatement s scope' n isExported isDefault := by
  rw [processStatement, processStatement]
  split
  next => rfl
  next unbroken =>
    replace agree := agree (Bool.eq_false_iff.2 unbroken)
    split
    next => rfl
    next form known =>
      congr 1
      rw [processForm_eq, processForm_eq]
      cases form with
      | exporting =>
          dsimp only
          rw [processExport_eq, processExport_eq]
          cases wraps : n.field? "declaration" with
          | some inner =>
              have lighter := Node.weight_lt_of_field? wraps
              exact processStatement_congr true _ fun _ q asks => agree q (.exported known wraps asks)
          | none =>
              dsimp only
              split
              next => rfl
              next source =>
                split
                next value _ _ holds _ =>
                  apply processDefaultValue_congr
                  intro identifier name text
                  exact agree (.isDeclared name) (.byDefault known wraps source holds identifier text)
                next clause listing _ =>
                  apply processExportClause_congr
                  intro spec among name named
                  exact agree (.isDeclared name) (.listed known wraps source listing among named)
                next => rfl
      | ambient =>
          dsimp only
          cases wraps : n.named.head? with
          | none => rfl
          | some inner =>
              have lighter := Node.weight_lt_of_mem_named (List.mem_of_head? wraps)
              dsimp only
              rw [processStatement_congr isExported isDefault fun _ q asks => agree q (.ambient known wraps asks)]
      | functionSignature =>
          apply processFunctionSignature_congr
          intro name named
          exact agree (.isImplemented name) (.signature known named)
      | _ => rfl
termination_by n.weight

end Congruence

/-!
### A statement that is only logged
-/

section Silence

variable {α β : Type}

/-- Two walks leave behind the same tables, declarations, marks and results; they may log different events. -/
structure Outcome.SameButEvents (o o' : Outcome α) : Prop where
  links : o.links = o'.links
  declarations : o.declarations = o'.declarations
  exports : o.exports = o'.exports
  result : o.result = o'.result

/-- Walks that differ in their events only still do inside a namespace. -/
theorem Outcome.SameButEvents.within {x y : Walk Unit} {l : Links} (same : (x l).SameButEvents (y l))
    (finish : List LocalExport → List Declaration → List Declaration) :
    (Walk.within finish x l).SameButEvents (Walk.within finish y l) := by
  obtain ⟨links, declarations, exports, result⟩ := same
  refine ⟨links, rfl, rfl, ?_⟩
  simp only [Walk.within, declarations, exports, result]

/-- Walks that go on in ways that differ in their events only differ in their events only. -/
theorem Walk.sameButEvents_bind {x : Walk α} {f g : α → Walk β} (same : ∀ a l, (f a l).SameButEvents (g a l))
    (l : Links) : ((x >>= f) l).SameButEvents ((x >>= g) l) := by
  cases ended : (x l).result with
  | error e =>
      simp only [Bind.bind, Walk.bind, ended]
      exact ⟨rfl, rfl, rfl, rfl⟩
  | ok a =>
      have next := same a (x l).links
      rw [Walk.bind_eq_of_ok ended, Walk.bind_eq_of_ok ended]
      exact ⟨next.links, congrArg ((x l).declarations ++ ·) next.declarations,
        congrArg ((x l).exports ++ ·) next.exports, next.result⟩

/-- A step that does nothing but log may be left out. The induction is on the steps before it. -/
theorem Walk.forEach_sameButEvents {f : α → Walk Unit} {a : α}
    (silent : ∀ l, (f a l).SameButEvents { links := l, result := .ok () }) (before after : List α) (l : Links) :
    (Walk.forEach f (before ++ a :: after) l).SameButEvents (Walk.forEach f (before ++ after) l) := by
  induction before generalizing l with
  | nil =>
      obtain ⟨links, declarations, exports, result⟩ := silent l
      rw [List.nil_append, List.nil_append, Walk.forEach, Walk.bind_eq_of_ok result]
      rw [links, declarations, exports]
      exact ⟨rfl, rfl, rfl, rfl⟩
  | cons b before ih => exact Walk.sameButEvents_bind (fun _ => ih) l

/-- A broken statement that can be read is only logged. -/
theorem processStatement_broken {s : Surroundings} {scope : Scope} {n : Node} (readable : s.source.Readable n)
    (broken : isBroken n = true) (isExported isDefault : Bool) (l : Links) :
    (processStatement s scope n isExported isDefault l).SameButEvents { links := l, result := .ok () } := by
  obtain ⟨text, read⟩ := readable n .here
  rw [processStatement, if_pos broken, excerpt, Surroundings.read_eq read, Walk.pure_bind]
  exact ⟨rfl, rfl, rfl, rfl⟩

end Silence

/-!
### The scan ahead, with and without a statement
-/

section Scan

variable {src : Source} {before after : List Node} {body n : Node}

/-- The names of two scopes together. -/
def Scope.union (scope scope' : Scope) : Scope :=
  { declared := scope.declared ++ scope'.declared, implemented := scope.implemented ++ scope'.implemented }

/-- Two scopes together answer yes where one of them does. -/
theorem Scope.answers_union (scope scope' : Scope) (q : Question) :
    (scope.union scope').answers q = (scope.answers q || scope'.answers q) := by
  cases q <;> simp [answers, union]

/-- The same node with other children. -/
def Node.withChildren (n : Node) (children : List Node) : Node := { n with children }

/-- A traversal that succeeded, cut at one item: the part before it, the item and the part behind it. -/
theorem mapM_append_cons_eq_ok {α β ε : Type} {f : α → Except ε β} {as cs : List α} {a : α} {bs : List β}
    (done : (as ++ a :: cs).mapM f = .ok bs) :
    ∃ xs y zs, as.mapM f = .ok xs ∧ f a = .ok y ∧ cs.mapM f = .ok zs ∧ bs = xs ++ y :: zs := by
  rw [List.mapM_append, List.mapM_cons] at done
  obtain ⟨xs, first, done⟩ := exists_of_bind_eq_ok done
  obtain ⟨rest, more, done⟩ := exists_of_bind_eq_ok done
  obtain ⟨y, middle, more⟩ := exists_of_bind_eq_ok more
  obtain ⟨zs, last, more⟩ := exists_of_bind_eq_ok more
  cases more
  cases done
  exact ⟨xs, y, zs, first, middle, last, rfl⟩

/-- The scan of a body answers yes where the scan of one statement does, or the scan of the others. -/
theorem prescan_without {scope : Scope} (holds : body.children = before ++ n :: after) (named : n.isNamed = true)
    (scanned : prescan src body = .ok scope) :
    ∃ part rest, statementScope src n = .ok part ∧ prescan src (body.withChildren (before ++ after)) = .ok rest ∧
      ∀ q, scope.answers q = (rest.union part).answers q := by
  obtain ⟨scopes, done, found⟩ := exists_of_bind_eq_ok scanned
  cases found
  have statements : body.named = before.filter (·.isNamed) ++ n :: after.filter (·.isNamed) := by
    simp [Node.named, holds, named]
  rw [statements] at done
  obtain ⟨xs, part, zs, first, middle, last, rfl⟩ := mapM_append_cons_eq_ok done
  have others : (body.withChildren (before ++ after)).named.mapM (statementScope src) = .ok (xs ++ zs) := by
    simp only [Node.named, Node.withChildren, List.filter_append, List.mapM_append, first, last]
    rfl
  have scannedOthers : prescan src (body.withChildren (before ++ after)) =
      .ok ⟨(xs ++ zs).flatMap (·.declared), (xs ++ zs).flatMap (·.implemented)⟩ := by
    rw [prescan, others]
    rfl
  refine ⟨part, _, middle, scannedOthers, fun q => ?_⟩
  cases q <;> simp only [Scope.answers, Scope.union, List.flatMap_append, List.flatMap_cons, List.contains_append] <;>
    ac_rfl

end Scan

/-- A statement that is passed over for a syntax error acts on its scope through the names that the scan ahead found
    in it, and in no other way: walking the other statements with these names added leaves behind the same. Taking it
    out changes neither declarations nor tables if, whatever another statement asks, the names of the broken one make
    no difference to the answer. -/
theorem processScope_without_broken (s : Surroundings) (body broken : Node) (before after : List Node) (links : Links)
    (holds : body.children = before ++ broken :: after) (named : broken.isNamed = true)
    (skipped : isBroken broken = true) (readable : s.source.Readable body) :
    let rest := body.withChildren (before ++ after)
    ∃ part scope, statementScope s.source broken = .ok part ∧ prescan s.source rest = .ok scope ∧
      (processScope s body links).SameButEvents
        (Walk.within (applyExports s.qualify) (statements s (scope.union part) rest) links) ∧
      ((∀ n ∈ rest.named, isBroken n = false → ∀ q, Asks s.source n q → part.answers q = true →
          scope.answers q = true) →
        (processScope s body links).SameButEvents (processScope s rest links)) := by
  intro rest
  obtain ⟨whole, scanned⟩ := prescan_ok readable
  obtain ⟨part, scope, found, others, answers⟩ := prescan_without holds named scanned
  have child : broken ∈ body.children := by simp [holds]
  have bodyNamed : body.named = before.filter (·.isNamed) ++ broken :: after.filter (·.isNamed) := by
    simp [Node.named, holds, named]
  have restNamed : rest.named = before.filter (·.isNamed) ++ after.filter (·.isNamed) := by
    simp [rest, Node.named, Node.withChildren]
  have dropped : (statements s whole body links).SameButEvents (statements s whole rest links) := by
    unfold statements
    rw [bodyNamed, restNamed]
    apply Walk.forEach_sameButEvents
    exact processStatement_broken (readable.child child) skipped false false
  have renamed : statements s whole rest = statements s (scope.union part) rest := by
    apply Walk.forEach_congr
    intro n _
    exact processStatement_congr false false fun _ q _ => answers q
  have channel : (processScope s body links).SameButEvents
      (Walk.within (applyExports s.qualify) (statements s (scope.union part) rest) links) := by
    rw [processScope_eq_within scanned, ← renamed]
    exact dropped.within _
  refine ⟨part, scope, found, others, channel, fun unasked => ?_⟩
  have same : statements s (scope.union part) rest = statements s scope rest := by
    apply Walk.forEach_congr
    intro n statement
    apply processStatement_congr
    intro unbroken q asks
    rw [Scope.answers_union]
    cases answer : part.answers q with
    | false => rw [Bool.or_false]
    | true => rw [unasked n statement unbroken q asks answer, Bool.true_or]
  rw [processScope_eq_within others, ← same]
  exact channel

/-- A signature of `a`, from byte `start` on. -/
def signatureTree (start : Nat) : Node :=
  .construct "function_signature" none start (start + 19)
    [.construct "identifier" (some "name") (start + 9) (start + 10) [],
     .construct "formal_parameters" (some "parameters") (start + 10) (start + 12) [],
     .construct "type_annotation" (some "return_type") (start + 12) (start + 18)
      [.construct "predefined_type" none (start + 14) (start + 18) []]]

/-- A function with unreadable text in its body, from byte `start` on. -/
def brokenTree (start : Nat) : Node :=
  .flawed (.construct "function_declaration" none start (start + 20)
    [.construct "identifier" (some "name") (start + 9) (start + 10) [],
     .construct "formal_parameters" (some "parameters") (start + 10) (start + 12) [],
     .flawed (.construct "statement_block" (some "body") (start + 13) (start + 20)
      [.flawed (.construct "ERROR" none (start + 15) (start + 18) [])])])

/-- The top of a file with a broken function and a signature of another one. -/
def apartFile : Surroundings := { source := ⟨"function b() { @@@ } function a(): void;"⟩, path := "a.ts" }

/-- The tree of `apartFile`. -/
def apartTree : Node := .flawed (.construct "program" none 0 40 [brokenTree 0, signatureTree 21])

/-- The signature asks for its own name, which the broken function does not declare. -/
theorem processScope_without_broken_apart :
    isBroken (brokenTree 0) = true ∧
      (processScope apartFile apartTree {}).SameButEvents
        (processScope apartFile (apartTree.withChildren [signatureTree 21]) {}) := by
  obtain ⟨part, scope, found, _, _, unasked⟩ := processScope_without_broken apartFile apartTree (brokenTree 0) []
    [signatureTree 21] {} rfl rfl (by decide +kernel) (by decide +kernel)
  have broken : (statementScope apartFile.source (brokenTree 0)).toOption = some ⟨["b"], ["b"]⟩ := by decide +kernel
  rw [found] at broken
  cases broken
  refine ⟨by decide +kernel, unasked fun n statement _ q asks answer => ?_⟩
  cases List.mem_singleton.1 statement
  have name : (nameIn apartFile.source (signatureTree 21)).toOption = some "a" := by decide +kernel
  cases asks with
  | signature form named =>
      rw [named] at name
      cases name
      exact absurd answer (by decide)
  | listed form => cases form
  | byDefault form => cases form
  | exported form => cases form
  | ambient form => cases form

/-- The top of a file with a signature and its implementation, which is broken. -/
def overloadFile : Surroundings := { source := ⟨"function a(): void; function a() { @@@ }"⟩, path := "a.ts" }

/-- The tree of `overloadFile`. -/
def overloadTree : Node := .flawed (.construct "program" none 0 40 [signatureTree 0, brokenTree 20])

/-- The signature gives way to an implementation that is passed over: both are lost, though without the broken one the
    signature would be given out. -/
theorem lost_overloadTree :
    overloadFile.source.Readable overloadTree ∧ overloadTree.children = [signatureTree 0] ++ brokenTree 20 :: [] ∧
      (brokenTree 20).isNamed = true ∧ isBroken (brokenTree 20) = true ∧
      ¬ (processScope overloadFile overloadTree {}).result =
        (processScope overloadFile (overloadTree.withChildren [signatureTree 0]) {}).result := by
  refine ⟨by decide +kernel, rfl, rfl, by decide +kernel, fun same => ?_⟩
  have lost : (processScope overloadFile overloadTree {}).result.toOption.map List.length = some 0 := by
    decide +kernel
  have kept : (processScope overloadFile (overloadTree.withChildren [signatureTree 0]) {}).result.toOption.map
      List.length = some 1 := by
    decide +kernel
  rw [same, kept] at lost
  cases lost

end Outline
