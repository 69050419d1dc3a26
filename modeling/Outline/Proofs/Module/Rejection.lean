/-
Module: Outline.Proofs.Module.Rejection
Layer: Proofs
Purpose: Files that are not accepted against what could be outlined of them. A file is accepted if a statement at its
  top is well formed, while the walk passes over a statement with an error only if it declares no namespace. So
  whatever the walk would give out of a file that is not accepted comes from statements with errors that declare
  namespaces, and each of these that has a name would be given out.
Main exports: Salvaged, Enters, not_isWellFormed_of_unparsable, processStatement_salvaged,
  processScope_of_unparsable
-/
import Outline.Proofs.Module.LocalExports
import Outline.Tree.Fault

namespace Outline

/-- A statement with an error that is walked all the same, for the namespace it declares. -/
def Salvaged (n : Node) : Prop := n.hasError = true ∧ n.namespaceOf?.isSome = true

instance (n : Node) : Decidable (Salvaged n) := inferInstanceAs (Decidable (_ ∧ _))

/-- The walk of a statement enters a namespace: itself, or the one that it wraps. -/
inductive Enters : Node → Node → Prop where
  | bare {n : Node} (form : StatementForm.ofKind? n.kind = some .nameSpace) : Enters n n
  | expression {n ns : Node} (form : StatementForm.ofKind? n.kind = some .expression)
      (wraps : n.child? Node.namespaceKinds = some ns) : Enters n ns
  | ambient {n ns : Node} (form : StatementForm.ofKind? n.kind = some .ambient) (wraps : n.named.head? = some ns)
      (inner : StatementForm.ofKind? ns.kind = some .nameSpace) : Enters n ns
  | exported {n inner ns : Node} (form : StatementForm.ofKind? n.kind = some .exporting)
      (wraps : n.field? "declaration" = some inner) (enters : Enters inner ns) : Enters n ns

section Rejected

variable {src : Source} {root n : Node} {fault : SyntaxFault}

/-- A tree that is not accepted has no well-formed statement, unless it is an error as a whole. -/
theorem not_isWellFormed_of_unparsable (rejected : checkTree src root = .error (.unparsable fault))
    (parsed : root.kind ≠ "ERROR") (statement : n ∈ root.named) : n.isWellFormed = false := by
  have hopeless := (checkTree_eq_unparsable_iff.1 rejected).1
  simp only [isHopeless, beq_eq_false_iff_ne.2 parsed, Bool.false_or, Bool.and_eq_true, Bool.not_eq_true'] at hopeless
  simpa using List.any_eq_false.1 hopeless.2 n statement

end Rejected

/-!
### What is not salvaged gives out nothing
-/

variable {s : Surroundings} {scope : Scope} {n : Node}

/-- Comments and the like are passed over without a word. -/
theorem processStatement_trivia (trivial : n.kind ∈ Node.triviaKinds) (whole : n.kind ≠ "ERROR")
    (isExported isDefault : Bool) (unbroken : isBroken n = false) :
    processStatement s scope n isExported isDefault = pure () := by
  rw [processStatement, if_neg (by simp [unbroken])]
  simp only [Node.triviaKinds, List.mem_cons, List.not_mem_nil, or_false] at trivial
  rcases trivial with kind | kind | kind | kind
  · exact absurd kind whole
  all_goals
    rw [kind]
    rfl

/-- A statement that is not well formed gives out declarations only if it is salvaged. -/
theorem processStatement_salvaged (bad : n.isWellFormed = false) (isExported isDefault : Bool) :
    Walk.Ensures (fun d => Salvaged n ∧ GivenBy s n d) scope.Declares (fun _ => True)
      (processStatement s scope n isExported isDefault) := by
  by_cases salvaged : Salvaged n
  · apply (processStatement_ensures s scope n isExported isDefault).mono
    exact fun d given => ⟨salvaged, given⟩
  · cases broken : isBroken n with
    | true =>
        rw [processStatement, if_pos broken]
        apply Walk.Ensures.after
        · exact .bind (read_ensures s n) fun _ _ => .pure trivial
        · exact fun raw => .note _
    | false =>
        -- no error is left to be reported, so that the statement can only lack content
        have whole : n.kind ≠ "ERROR" := by
          intro kind
          simp [isBroken, kind] at broken
        have faultless : n.hasError = false := by
          cases error : n.hasError with
          | false => rfl
          | true =>
              have wraps : n.namespaceOf?.isSome = true := by simpa [isBroken, error, whole] using broken
              exact absurd ⟨error, wraps⟩ salvaged
        have trivial : n.kind ∈ Node.triviaKinds := by
          simpa [Node.isWellFormed, faultless] using bad
        rw [processStatement_trivia trivial whole isExported isDefault broken]
        exact .pure True.intro

/-!
### What is salvaged is given out
-/

namespace Enters

variable {ns : Node}

/-- A statement through which a namespace is entered is one that wraps a namespace. -/
theorem isSome_namespaceOf? (enters : Enters n ns) : n.namespaceOf?.isSome = true := by
  induction enters with
  | bare form => rw [Node.namespaceOf?_eq, form]; rfl
  | expression form wraps => rw [Node.namespaceOf?_eq, form]; simp [wraps]
  | @ambient n ns form wraps inner =>
      have child := Node.mem_children_of_mem_named (List.mem_of_head? wraps)
      have kind : Node.namespaceKinds.contains ns.kind :=
        List.contains_iff_mem.2 (StatementForm.ofKind?_eq_some_iff.1 inner)
      rw [Node.namespaceOf?_eq, form]
      exact List.find?_isSome.2 ⟨ns, child, kind⟩
  | exported form wraps _ ih => rw [Node.namespaceOf?_eq, form]; simpa [wraps] using ih

/-- A statement through which a namespace is entered has one of the forms that are walked. -/
theorem isSome_form (enters : Enters n ns) : (StatementForm.ofKind? n.kind).isSome = true := by
  cases enters <;> simp_all

/-- A statement through which a namespace is entered is not skipped for its faults. -/
theorem unbroken (enters : Enters n ns) : isBroken n = false := by
  have whole : n.kind ≠ "ERROR" := by
    intro kind
    have known := enters.isSome_form
    rw [kind] at known
    cases known
  simp [isBroken, whole, enters.isSome_namespaceOf?]

/-- The namespace that is entered is readable where the statement is. -/
theorem readable {src : Source} (enters : Enters n ns) (readable : src.Readable n) : src.Readable ns := by
  induction enters with
  | bare => exact readable
  | expression _ wraps => exact readable.child (Node.mem_children_of_child? wraps)
  | ambient _ wraps => exact readable.child (Node.mem_children_of_mem_named (List.mem_of_head? wraps))
  | exported _ wraps _ ih => exact ih (readable.child (Node.mem_children_of_field? wraps))

/-- Through its wrappers, a statement gives out what the namespace it enters gives out. -/
theorem declarations_eq (enters : Enters n ns) (s : Surroundings) (scope : Scope) (isExported isDefault : Bool) :
    ∃ flag, ∀ l, (processStatement s scope n isExported isDefault l).declarations =
      (processNamespace s ns flag l).declarations := by
  induction enters generalizing isExported isDefault with
  | @bare n form =>
      refine ⟨isExported, fun l => ?_⟩
      rw [processStatement, if_neg (by simp [(bare form).unbroken]), form]
      simp only [Walk.absorb_declarations, processForm_eq]
  | @expression n ns form wraps =>
      refine ⟨isExported, fun l => ?_⟩
      rw [processStatement, if_neg (by simp [(expression form wraps).unbroken]), form]
      simp only [Walk.absorb_declarations, processForm_eq, wraps]
  | @ambient n ns form wraps inner =>
      refine ⟨isExported, fun l => ?_⟩
      rw [processStatement, if_neg (by simp [(ambient form wraps inner).unbroken]), form]
      simp only [Walk.absorb_declarations, processForm_eq, wraps, inner, Option.isSome_some, if_true]
      rw [processStatement, if_neg (by simp [(bare inner).unbroken]), inner]
      simp only [Walk.absorb_declarations, processForm_eq]
  | @exported n inner ns form wraps enters ih =>
      obtain ⟨flag, same⟩ := ih true (n.hasChild "default")
      refine ⟨flag, fun l => ?_⟩
      rw [processStatement, if_neg (by simp [(exported form wraps enters).unbroken]), form]
      simp only [Walk.absorb_declarations, processForm_eq, processExport_eq, wraps, same]

end Enters

/-- A declaration given out with the text of a node at hand. -/
theorem emitWith_eq {text : String} (read : s.source.textOf n = .ok text) (d : Declaration) (l : Links) :
    emitWith s n d l =
      { links := l
        declarations := [d.mapHead fun h => { h with dependencies := findDependencies l.imports text }]
        result := .ok () } := by
  have reads : s.reading (·.dependencies n) l = { links := l, result := .ok (findDependencies l.imports text) } := by
    simp only [Surroundings.reading, Walk.reading, Site.dependencies, Site.read, Reading.read, Surroundings.site, read]
    rfl
  simp only [emitWith, Bind.bind, Walk.bind, reads]
  rfl

/-- A scope that can be read is walked to its end. -/
theorem processScope_succeeds {body : Node} (readable : s.source.Readable body) : (processScope s body).Succeeds := by
  obtain ⟨scope, scanned⟩ := prescan_ok readable
  exact fun l => ⟨_, processScope_result readable scanned l⟩

/-- The declaration of a namespace under a name. -/
def IsNamespace (name : String) (d : Declaration) : Prop := d.head.name = name ∧ d.kindName = "namespace"

/-- A namespace with a name that is not a string is given out. -/
theorem processNamespace_gives {ns target : Node} {name : String} (readable : s.source.Readable ns)
    (named : ns.field? "name" = some target) (plain : target.kind ≠ "string")
    (text : s.source.textOf target = .ok name) (isExported : Bool) (l : Links) :
    ∃ d ∈ (processNamespace s ns isExported l).declarations, IsNamespace (s.qualify (Text.compact name)) d := by
  obtain ⟨code, read⟩ := readable ns .here
  have given : ∀ {members : Walk (List Declaration)}, members.Succeeds →
      ∃ d ∈ ((members >>= fun ds =>
        emitWith s ns (namespaceDeclaration s ns (Text.compact name) isExported ds)) l).declarations,
          IsNamespace (s.qualify (Text.compact name)) d := by
    intro members succeeds
    obtain ⟨ds, ended⟩ := succeeds l
    rw [Walk.bind_eq_of_ok ended, emitWith_eq read]
    exact ⟨_, List.mem_append_right _ List.mem_cons_self, rfl, rfl⟩
  rw [processNamespace_eq, named]
  dsimp only
  rw [if_neg plain, Surroundings.read_eq text, Walk.pure_bind]
  cases holds : ns.field? "body" with
  | none => exact given (.pure [])
  | some body =>
      have below := readable.child (Node.mem_children_of_field? holds)
      exact given (processScope_succeeds (s := s.enter _) below)

/-!
### Files
-/

/-- Marking leaves the kind of a declaration as it is. -/
theorem kindName_applyExportsTo (qualify : String → String) (es : List LocalExport) (d : Declaration) :
    (applyExportsTo qualify es d).kindName = d.kindName := by
  unfold applyExportsTo
  split
  · rfl
  · cases d <;> rfl

/-- Export marks do not hide where a declaration comes from. -/
theorem GivenBy.applyExportsTo {d : Declaration} (given : GivenBy s n d) (es : List LocalExport) :
    GivenBy s n (applyExportsTo s.qualify es d) := by
  cases given with
  | reExport source => exact .reExport (by rwa [applyExportsTo_reExportSource?])
  | under gives named => exact .under gives (by rwa [applyExportsTo_name])
  | byDefault isExported isDefault =>
      by_cases source : d.reExportSource?.isSome
      · exact .reExport (by rwa [applyExportsTo_reExportSource?])
      · obtain ⟨exported, default⟩ := applyExportsTo_flags s.qualify es (Option.not_isSome_iff_eq_none.1 source)
        exact .byDefault (by simp [exported, isExported]) (by simp [default, isDefault])

/-- The top of a file that is one namespace, with a variable and an unreadable text in it. -/
def gapFile : Surroundings := { source := ⟨"namespace N { const ok = 1; @@@ }\n"⟩, path := "a.ts" }

/-- The tree of `gapFile`: the error is reported in everything around the unreadable text. -/
def gapTree : Node :=
  .flawed (.construct "program" none 0 34
    [.flawed (.construct "expression_statement" none 0 33
      [.flawed (.construct "internal_module" none 0 33
        [.construct "identifier" (some "name") 10 11 [],
         .flawed (.construct "statement_block" (some "body") 12 33
          [.construct "lexical_declaration" none 14 27
            [.construct "variable_declarator" none 20 26
              [.construct "identifier" (some "name") 20 22 [], .construct "number" (some "value") 25 26 []]],
           .flawed (.construct "ERROR" none 28 31 [])])])])])

/-- Why `gapFile` is not accepted. -/
def gapFault : SyntaxFault := .unreadable 1 29 (some "@@@")

/-- The tree with a gap in the body of its namespace does not pass the check of the parser. -/
theorem checkTree_gapTree : checkTree gapFile.source gapTree = .error (.unparsable gapFault) :=
  checkTree_eq_unparsable_iff.2 (by decide +kernel)

end Outline
