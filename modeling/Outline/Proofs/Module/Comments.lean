/-
Module: Outline.Proofs.Module.Comments
Layer: Proofs
Purpose: Comments and the outline of a file. A file is outlined the same without its comments, as long as no node goes
  by a comment: the check of the tree, the scan ahead, the collection of specifiers and the walk all pass comments
  over. A `declare` goes by its first named child, and a comment there hides the declaration.
Main exports: collectSpecifiers_eq, processScope_uncommented, extract_uncommented, extract_of_commentAdded,
  hidden_by_comment
-/
import Outline.Module.Extract
import Outline.Proofs.Declaration.Uncommented
import Outline.Proofs.Module.Equations

namespace Outline

open Node
open Specifier (Aliases Resolved)

variable (src : Source) (n : Node)

/-!
### Faults
-/

theorem isFault_uncommented : n.uncommented.isFault = n.isFault := by
  rw [isFault, isFault, kind_uncommented, isMissing_uncommented]

/-- A comment is no fault. -/
theorem firstFault?_of_remark {n : Node} (remark : n.isRemark = true) : n.firstFault? = none := by
  have known := isRemark_iff.1 remark
  simp [firstFault?_eq, isFault, known.kind, known.isMissing, known.hasError]

mutual

theorem firstFault?_uncommented : (n : Node) → n.uncommented.firstFault? = n.firstFault?.map uncommented
  | ⟨kind, start, stop, isNamed, isMissing, hasError, field, children⟩ => by
    have inside := fun keepsFirst => firstFaultIn?_uncommented keepsFirst children
    rw [firstFault?_eq, firstFault?_eq, isFault_uncommented, hasError_uncommented, children_uncommented]
    simp only [inside]
    split
    · rfl
    · split <;> rfl

theorem firstFaultIn?_uncommented (keepsFirst : Bool) :
    (cs : List Node) → firstFaultIn? (uncommentedAll keepsFirst cs) = (firstFaultIn? cs).map uncommented
  | [] => rfl
  | c :: cs => by
    rw [uncommentedAll, firstFaultIn?]
    split
    next dropped =>
      rw [firstFaultIn?_uncommented false cs, firstFault?_of_remark (Bool.and_eq_true_iff.1 dropped).1]
    next =>
      rw [firstFaultIn?, firstFault?_uncommented c, firstFaultIn?_uncommented _ cs]
      cases c.firstFault? <;> rfl

end

/-- A fault is described in the same way without comments. -/
theorem describeFault_uncommented : describeFault src n.uncommented = describeFault src n := by
  rw [describeFault, describeFault, firstFault?_uncommented]
  cases n.firstFault? with
  | none => rfl
  | some bad =>
      simp only [Option.map_some, isMissing_uncommented, kind_uncommented, Source.line_uncommented,
        Source.column, start_uncommented, Source.textOf_uncommented]

/-- A comment is not what makes a file usable. -/
theorem any_isWellFormed_parts : n.named.any isWellFormed = n.parts.any isWellFormed := by
  rw [parts, List.any_filter]
  refine List.any_congr rfl fun c => ?_
  cases remark : c.isRemark with
  | false => rfl
  | true => simp [isWellFormed, triviaKinds, (isRemark_iff.1 remark).kind]

/-- Whether a tree is accepted, and the report if it is not, do not depend on comments. -/
theorem checkTree_uncommented : checkTree src n.uncommented = checkTree src n := by
  have wellFormed : ∀ c : Node, c.uncommented.isWellFormed = c.isWellFormed := fun c => by
    rw [isWellFormed, isWellFormed, kind_uncommented, hasError_uncommented]
  have usable : n.uncommented.named.any isWellFormed = n.named.any isWellFormed := by
    rw [any_isWellFormed_parts, any_isWellFormed_parts, parts_uncommented, List.any_map]
    exact List.any_congr rfl wellFormed
  rw [checkTree, checkTree, isHopeless, isHopeless, kind_uncommented, hasError_uncommented, usable,
    describeFault_uncommented]

/-!
### Specifiers
-/

/-- A specifier is read in the same way without comments. -/
theorem specifierText?_uncommented (o : Option Node) :
    specifierText? src (o.map uncommented) = specifierText? src o :=
  option_uncommented fun c _ => by rw [specifierText?, specifierText?, specifierText, specifierText,
    Source.textOf_uncommented]

theorem statementSpecifier_uncommented : statementSpecifier src n.uncommented = statementSpecifier src n := by
  rw [statementSpecifier, statementSpecifier, kind_uncommented, field?_uncommented,
    child?_uncommented n (by decide), specifierText?_uncommented]
  cases n.child? ["import_require_clause"] with
  | none => rfl
  | some clause =>
      simp only [Option.map_some, field?_uncommented, child?_uncommented clause (by decide : "comment" ∉ ["string"]),
        ← Option.map_or, specifierText?_uncommented]

/-- A statement leads to the same namespace without comments. -/
theorem namespaceOf?_uncommented (n : Node) : n.uncommented.namespaceOf? = n.namespaceOf?.map uncommented := by
  rw [Node.namespaceOf?_eq, Node.namespaceOf?_eq n, kind_uncommented, child?_uncommented n (by decide),
    field?_uncommented]
  split
  · rfl
  · rfl
  · rfl
  · cases found : n.field? "declaration" with
    | none => rfl
    | some declaration =>
        have lighter := weight_lt_of_field? found
        exact namespaceOf?_uncommented declaration
  · rfl
termination_by n.weight

theorem namespaceBody?_uncommented : n.uncommented.namespaceBody? = n.namespaceBody?.map uncommented := by
  rw [namespaceBody?, namespaceBody?, namespaceOf?_uncommented]
  cases n.namespaceOf? with
  | none => rfl
  | some ns => exact field?_uncommented ns "body"

theorem map_val_namespaceBodyBelow? : n.namespaceBodyBelow?.map (·.1) = n.namespaceBody? := by
  simp [namespaceBodyBelow?]

/-- The specifiers in the namespace that a statement declares, if it mentions none itself. -/
def nestedSpecifiers (src : Source) (n : Node) : Except Undecodable (List String) := do
  match ← statementSpecifier src n, n.namespaceBody? with
  | none, some body => collectSpecifiers src body
  | _, _ => return []

section Pairs

variable {α β γ ε : Type} {f : α → Except ε β}

/-- A list that is read to its end has its first element read, and then the others. -/
theorem mapM_cons_eq_ok {a : α} {as : List α} {bs : List β} (done : (a :: as).mapM f = .ok bs) :
    ∃ b rest, f a = .ok b ∧ as.mapM f = .ok rest ∧ bs = b :: rest := by
  rw [List.mapM_cons] at done
  cases first : f a with
  | error e =>
      rw [first] at done
      cases done
  | ok b =>
      cases others : as.mapM f with
      | error e =>
          rw [first, others] at done
          cases done
      | ok rest =>
          rw [first, others] at done
          cases done
          exact ⟨b, rest, rfl, rfl, rfl⟩

/-- Pairing each element with what is read of it is pairing the two lists. -/
theorem mapM_pair (as : List α) : (as.mapM fun a => do return (a, ← f a)) = as.zip <$> as.mapM f := by
  induction as with
  | nil => rfl
  | cons a as ih =>
      simp only [List.mapM_cons, ih]
      cases f a with
      | error e => rfl
      | ok b => cases as.mapM f <;> rfl

theorem map_snd_zip_of_mapM {as : List α} {bs : List β} (done : as.mapM f = .ok bs) :
    (as.zip bs).map (·.2) = bs := by
  induction as generalizing bs with
  | nil =>
      cases done
      rfl
  | cons a as ih =>
      obtain ⟨b, rest, _, others, rfl⟩ := mapM_cons_eq_ok done
      rw [List.zip_cons_cons, List.map_cons, ih others]

/-- What is made of elements together with earlier results may be made with the results computed again. -/
theorem mapM_zip {as : List α} {bs : List β} (done : as.mapM f = .ok bs) (g : α × β → Except ε γ) :
    (as.zip bs).mapM g = as.mapM (fun a => do g (a, ← f a)) := by
  induction as generalizing bs with
  | nil => rfl
  | cons a as ih =>
      obtain ⟨b, rest, first, others, rfl⟩ := mapM_cons_eq_ok done
      simp only [List.zip_cons_cons, List.mapM_cons, ih others, first]
      rfl

end Pairs

/-- The specifiers of a scope: those that its statements mention, then those in its namespaces. -/
theorem collectSpecifiers_eq (scope : Node) :
    collectSpecifiers src scope = (do
      let specs ← List.filterMap id <$> scope.named.mapM (statementSpecifier src)
      let nested ← List.flatten <$> scope.named.mapM (nestedSpecifiers src)
      return specs ++ nested) := by
  rw [collectSpecifiers, ← Node.map_val_namedBelow, List.mapM_map, List.mapM_map, mapM_pair]
  simp only [Function.comp_def]
  cases done : scope.namedBelow.mapM (fun statement => statementSpecifier src statement.1) with
  | error e => rfl
  | ok specs =>
      have mentioned : (scope.namedBelow.zip specs).filterMap (·.2) = specs.filterMap id := by
        conv => rhs; rw [← map_snd_zip_of_mapM done]
        rw [List.filterMap_map]
        rfl
      have search {h : scope.Below → Except Undecodable (List String)}
          (same : ∀ statement, h statement = nestedSpecifiers src statement.1) : (do
            let nested ← scope.namedBelow.mapM h
            return specs.filterMap id ++ nested.flatten) = do
            let nested ← List.flatten <$> scope.namedBelow.mapM fun statement => nestedSpecifiers src statement.1
            return specs.filterMap id ++ nested := by
        rw [funext same]
        cases scope.namedBelow.mapM (fun statement => nestedSpecifiers src statement.1) <;> rfl
      dsimp only [Functor.map, Except.map, bind, Except.bind]
      rw [mapM_zip done, mentioned]
      refine search fun statement => ?_
      rw [nestedSpecifiers, ← map_val_namespaceBodyBelow?]
      congr 1
      funext spec
      cases spec <;> cases statement.1.namespaceBodyBelow? <;> rfl

theorem statementSpecifier_of_remark {n : Node} (remark : n.isRemark = true) :
    statementSpecifier src n = pure none := by
  rw [statementSpecifier, (isRemark_iff.1 remark).kind]
  rfl

/-- There is no namespace in a comment. -/
theorem nestedSpecifiers_of_remark {n : Node} (remark : n.isRemark = true) : nestedSpecifiers src n = pure [] := by
  have none : n.namespaceBody? = none := by
    rw [namespaceBody?, Node.namespaceOf?_eq, (isRemark_iff.1 remark).kind]
    rfl
  rw [nestedSpecifiers, statementSpecifier_of_remark src remark, none]
  rfl

/-- The specifiers of a file are those that it has without comments. -/
theorem collectSpecifiers_uncommented (n : Node) : collectSpecifiers src n.uncommented = collectSpecifiers src n := by
  have nested : ∀ c ∈ n.named, nestedSpecifiers src c.uncommented = nestedSpecifiers src c := by
    intro c mem
    rw [nestedSpecifiers, nestedSpecifiers, statementSpecifier_uncommented, namespaceBody?_uncommented]
    cases holds : c.namespaceBody? with
    | none => rfl
    | some body =>
        have lighter := weight_lt_of_mem_named mem
        have lighter' := weight_lt_of_namespaceBody? holds
        congr 1
        funext spec
        cases spec with
        | none => exact collectSpecifiers_uncommented body
        | some _ => rfl
  rw [collectSpecifiers_eq, collectSpecifiers_eq,
    mapM_named_uncommented (fun c remark => statementSpecifier_of_remark src remark) _ (by simp) n
      fun c _ => statementSpecifier_uncommented src c,
    mapM_named_uncommented (fun c remark => nestedSpecifiers_of_remark src remark) _ (by simp) n nested]
termination_by n.weight

/-!
### The scan ahead
-/

/-- What a statement wraps is the same without comments. -/
theorem unwrapped?_uncommented : unwrapped? n.uncommented = (unwrapped? n).map uncommented := by
  rw [unwrapped?, unwrapped?, kind_uncommented, field?_uncommented]
  split
  · rfl
  · split
    next kind => exact head?_named_uncommented (by simp [takesFirst, kind])
    next => rfl

theorem nameIn_uncommented : nameIn src n.uncommented = nameIn src n := by
  rw [nameIn, nameIn, field?_uncommented]
  cases n.field? "name" with
  | none => rfl
  | some name => exact Source.textOf_uncommented src name

/-- What a statement tells of a scope in advance does not depend on comments. -/
theorem statementScope_uncommented : statementScope src n.uncommented = statementScope src n := by
  rw [statementScope, statementScope, unwrapped?_uncommented]
  cases unwrapped? n with
  | none => rfl
  | some d =>
      simp only [Option.map_some, kind_uncommented, nameIn_uncommented,
        namedOf_uncommented d (by decide : "comment" ∉ ["variable_declarator"]),
        mapM_uncommented fun c _ => nameIn_uncommented src c]

/-- A comment declares nothing. -/
theorem statementScope_of_remark {n : Node} (remark : n.isRemark = true) : statementScope src n = pure {} := by
  have known := isRemark_iff.1 remark
  have itself : unwrapped? n = some n := by simp [unwrapped?, known.kind]
  simp only [statementScope, itself, nameIn, known.kind, known.field?_eq_none]
  rfl

/-- Nor does what all statements of a body tell of it. -/
theorem prescan_uncommented : prescan src n.uncommented = prescan src n := by
  have gather : ∀ body : Node, prescan src body =
      (fun scopes : List Scope => (⟨scopes.flatMap (·.declared), scopes.flatMap (·.implemented)⟩ : Scope)) <$>
        body.named.mapM (statementScope src) := fun _ => rfl
  rw [gather, gather, mapM_named_uncommented (fun c remark => statementScope_of_remark src remark) _ (by simp) n
    fun c _ => statementScope_uncommented src c]

/-!
### Statements without statements inside
-/

/-- A walk over the named children passes comments over. -/
theorem Walk.forEach_parts {f : Node → Walk Unit} (silent : ∀ c : Node, c.isRemark = true → f c = pure ())
    (cs : List Node) : Walk.forEach f cs = Walk.forEach f (cs.filter fun c => !c.isRemark) := by
  induction cs with
  | nil => rfl
  | cons c cs ih =>
      cases remark : c.isRemark with
      | true =>
          rw [List.filter_cons_of_neg (by simp [remark]), Walk.forEach, silent c remark, ← ih]
          rfl
      | false => rw [List.filter_cons_of_pos (by simp [remark]), Walk.forEach, Walk.forEach, ih]

/-- Working through nodes is the same without comments below them if it is so for each. -/
theorem Walk.forEach_uncommented {f : Node → Walk Unit} {cs : List Node} (same : ∀ c ∈ cs, f c.uncommented = f c) :
    Walk.forEach f (cs.map uncommented) = Walk.forEach f cs := by
  induction cs with
  | nil => rfl
  | cons c cs ih =>
      rw [List.forall_mem_cons] at same
      rw [List.map_cons, Walk.forEach, Walk.forEach, same.1, ih same.2]

theorem Walk.forEach_named_uncommented {f : Node → Walk Unit}
    (silent : ∀ c : Node, c.isRemark = true → f c = pure ()) (n : Node) (same : ∀ c ∈ n.named, f c.uncommented = f c) :
    Walk.forEach f n.uncommented.named = Walk.forEach f n.named := by
  calc Walk.forEach f n.uncommented.named
      = Walk.forEach f n.uncommented.parts := Walk.forEach_parts silent _
    _ = Walk.forEach f n.parts := by
        rw [parts_uncommented]
        exact Walk.forEach_uncommented fun c mem => same c (List.mem_filter.1 mem).1
    _ = Walk.forEach f n.named := (Walk.forEach_parts silent _).symm

section Steps

variable (s : Surroundings)

theorem Surroundings.read_uncommented : s.read n.uncommented = s.read n := by
  simp only [Surroundings.read, Site.read_uncommented]

theorem Surroundings.readOrEmpty_uncommented (o : Option Node) :
    s.readOrEmpty (o.map uncommented) = s.readOrEmpty o := by
  simp only [Surroundings.readOrEmpty, Site.readOrEmpty_uncommented]

theorem Source.position_uncommented : src.position n.uncommented = src.position n := by
  rw [Source.position, Source.position, start_uncommented, stop_uncommented]

/-- What is quoted of a node stays, since it is cut out by the span. -/
theorem excerpt_uncommented : excerpt s n.uncommented = excerpt s n := by
  rw [excerpt, excerpt, Surroundings.read_uncommented]

theorem noteUnknown_uncommented (context : Option String) :
    noteUnknown s n.uncommented context = noteUnknown s n context := by
  rw [noteUnknown, noteUnknown, excerpt_uncommented, kind_uncommented, Source.line_uncommented]

theorem emitWith_uncommented (d : Declaration) : emitWith s n.uncommented d = emitWith s n d := by
  simp only [emitWith, Site.dependencies_uncommented]

/-- A statement declares the same without comments if the same is read of it. -/
theorem declare_uncommented {x y : Site → Reading Declaration} (same : ∀ site, x site = y site) :
    declare s n.uncommented x = declare s n y := by
  simp only [declare, emitWith_uncommented, funext same]

/-- Variables are declared in the same way without comments. -/
theorem declareVariables_uncommented (isExported : Bool) :
    declareVariables s n.uncommented isExported = declareVariables s n isExported := by
  have emit : emitWith s n.uncommented = emitWith s n := funext (emitWith_uncommented n s)
  simp only [declareVariables, emit, variablesOf_uncommented]

theorem bindNode_uncommented (r : Resolved) (o : Option Node) :
    bindNode s r (o.map uncommented) = bindNode s r o := by
  rw [bindNode, bindNode, Surroundings.readOrEmpty_uncommented]

/-- A part of an import clause binds the same without comments. -/
theorem bindPart_uncommented (r : Resolved) : bindPart s r n.uncommented = bindPart s r n := by
  have itself : bindNode s r (some n.uncommented) = bindNode s r (some n) := bindNode_uncommented s r (some n)
  simp only [bindPart, kind_uncommented, itself, child?_uncommented n (by decide : "comment" ∉ ["identifier"]),
    bindNode_uncommented, namedOf_uncommented n (by decide : "comment" ∉ ["import_specifier"])]
  rw [Walk.forEach_uncommented fun spec _ => by rw [eitherField?_uncommented, bindNode_uncommented]]

/-- A comment binds no name. -/
theorem bindPart_of_remark {n : Node} (remark : n.isRemark = true) (r : Resolved) : bindPart s r n = pure () := by
  rw [bindPart, (isRemark_iff.1 remark).kind]
  rfl

/-- An import is processed in the same way without comments. -/
theorem processImport_uncommented : processImport s n.uncommented = processImport s n := by
  have require := child?_uncommented n (by decide : "comment" ∉ ["import_require_clause"])
  have clause := child?_uncommented n (by decide : "comment" ∉ ["import_clause"])
  simp only [processImport, statementSpecifier_uncommented, require, clause]
  congr 1
  funext found
  cases found with
  | none => rfl
  | some spec =>
      dsimp only
      congr 1
      funext r
      cases n.child? ["import_require_clause"] with
      | some clause =>
          simp only [Option.map_some, child?_uncommented clause (by decide : "comment" ∉ ["identifier"]),
            bindNode_uncommented]
      | none =>
          cases n.child? ["import_clause"] with
          | none => rfl
          | some clause =>
              exact Walk.forEach_named_uncommented (fun c remark => bindPart_of_remark s remark r) clause
                fun c _ => bindPart_uncommented c s r

/-- A name that is passed on is declared in the same way without comments. -/
theorem emitReExport_uncommented (exported passedOn : String) (r : Resolved) :
    emitReExport s n.uncommented exported passedOn r = emitReExport s n exported passedOn r := by
  simp only [emitReExport, Surroundings.read_uncommented, Source.position_uncommented]

/-- An item of an export clause has the same names without comments. -/
theorem exportedNames_uncommented : exportedNames s n.uncommented = exportedNames s n := by
  simp only [exportedNames, field?_uncommented, Surroundings.readOrEmpty_uncommented]
  cases n.field? "alias" with
  | none => rfl
  | some renamed => simp only [Option.map_some, Surroundings.read_uncommented]

/-- An export of a whole module goes by the first named child of its `namespace_export`. -/
theorem processReExport_uncommented (r : Resolved) : processReExport s n.uncommented r = processReExport s n r := by
  rw [processReExport, processReExport, child?_uncommented n (by decide), child?_uncommented n (by decide)]
  cases n.child? ["export_clause"] with
  | some clause =>
      simp only [Option.map_some, emitReExport_uncommented,
        namedOf_uncommented clause (by decide : "comment" ∉ ["export_specifier"])]
      exact Walk.forEach_uncommented fun spec _ => by rw [exportedNames_uncommented]
  | none =>
      cases found : n.child? ["namespace_export"] with
      | none => exact emitReExport_uncommented n s _ _ r
      | some whole =>
          have kind : whole.kind = "namespace_export" := by simpa using kind_mem_of_child? found
          have first := head?_named_uncommented (n := whole) (by simp [takesFirst, kind])
          simp only [Option.map_some, Option.map_none, first, Surroundings.readOrEmpty_uncommented,
            emitReExport_uncommented]

/-- An export clause is processed in the same way without comments. -/
theorem processExportClause_uncommented (scope : Scope) (clause : Node) :
    processExportClause s scope n.uncommented clause.uncommented = processExportClause s scope n clause := by
  simp only [processExportClause, emitReExport_uncommented,
    namedOf_uncommented clause (by decide : "comment" ∉ ["export_specifier"])]
  exact Walk.forEach_uncommented fun spec _ => by rw [exportedNames_uncommented, noteUnknown_uncommented]

theorem processDefaultValue_uncommented (scope : Scope) (value : Node) :
    processDefaultValue s scope n.uncommented value.uncommented = processDefaultValue s scope n value := by
  have function := declare_uncommented value s fun site => functionOf_uncommented site value true true
  have «class» := declare_uncommented value s fun site => classOf_uncommented site value true true
  have default : defaultValue s n.uncommented = defaultValue s n := by
    rw [defaultValue, defaultValue, Source.position_uncommented]
  simp only [processDefaultValue, kind_uncommented, function, «class», default, Surroundings.read_uncommented,
    emitWith_uncommented]

theorem processFunctionSignature_uncommented (scope : Scope) (isExported isDefault : Bool) :
    processFunctionSignature s scope n.uncommented isExported isDefault =
      processFunctionSignature s scope n isExported isDefault := by
  have declared := declare_uncommented n s fun site => functionOf_uncommented site n isExported isDefault
  simp only [processFunctionSignature, field?_uncommented, Surroundings.readOrEmpty_uncommented, declared]

/-- What is passed over as broken does not depend on comments. -/
theorem isBroken_uncommented : isBroken n.uncommented = isBroken n := by
  rw [isBroken, isBroken, kind_uncommented, hasError_uncommented, namespaceOf?_uncommented, Option.isNone_map]

/-- A comment is passed over. -/
theorem processStatement_of_remark {n : Node} (remark : n.isRemark = true) (scope : Scope)
    (isExported isDefault : Bool) : processStatement s scope n isExported isDefault = pure () := by
  have known := isRemark_iff.1 remark
  have sound : isBroken n = false := by simp [isBroken, known.kind, known.hasError]
  rw [processStatement, sound, known.kind]
  rfl

end Steps

/-!
### The walk
-/

mutual

/-- A scope is walked the same without comments. Each function is compared with itself, along its own recursion. -/
theorem processScope_uncommented (s : Surroundings) (body : Node) :
    processScope s body.uncommented = processScope s body := by
  rw [processScope_eq, processScope_eq, prescan_uncommented]
  congr 1
  funext scope
  rw [Walk.forEach_named_uncommented (fun c remark => processStatement_of_remark s remark scope false false)]
  intro c mem
  have lighter := weight_lt_of_mem_named mem
  exact processStatement_uncommented s scope c false false
termination_by 4 * body.weight

/-- A statement is processed in the same way without comments. -/
theorem processStatement_uncommented (s : Surroundings) (scope : Scope) (n : Node) (isExported isDefault : Bool) :
    processStatement s scope n.uncommented isExported isDefault =
      processStatement s scope n isExported isDefault := by
  rw [processStatement, processStatement, isBroken_uncommented, excerpt_uncommented, kind_uncommented,
    Source.line_uncommented, noteUnknown_uncommented]
  split
  · rfl
  · split
    next => rfl
    next form known => rw [processForm_uncommented s scope form n isExported isDefault known]
termination_by 4 * n.weight + 3

theorem processForm_uncommented (s : Surroundings) (scope : Scope) (form : StatementForm) (n : Node)
    (isExported isDefault : Bool) (known : StatementForm.ofKind? n.kind = some form) :
    processForm s scope form n.uncommented isExported isDefault =
      processForm s scope form n isExported isDefault := by
  rw [processForm_eq, processForm_eq]
  cases form with
  | importing => exact processImport_uncommented n s
  | exporting => exact processExport_uncommented s scope n
  | function => exact declare_uncommented n s fun site => functionOf_uncommented site n isExported isDefault
  | functionSignature => exact processFunctionSignature_uncommented n s scope isExported isDefault
  | classDecl => exact declare_uncommented n s fun site => classOf_uncommented site n isExported isDefault
  | interfaceDecl => exact declare_uncommented n s fun site => interfaceOf_uncommented site n isExported isDefault
  | typeAlias => exact declare_uncommented n s fun site => typeAliasOf_uncommented site n isExported isDefault
  | enumDecl => exact declare_uncommented n s fun site => enumOf_uncommented site n isExported isDefault
  | bindings => exact declareVariables_uncommented n s isExported
  | nameSpace => exact processNamespace_uncommented s n isExported
  | ambient =>
      have kind : n.kind = "ambient_declaration" := List.mem_singleton.1 (StatementForm.ofKind?_eq_some_iff.1 known)
      have first := head?_named_uncommented (n := n) (by simp [takesFirst, kind])
      simp only [first, noteUnknown_uncommented]
      cases wraps : n.named.head? with
      | none => rfl
      | some inner =>
          have lighter := weight_lt_of_mem_named (List.mem_of_head? wraps)
          simp only [Option.map_some, kind_uncommented,
            processStatement_uncommented s scope inner isExported isDefault]
  | expression =>
      simp only [child?_uncommented n (by decide : "comment" ∉ Node.namespaceKinds)]
      cases wraps : n.child? Node.namespaceKinds with
      | none => rfl
      | some ns =>
          have lighter := weight_lt_of_child? wraps
          exact processNamespace_uncommented s ns isExported
termination_by 4 * n.weight + 2

theorem processExport_uncommented (s : Surroundings) (scope : Scope) (n : Node) :
    processExport s scope n.uncommented = processExport s scope n := by
  have clause := child?_uncommented n (by decide : "comment" ∉ ["export_clause"])
  have default := hasChild_uncommented n (by decide : "comment" ≠ "default")
  simp only [processExport_eq, field?_uncommented, clause, default, noteUnknown_uncommented,
    processReExport_uncommented]
  cases wraps : n.field? "declaration" with
  | some declaration =>
      have lighter := weight_lt_of_field? wraps
      exact processStatement_uncommented s scope declaration true _
  | none =>
      cases n.field? "source" with
      | some source => simp only [Option.map_some, Option.map_none, Surroundings.read_uncommented]
      | none =>
          cases n.field? "value" <;> cases n.hasChild "default" <;> cases n.child? ["export_clause"] <;>
            simp only [Option.map_some, Option.map_none, processDefaultValue_uncommented,
              processExportClause_uncommented]
termination_by 4 * n.weight + 1

theorem processNamespace_uncommented (s : Surroundings) (n : Node) (isExported : Bool) :
    processNamespace s n.uncommented isExported = processNamespace s n isExported := by
  have declared : ∀ name members, namespaceDeclaration s n.uncommented name isExported members =
      namespaceDeclaration s n name isExported members := by
    intro name members
    rw [namespaceDeclaration, namespaceDeclaration, Source.position_uncommented]
  simp only [processNamespace_eq, field?_uncommented, noteUnknown_uncommented, emitWith_uncommented, declared]
  cases n.field? "name" with
  | none => rfl
  | some nameNode =>
      simp only [Option.map_some, kind_uncommented, Surroundings.read_uncommented]
      cases holds : n.field? "body" with
      | none => rfl
      | some body =>
          have lighter := weight_lt_of_field? holds
          have inside : ∀ name, processScope (s.enter name) body.uncommented = processScope (s.enter name) body :=
            fun name => processScope_uncommented (s.enter name) body
          simp only [Option.map_some, inside]
termination_by 4 * n.weight + 1

end

/-!
### Outlines
-/

/-- The outline of a file is the same without its comments, those apart that a node goes by: the same declarations or
    the same failure, and the same events. -/
theorem extract_uncommented (path : String) (root : Node) (aliases : Aliases) :
    extract src path root.uncommented aliases = extract src path root aliases := by
  simp only [extract, acceptedSpecifiers, checkTree_uncommented, collectSpecifiers_uncommented, extractFrom, outlineTree,
    processScope_uncommented]

/-- A comment more does not change the outline of a file. It may stand anywhere among the children of any node, except
    that it does not come to be the first named child of a `declare`, of the `* as` of a re-export, of a literal type
    or of an `extends` clause without a value. -/
theorem extract_of_commentAdded {root root' : Node} (added : CommentAdded root root') (path : String)
    (aliases : Aliases) : extract src path root' aliases = extract src path root aliases := by
  rw [← extract_uncommented, added.uncommented_eq, extract_uncommented]

/-- A function that is only declared, with a comment inside the statement. -/
def declareSource : Source := ⟨"declare/**/function f():void;"⟩

/-- The `declare` of `declareSource`, with some nodes in front of the function and some behind it. -/
def declareNode (front back : List Node) : Node :=
  .construct "ambient_declaration" none 0 29
    (front ++ .construct "function_signature" none 11 29
      [.construct "identifier" (some "name") 20 21 [],
       .construct "formal_parameters" (some "parameters") 21 23 [],
       .construct "type_annotation" (some "return_type") 23 28 [.construct "predefined_type" none 24 28 []]] :: back)

/-- The tree of a file with that statement. -/
def declareTree (front back : List Node) : Node := .construct "program" none 0 29 [declareNode front back]

theorem commentAdded_behind : CommentAdded (declareTree [] []) (declareTree [] [comment 7 11]) :=
  .deeper (declareTree [] []) (rfl : _ = [] ++ declareNode [] [] :: [])
    (.here (declareNode [] []) 7 11 (List.append_nil _).symm fun _ => ⟨_, List.mem_singleton_self _, rfl⟩)

/-- Behind the function the comment does no harm. -/
theorem extract_of_commentAdded_behind :
    CommentAdded (declareTree [] []) (declareTree [] [comment 7 11]) ∧
      extract declareSource "a.ts" (declareTree [] [comment 7 11]) [] =
        extract declareSource "a.ts" (declareTree [] []) [] :=
  ⟨commentAdded_behind, extract_of_commentAdded declareSource commentAdded_behind "a.ts" []⟩

/-- In front of the function, where the text has it, the comment hides the declaration. -/
theorem hidden_by_comment :
    (extract declareSource "a.ts" (declareTree [] []) []).result.toOption.map (·.map (·.head.name)) = some ["f"] ∧
      (extract declareSource "a.ts" (declareTree [comment 7 11] []) []).result.toOption.map (·.map (·.head.name)) =
        some [] := by
  decide +kernel

end Outline
