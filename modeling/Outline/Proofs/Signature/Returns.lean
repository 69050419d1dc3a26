/-
Module: Outline.Proofs.Signature.Returns
Layer: Proofs
Purpose: Which return statements the type of a function is inferred from, said by their addresses in its body: those
  reached through named nodes without passing another return statement, a function or a class. In the order of the text
  each gives the type of what it returns, and the types are joined in the order of their first occurrence. So what
  stands inside functions and classes makes no difference.
Main exports: OwnReturn, OwnReturns, ownReturns_placedReturns, NamesParameter, ReturnedAs, types_of_inferReturn,
  inferReturn_of_ownReturns
-/
import Outline.Proofs.Entries.Distinct
import Outline.Proofs.Reading.Ensures
import Outline.Proofs.Signature.Unfailing
import Outline.Proofs.Tree.Address

namespace Outline.Signature

open Node (nodeAt? withChildrenAt)

/-!
### Return statements by address
-/

/-- A return statement of the function itself, at an address in its body. All nodes on the way to it are named, and none
    is another return statement, a function or a class. -/
inductive OwnReturn : Node → List Nat → Node → Prop where
  | here {n r : Node} {i : Nat} (child : n.children[i]? = some r) (named : r.isNamed = true)
      (returns : r.kind = "return_statement") : OwnReturn n [i] r
  | deeper {n c r : Node} {i : Nat} {rest : List Nat} (child : n.children[i]? = some c) (named : c.isNamed = true)
      (passes : c.kind ≠ "return_statement") (enters : c.kind ∉ scopeBoundaries) (own : OwnReturn c rest r) :
      OwnReturn n (i :: rest) r

/-- The own return statements of a body with their addresses, in the order of the text. -/
structure OwnReturns (body : Node) (rs : List (List Nat × Node)) : Prop where
  mem : ∀ address r, (address, r) ∈ rs ↔ OwnReturn body address r
  order : rs.Pairwise fun x y => x.1 < y.1

/-- There is one list of them. -/
theorem OwnReturns.unique {body : Node} {rs rs' : List (List Nat × Node)} (own : OwnReturns body rs)
    (own' : OwnReturns body rs') : rs = rs' := by
  have nodup : ∀ {ss}, OwnReturns body ss → ss.Nodup := by
    intro ss found
    refine found.order.imp ?_
    rintro x _ before rfl
    exact List.lt_irrefl _ before
  have perm : rs.Perm rs' := by
    rw [List.perm_ext_iff_of_nodup (nodup own) (nodup own')]
    rintro ⟨address, r⟩
    exact (own.mem address r).trans (own'.mem address r).symm
  exact perm.eq_of_pairwise (fun a b _ _ before after => absurd after (List.lt_asymm before)) own.order own'.order

mutual

/-- The own return statements of a body, each with its address. -/
def placedReturns : Node → List (List Nat × Node)
  | ⟨_, _, _, _, _, _, _, children⟩ => placedReturnsFrom 0 children

/-- The own return statements among some children of a body, which are numbered from `i` on. -/
def placedReturnsFrom (i : Nat) : List Node → List (List Nat × Node)
  | [] => []
  | c :: cs =>
    (if !c.isNamed then []
     else if c.kind = "return_statement" then [([i], c)]
     else if scopeBoundaries.contains c.kind then []
     else (placedReturns c).map fun x => (i :: x.1, x.2)) ++ placedReturnsFrom (i + 1) cs

end

/-- The own return statements in the child with a number. -/
def placedReturnsAt (i : Nat) (c : Node) : List (List Nat × Node) :=
  if !c.isNamed then []
  else if c.kind = "return_statement" then [([i], c)]
  else if scopeBoundaries.contains c.kind then []
  else (placedReturns c).map fun x => (i :: x.1, x.2)

/-- The returned expressions in a child. -/
def returnsIn (c : Node) : List (Option Node) :=
  if !c.isNamed then []
  else if c.kind = "return_statement" then [c.firstOperand?]
  else if scopeBoundaries.contains c.kind then []
  else ownReturns c

/-- The return statements with their addresses, child by child. -/
theorem placedReturns_eq (n : Node) :
    placedReturns n = n.children.zipIdx.flatMap fun x => placedReturnsAt x.2 x.1 := by
  have from_ : ∀ (cs : List Node) (i : Nat),
      placedReturnsFrom i cs = (cs.zipIdx i).flatMap fun x => placedReturnsAt x.2 x.1 := by
    intro cs
    induction cs with
    | nil => exact fun _ => rfl
    | cons c cs ih =>
        intro i
        rw [placedReturnsFrom, ih, List.zipIdx_cons, List.flatMap_cons]
        rfl
  obtain ⟨kind, start, stop, isNamed, isMissing, hasError, field, children⟩ := n
  rw [placedReturns]
  exact from_ children 0

theorem ownReturns_eq_flatMap (n : Node) : ownReturns n = n.children.flatMap returnsIn := by
  rw [ownReturns_eq]
  induction n.children with
  | nil => rfl
  | cons c cs ih =>
      rw [ownReturnsIn, ih, List.flatMap_cons]
      rfl

/-- What the own return statements return is what is collected. -/
theorem map_placedReturns (n : Node) : (placedReturns n).map (·.2.firstOperand?) = ownReturns n := by
  have each : ∀ x ∈ n.children.zipIdx, (placedReturnsAt x.2 x.1).map (·.2.firstOperand?) = returnsIn x.1 := by
    rintro ⟨c, i⟩ mem
    have lighter := Node.weight_lt_of_mem_children (mem_of_mem_zipIdx mem)
    have deeper := map_placedReturns c
    unfold placedReturnsAt returnsIn
    repeat' split
    · rfl
    · rfl
    · rfl
    · rw [List.map_map, ← deeper]
      rfl
  calc (placedReturns n).map (·.2.firstOperand?)
      = n.children.zipIdx.flatMap fun x => returnsIn x.1 := by
        rw [placedReturns_eq, List.map_flatMap]
        exact List.flatMap_congr each
    _ = (n.children.zipIdx.map Prod.fst).flatMap returnsIn := (List.flatMap_map ..).symm
    _ = ownReturns n := by rw [List.zipIdx_map_fst, ownReturns_eq_flatMap]
termination_by n.weight

/-- A return statement at a child is the child, or stands below it with no function between. -/
theorem mem_placedReturnsAt {c r : Node} {i : Nat} {address : List Nat} :
    (address, r) ∈ placedReturnsAt i c ↔ c.isNamed = true ∧
      (c.kind = "return_statement" ∧ address = [i] ∧ r = c ∨
        c.kind ≠ "return_statement" ∧ c.kind ∉ scopeBoundaries ∧
          ∃ rest, address = i :: rest ∧ (rest, r) ∈ placedReturns c) := by
  unfold placedReturnsAt
  split
  next unnamed => simp_all
  next named =>
    split
    next returns => simp_all
    next passes =>
      split
      next boundary => simp_all
      next enters => grind

/-- A return statement of a node stands at one of its children. -/
theorem mem_placedReturns_iff {n r : Node} {address : List Nat} :
    (address, r) ∈ placedReturns n ↔ ∃ i c, n.children[i]? = some c ∧ (address, r) ∈ placedReturnsAt i c := by
  rw [placedReturns_eq, List.mem_flatMap]
  constructor
  · rintro ⟨⟨c, i⟩, child, mem⟩
    exact ⟨i, c, List.mem_zipIdx_iff_getElem?.1 child, mem⟩
  · rintro ⟨i, c, child, mem⟩
    exact ⟨(c, i), List.mem_zipIdx_iff_getElem?.2 child, mem⟩

/-- What is listed is a return statement of the function's own. -/
theorem ownReturn_of_mem {n r : Node} {address : List Nat} (mem : (address, r) ∈ placedReturns n) :
    OwnReturn n address r := by
  obtain ⟨i, c, child, mem⟩ := mem_placedReturns_iff.1 mem
  have lighter := Node.weight_lt_of_mem_children (List.mem_of_getElem? child)
  obtain ⟨named, ⟨returns, rfl, rfl⟩ | ⟨passes, enters, rest, rfl, below⟩⟩ := mem_placedReturnsAt.1 mem
  · exact .here child named returns
  · exact .deeper child named passes enters (ownReturn_of_mem below)
termination_by n.weight

/-- Each return statement of the function's own is listed. -/
theorem OwnReturn.mem_placedReturns {n r : Node} {address : List Nat} (own : OwnReturn n address r) :
    (address, r) ∈ placedReturns n := by
  induction own with
  | here child named returns =>
      exact mem_placedReturns_iff.2 ⟨_, _, child, mem_placedReturnsAt.2 ⟨named, .inl ⟨returns, rfl, rfl⟩⟩⟩
  | deeper child named passes enters _ below =>
      exact mem_placedReturns_iff.2
        ⟨_, _, child, mem_placedReturnsAt.2 ⟨named, .inr ⟨passes, enters, _, rfl, below⟩⟩⟩

/-- Addresses come in the order of the text. -/
theorem pairwise_placedReturns (n : Node) : (placedReturns n).Pairwise fun x y => x.1 < y.1 := by
  rw [placedReturns_eq, List.pairwise_flatMap]
  constructor
  · rintro ⟨c, i⟩ mem
    have lighter := Node.weight_lt_of_mem_children (mem_of_mem_zipIdx mem)
    have deeper := pairwise_placedReturns c
    dsimp only
    unfold placedReturnsAt
    repeat' split
    · exact .nil
    · exact List.pairwise_singleton _ _
    · exact .nil
    · exact List.pairwise_map.2 (deeper.imp fun before => List.cons_lt_cons_iff.2 (.inr ⟨rfl, before⟩))
  · refine (pairwise_zipIdx n.children).imp ?_
    rintro ⟨c, i⟩ ⟨d, j⟩ less ⟨address, r⟩ first ⟨address', r'⟩ later
    have head : ∀ {k e a s}, (a, s) ∈ placedReturnsAt k e → ∃ rest, a = k :: rest := by
      intro k e a s mem
      obtain ⟨_, ⟨_, rfl, _⟩ | ⟨_, _, rest, rfl, _⟩⟩ := mem_placedReturnsAt.1 mem
      · exact ⟨[], rfl⟩
      · exact ⟨rest, rfl⟩
    obtain ⟨rest, rfl⟩ := head first
    obtain ⟨rest', rfl⟩ := head later
    exact List.cons_lt_cons_iff.2 (.inl less)
termination_by n.weight

/-- The listed statements are the function's own, in the order of the text. -/
theorem ownReturns_placedReturns (body : Node) : OwnReturns body (placedReturns body) :=
  ⟨fun _ _ => ⟨ownReturn_of_mem, OwnReturn.mem_placedReturns⟩, pairwise_placedReturns body⟩

/-!
### Types of returned expressions
-/

/-- The expression is an identifier, and the parameter is the first of its name. -/
structure NamesParameter (src : Source) (ps : List Parameter) (e : Node) (p : Parameter) : Prop where
  identifier : e.kind = "identifier"
  text : src.textOf e = .ok p.name
  first : ∃ before after, ps = before ++ p :: after ∧ ∀ q ∈ before, q.name ≠ p.name

/-- The type that is returned: `void` without an expression, the type of the parameter that the expression names, else
    the type of the expression. -/
inductive ReturnedAs (src : Source) (ps : List Parameter) : Option Node → String → Prop where
  | bare : ReturnedAs src ps none "void"
  | parameter {e : Node} {p : Parameter} (names : NamesParameter src ps e p) : ReturnedAs src ps (some e) p.type
  | expression {e : Node} {t : String} (other : ∀ p, ¬ NamesParameter src ps e p)
      (inferred : (inferExpression src e).result = .ok t) : ReturnedAs src ps (some e) t

variable {src : Source} {ps : List Parameter}

/-- The first of several parameters with one name counts. -/
theorem find?_parameter {name : String} {p : Parameter} :
    ps.find? (fun q => q.name = name) = some p ↔
      p.name = name ∧ ∃ before after, ps = before ++ p :: after ∧ ∀ q ∈ before, q.name ≠ name := by
  rw [List.find?_eq_some_iff_append]
  simp

/-- The type that was found for a returned value is one the value is returned as. -/
theorem returnedAs_of_result {e : Option Node} {t : String} (ended : (returnedType? src ps e).result = .ok t) :
    ReturnedAs src ps e t := by
  cases e with
  | none =>
      cases ended
      exact .bare
  | some e =>
      rw [returnedType?, returnedType] at ended
      split at ended
      next identifier =>
        obtain ⟨name, text, ended⟩ := Reading.result_bind_iff.1 ended
        split at ended
        next p found =>
          obtain ⟨rfl, first⟩ := find?_parameter.1 found
          cases ended
          exact .parameter ⟨identifier, text, first⟩
        next absent =>
          refine .expression (fun p names => ?_) ended
          have same : p.name = name := Except.ok.inj (names.text.symm.trans text)
          obtain ⟨before, after, split, -⟩ := names.first
          have none := List.find?_eq_none.1 absent p (by simp [split])
          exact none (by simpa using same)
      next other => exact .expression (fun p names => other names.identifier) ended

/-- The expressions that a body returns: those of its own return statements, or itself if it is no block. -/
def returnedBy (body : Node) : List (Option Node) :=
  if body.kind = "statement_block" then ownReturns body else [some body]

/-- The type of a body is the union of the types of what it returns. -/
theorem types_of_inferReturn {n body : Node} {type : String} (holds : n.field? "body" = some body)
    (ended : (inferReturn src n ps).result = .ok type) :
    ∃ types, List.Forall₂ (ReturnedAs src ps) (returnedBy body) types ∧
      type = if types.isEmpty then "void" else unionOf types := by
  rw [inferReturn_eq, holds] at ended
  dsimp only at ended
  rw [returnedBy]
  split at ended
  next bare =>
    rw [if_neg bare]
    exact ⟨[type], .cons (returnedAs_of_result ended) .nil, rfl⟩
  next block =>
    obtain ⟨types, collected, same⟩ := Reading.result_bind_iff.1 ended
    rw [if_pos (not_not.1 block)]
    have each := Reading.result_collect_iff.1 collected
    exact ⟨types, each.imp fun _ _ => returnedAs_of_result, (Except.ok.inj same).symm⟩

/-- Where the texts of the body can be read, its type is inferred. -/
theorem inferReturn_unfailing_of_body {n body : Node} (holds : n.field? "body" = some body)
    (readable : src.Readable body) (ps : List Parameter) : (inferReturn src n ps).Unfailing := by
  rw [inferReturn_eq, holds]
  dsimp only
  split
  · exact returnedType_unfailing ps body readable
  · refine .returning (.collect fun e mem => ?_) _
    cases e with
    | none => exact .pure "void"
    | some e => exact returnedType_unfailing ps e (readable.of_inside (inside_of_mem_ownReturns e body mem))

/-!
### Functions and classes inside
-/

theorem flatMap_modify {α β : Type} {f : α → α} {g : α → List β} {as : List α} {i : Nat} {a : α}
    (stands : as[i]? = some a) (same : g (f a) = g a) : (as.modify i f).flatMap g = as.flatMap g := by
  induction as generalizing i with
  | nil => rw [List.modify_nil]
  | cons b as ih =>
      cases i with
      | zero =>
          cases stands
          rw [List.modify_zero_cons, List.flatMap_cons, List.flatMap_cons, same]
      | succ i => rw [List.modify_succ_cons, List.flatMap_cons, List.flatMap_cons, ih stands]

/-- What is inside a function or class is not among the own return statements, unless it is inside one of them. -/
theorem ownReturns_withChildrenAt {body b : Node} {address : List Nat} (enters : body.kind ∉ scopeBoundaries)
    (stands : body.nodeAt? address = some b) (boundary : b.kind ∈ scopeBoundaries)
    (apart : ∀ own r, OwnReturn body own r → ¬ own <+: address) (children : List Node) :
    ownReturns (body.withChildrenAt children address) = ownReturns body := by
  induction address generalizing body with
  | nil =>
      cases stands
      exact absurd boundary enters
  | cons i rest ih =>
      obtain ⟨c, child, stands⟩ := Node.nodeAt?_cons.1 stands
      have same : returnsIn (c.withChildrenAt children rest) = returnsIn c := by
        simp only [returnsIn, Node.isNamed_withChildrenAt, Node.kind_withChildrenAt]
        split
        · rfl
        next named =>
          split
          next returns =>
            have own := OwnReturn.here child (by simpa using named) returns
            exact absurd ⟨rest, rfl⟩ (apart [i] c own)
          next passes =>
            split
            · rfl
            next inner =>
              have enters : c.kind ∉ scopeBoundaries := fun mem => inner (List.contains_iff_mem.2 mem)
              refine ih enters stands fun own r below shorter => ?_
              have own' := OwnReturn.deeper child (by simpa using named) passes enters below
              exact apart (i :: own) r own' (List.cons_prefix_cons.2 ⟨rfl, shorter⟩)
      rw [ownReturns_eq_flatMap, ownReturns_eq_flatMap]
      exact flatMap_modify child same

/-!
### The type of a function
-/

/-- The type of a function with a block is `void` if it has no return statement of its own, and else the types of what
    these return, in the order of the text and without repetition. Other children for a function or class in the block
    that is not inside such a statement make no difference. -/
theorem inferReturn_of_ownReturns {n body : Node} (holds : n.field? "body" = some body)
    (block : body.kind = "statement_block") (readable : src.Readable body) (ps : List Parameter) :
    (∃ rs types firsts, (∀ rs', OwnReturns body rs' ↔ rs' = rs) ∧
      List.Forall₂ (fun x t => ReturnedAs src ps x.2.firstOperand? t) rs types ∧ FirstOccurrences types firsts ∧
      (inferReturn src n ps).result = .ok (if rs.isEmpty then "void" else Text.joinWith " | " firsts)) ∧
    ∀ i address b children, n.children[i]? = some body → body.nodeAt? address = some b → b.kind ∈ scopeBoundaries →
      (∀ own r, OwnReturn body own r → ¬ own <+: address) →
      inferReturn src (n.withChildrenAt children (i :: address)) ps = inferReturn src n ps := by
  constructor
  · obtain ⟨type, ended⟩ := (inferReturn_unfailing_of_body holds readable ps).value
    obtain ⟨types, returned, rfl⟩ := types_of_inferReturn holds ended
    rw [returnedBy, if_pos block, ← map_placedReturns, List.forall₂_map_left_iff] at returned
    refine ⟨placedReturns body, types, distinct types, fun rs' => ⟨fun own => ?_, ?_⟩, returned,
      firstOccurrences_distinct types, ?_⟩
    · exact own.unique (ownReturns_placedReturns body)
    · rintro rfl
      exact ownReturns_placedReturns body
    · have none : (placedReturns body).isEmpty = types.isEmpty := by
        rw [Bool.eq_iff_iff, List.isEmpty_iff_length_eq_zero, List.isEmpty_iff_length_eq_zero, returned.length_eq]
      rw [ended, none]
      rfl
  · intro i address b children _ stands boundary apart
    have enters : body.kind ∉ scopeBoundaries := by rw [block]; decide
    rw [inferReturn_eq, inferReturn_eq]
    rcases Node.field?_withChildrenAt n children i address "body" with same | ⟨c, _, found, changed⟩
    · rw [same]
    · cases holds.symm.trans found
      rw [changed, holds]
      simp only [Node.kind_withChildrenAt, block, ne_eq, not_true_eq_false, if_false,
        ownReturns_withChildrenAt enters stands boundary apart]

/-- A function with three return statements of its own, and one in a function inside. -/
def pickSource : Source := ⟨"function f(a:A){return a;()=>{return 1};return;return a}"⟩

/-- The body of that function. -/
def pickBody : Node :=
  .construct "statement_block" (some "body") 15 56
    [.construct "return_statement" none 16 25 [.construct "identifier" none 23 24 []],
     .construct "expression_statement" none 25 40
      [.construct "arrow_function" none 25 39
        [.construct "formal_parameters" (some "parameters") 25 27 [],
         .construct "statement_block" (some "body") 29 39
          [.construct "return_statement" none 30 38 [.construct "number" none 37 38 []]]]],
     .construct "return_statement" none 40 47 [],
     .construct "return_statement" none 47 55 [.construct "identifier" none 54 55 []]]

/-- That function. -/
def pickFunction : Node :=
  .construct "function_declaration" none 0 56 [.construct "identifier" (some "name") 9 10 [], pickBody]

/-- The inner function counts neither with its return statement nor without. -/
theorem inferReturn_of_ownReturns_pick :
    pickFunction.field? "body" = some pickBody ∧ pickBody.kind = "statement_block" ∧ pickSource.Readable pickBody ∧
      (placedReturns pickBody).map (·.1) = [[0], [2], [3]] ∧
      (∃ types firsts, types.length = 3 ∧ FirstOccurrences types firsts ∧
        (inferReturn pickSource pickFunction [{ name := "a", type := "A" }]).result =
          .ok (Text.joinWith " | " firsts)) ∧
      (inferReturn pickSource pickFunction [{ name := "a", type := "A" }]).result.toOption = some "A | void" ∧
      inferReturn pickSource (pickFunction.withChildrenAt [] [1, 1, 0]) [{ name := "a", type := "A" }] =
        inferReturn pickSource pickFunction [{ name := "a", type := "A" }] := by
  have readable : pickSource.Readable pickBody := by decide +kernel
  obtain ⟨⟨rs, types, firsts, unique, returned, occurrences, result⟩, inner⟩ :=
    inferReturn_of_ownReturns (n := pickFunction) rfl rfl readable [{ name := "a", type := "A" }]
  have own : placedReturns pickBody = rs := (unique _).1 (ownReturns_placedReturns pickBody)
  have apart : ∀ own r, OwnReturn pickBody own r → ¬ own <+: [1, 0] := by
    intro own r stands
    have each : ∀ x ∈ placedReturns pickBody, ¬ x.1 <+: [1, 0] := by decide
    exact each _ stands.mem_placedReturns
  subst own
  refine ⟨rfl, rfl, readable, by decide, ⟨types, firsts, returned.length_eq.symm, occurrences, result⟩,
    by decide +kernel, ?_⟩
  exact inner 1 [1, 0] _ [] rfl rfl (by decide) apart

end Outline.Signature
