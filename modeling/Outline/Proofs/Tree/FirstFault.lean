/-
Module: Outline.Proofs.Tree.FirstFault
Layer: Proofs
Purpose: Which fault of a tree is reported. It is the first one in the order of the text among those that can be come
  to: all nodes above them report an error and are no faults themselves. It does not matter whether the tree is searched
  from child to child or from a stack of the trees still to be searched. Where an error is reported exactly of the nodes
  that have a fault inside, every fault can be come to or has another one above it, so that the first fault of all is
  reported, and the report tells where it is.
Main exports: Node.OpenFault, Node.FirstOpenFault, Node.firstFault?_eq_some_iff, Node.firstFaultOn,
  Node.firstFaultOn_eq, Node.ErrorsConsistent, Node.firstFault?_eq_find?, TellsPlace, firstFault?_foremost
-/
import Outline.Proofs.Tree.Address
import Outline.Proofs.Tree.Inside
import Outline.Tree.Fault

namespace Outline

namespace Node

/-!
### Faults that can be come to
-/

/-- A fault at an address, with an error reported in every node above it, none of which is a fault itself. -/
structure OpenFault (root : Node) (address : List Nat) (bad : Node) : Prop where
  stands : root.nodeAt? address = some bad
  isFault : bad.isFault = true
  above : ∀ upper, upper <+: address → upper ≠ address → ∀ n, root.nodeAt? upper = some n →
    n.hasError = true ∧ n.isFault = false

/-- A fault that can be come to, before all others. -/
def FirstOpenFault (root : Node) (address : List Nat) (bad : Node) : Prop :=
  root.OpenFault address bad ∧ ∀ other bad', root.OpenFault other bad' → ¬ other < address

variable {root n bad : Node}

/-- At the root itself a fault is open if the root is one. -/
theorem openFault_nil : n.OpenFault [] bad ↔ n = bad ∧ n.isFault = true := by
  constructor
  · intro found
    cases Option.some.inj found.stands
    exact ⟨rfl, found.isFault⟩
  · rintro ⟨rfl, isFault⟩
    refine ⟨rfl, isFault, fun upper begins proper => ?_⟩
    exact absurd (List.prefix_nil.1 begins) proper

/-- Below a node are the faults that can be come to from its children, if they can be come to from it. -/
theorem openFault_cons {i : Nat} {rest : List Nat} :
    n.OpenFault (i :: rest) bad ↔
      (n.hasError = true ∧ n.isFault = false) ∧ ∃ c, n.children[i]? = some c ∧ c.OpenFault rest bad := by
  constructor
  · intro found
    obtain ⟨c, child, stands⟩ := nodeAt?_cons.1 found.stands
    refine ⟨found.above [] List.nil_prefix (List.cons_ne_nil i rest).symm n rfl, c, child, stands, found.isFault, ?_⟩
    intro upper begins proper m there
    refine found.above (i :: upper) (List.cons_prefix_cons.2 ⟨rfl, begins⟩) ?_ m (nodeAt?_cons.2 ⟨c, child, there⟩)
    simpa using proper
  · rintro ⟨searched, c, child, found⟩
    refine ⟨nodeAt?_cons.2 ⟨c, child, found.stands⟩, found.isFault, ?_⟩
    intro upper begins proper m there
    rcases List.prefix_cons_iff.1 begins with rfl | ⟨upper, rfl, inside⟩
    · cases Option.some.inj there
      exact searched
    · obtain ⟨c', child', there⟩ := nodeAt?_cons.1 there
      cases child.symm.trans child'
      exact found.above upper inside (by simpa using proper) m there

/-- A fault is come to at once. -/
theorem firstOpenFault_of_isFault (isFault : n.isFault = true) : n.FirstOpenFault [] n :=
  ⟨openFault_nil.2 ⟨rfl, isFault⟩, fun other _ _ => List.not_lt_nil other⟩

/-- Below a node the first fault is that of the first child that has one. -/
theorem firstOpenFault_cons {before after : List Node} {c : Node} {rest : List Nat}
    (searched : n.hasError = true ∧ n.isFault = false) (children : n.children = before ++ c :: after)
    (none : ∀ d ∈ before, ∀ address bad', ¬ d.OpenFault address bad') (first : c.FirstOpenFault rest bad) :
    n.FirstOpenFault (before.length :: rest) bad := by
  have child : n.children[before.length]? = some c := by simp [children]
  refine ⟨openFault_cons.2 ⟨searched, c, child, first.1⟩, ?_⟩
  intro other bad' found earlier
  cases other with
  | nil =>
      have isFault := (openFault_nil.1 found).2
      rw [searched.2] at isFault
      cases isFault
  | cons i other =>
      obtain ⟨-, d, child', found⟩ := openFault_cons.1 found
      rcases List.cons_lt_cons_iff.1 earlier with left | ⟨rfl, before⟩
      · -- A child before the first one with a fault has none.
        have mem : d ∈ before := by
          rw [children, List.getElem?_append_left left] at child'
          exact List.mem_of_getElem? child'
        exact none d mem other bad' found
      · cases child.symm.trans child'
        exact first.2 other bad' found before

/-- The search finds the first fault that can be come to, and fails only if there is none. -/
theorem firstFault?_open (n : Node) :
    (∀ bad, n.firstFault? = some bad → ∃ address, n.FirstOpenFault address bad) ∧
      (n.firstFault? = none → ∀ address bad, ¬ n.OpenFault address bad) := by
  have inner : ∀ c ∈ n.children, (∀ bad, c.firstFault? = some bad → ∃ address, c.FirstOpenFault address bad) ∧
      (c.firstFault? = none → ∀ address bad, ¬ c.OpenFault address bad) := by
    intro c child
    have lighter := weight_lt_of_mem_children child
    exact firstFault?_open c
  rw [firstFault?_eq, firstFaultIn?_eq]
  by_cases isFault : n.isFault = true
  · simp only [isFault, if_true, Option.some.injEq, reduceCtorEq, false_implies, and_true]
    rintro _ rfl
    exact ⟨[], firstOpenFault_of_isFault isFault⟩
  by_cases reported : n.hasError = true
  · simp only [isFault, reported, if_true, Bool.false_eq_true, if_false]
    constructor
    · intro bad found
      obtain ⟨before, c, after, children, inside, none⟩ := List.findSome?_eq_some_iff.1 found
      have mem : c ∈ n.children := by simp [children]
      obtain ⟨rest, first⟩ := (inner c mem).1 bad inside
      have noneBefore : ∀ d ∈ before, ∀ address bad', ¬ d.OpenFault address bad' := by
        intro d among
        exact (inner d (by simp [children, among])).2 (none d among)
      exact ⟨_, firstOpenFault_cons ⟨reported, by simpa using isFault⟩ children noneBefore first⟩
    · intro missed address bad found
      cases address with
      | nil => exact isFault (openFault_nil.1 found).2
      | cons i rest =>
          obtain ⟨-, c, child, found⟩ := openFault_cons.1 found
          have mem := List.mem_of_getElem? child
          exact (inner c mem).2 (List.findSome?_eq_none_iff.1 missed c mem) rest bad found
  · simp only [isFault, reported, Bool.false_eq_true, if_false, reduceCtorEq, false_implies, implies_true, true_and,
      forall_const]
    intro address bad found
    cases address with
    | nil => exact isFault (openFault_nil.1 found).2
    | cons i rest => exact reported (openFault_cons.1 found).1.1
termination_by n.weight

/-- The search finds a fault exactly if it can be come to before all others. -/
theorem firstFault?_eq_some_iff : root.firstFault? = some bad ↔ ∃ address, root.FirstOpenFault address bad := by
  constructor
  · exact (firstFault?_open root).1 bad
  · rintro ⟨address, found, first⟩
    cases search : root.firstFault? with
    | none => exact absurd found ((firstFault?_open root).2 search address bad)
    | some bad' =>
        obtain ⟨address', found', first'⟩ := (firstFault?_open root).1 bad' search
        have same : address = address' :=
          Std.Trichotomous.trichotomous address address' (first' address bad found) (first address' bad' found')
        cases same
        exact found'.stands.symm.trans found.stands

theorem firstFault?_eq_none_iff : root.firstFault? = none ↔ ∀ address bad, ¬ root.OpenFault address bad := by
  constructor
  · exact (firstFault?_open root).2
  · intro none
    cases search : root.firstFault? with
    | none => rfl
    | some bad =>
        obtain ⟨address, found, -⟩ := (firstFault?_open root).1 bad search
        exact absurd found (none address bad)

/-!
### Search with a stack
-/

theorem weightAll_append (ns ms : List Node) : weightAll (ns ++ ms) = weightAll ns + weightAll ms := by
  induction ns with
  | nil => simp [weightAll]
  | cons n ns ih => rw [List.cons_append, weightAll, weightAll, ih, Nat.add_assoc]

/-- First fault of the trees on a stack. The children of a node in which an error is reported take its place. -/
def firstFaultOn : List Node → Option Node
  | [] => none
  | n :: stack =>
    if n.isFault then some n
    else if n.hasError then firstFaultOn (n.children ++ stack)
    else firstFaultOn stack
termination_by stack => weightAll stack
decreasing_by
  · rw [weightAll_append, weightAll, weight_eq]
    omega
  · rw [weightAll, weight_eq]
    omega

/-- The stack holds what is still to be searched, in the order of the text. -/
theorem firstFaultOn_eq (stack : List Node) : firstFaultOn stack = firstFaultIn? stack := by
  rw [firstFaultIn?_eq]
  fun_induction firstFaultOn stack with
  | case1 => rfl
  | case2 n stack isFault =>
      rw [List.findSome?_cons, firstFault?_eq, if_pos isFault]
  | case3 n stack isFault reported ih =>
      rw [ih, List.findSome?_append, List.findSome?_cons, firstFault?_eq, if_neg isFault, if_pos reported,
        firstFaultIn?_eq]
      cases n.children.findSome? firstFault? <;> rfl
  | case4 n stack isFault reported ih =>
      rw [ih, List.findSome?_cons, firstFault?_eq, if_neg isFault, if_neg reported]

/-!
### Errors reported where there are faults
-/

/-- An error is reported of exactly the nodes with a fault inside. -/
def ErrorsConsistent (root : Node) : Prop :=
  ∀ n, root.Inside n → (n.hasError = true ↔ ∃ bad, n.Inside bad ∧ bad.isFault = true)

instance (root : Node) : Decidable root.ErrorsConsistent :=
  decidable_of_iff (∀ n ∈ root.nodes, (n.hasError = true ↔ ∃ bad ∈ n.nodes, bad.isFault = true)) <| by
    simp only [ErrorsConsistent, inside_iff_mem_nodes]

/-- Where flags are consistent in a node they are in its children. -/
theorem ErrorsConsistent.child {c : Node} (consistent : n.ErrorsConsistent) (child : c ∈ n.children) :
    c.ErrorsConsistent :=
  fun m inside => consistent m (.of_child child inside)

theorem nodesOfAll_eq_flatMap (ns : List Node) : nodesOfAll ns = ns.flatMap nodes := by
  induction ns with
  | nil => rfl
  | cons n ns ih => rw [nodesOfAll, List.flatMap_cons, ih]

theorem findSome?_congr {α β : Type} {f g : α → Option β} {as : List α} (same : ∀ a ∈ as, f a = g a) :
    as.findSome? f = as.findSome? g := by
  induction as with
  | nil => rfl
  | cons a as ih =>
      rw [List.findSome?_cons, List.findSome?_cons, same a List.mem_cons_self,
        ih fun a' mem => same a' (List.mem_cons_of_mem a mem)]

/-- The first fault of all is found. -/
theorem firstFault?_eq_find? (n : Node) (consistent : n.ErrorsConsistent) :
    n.firstFault? = n.nodes.find? isFault := by
  have inner : ∀ c ∈ n.children, c.firstFault? = c.nodes.find? isFault := by
    intro c child
    have lighter := weight_lt_of_mem_children child
    exact firstFault?_eq_find? c (consistent.child child)
  rw [firstFault?_eq, firstFaultIn?_eq, nodes_eq, List.find?_cons]
  by_cases isFault : n.isFault = true
  · simp [isFault]
  by_cases reported : n.hasError = true
  · simp [isFault, reported, nodesOfAll_eq_flatMap, List.find?_flatMap, findSome?_congr inner]
  · have none : (nodesOfAll n.children).find? Node.isFault = none := by
      rw [List.find?_eq_none]
      intro bad mem fault
      obtain ⟨c, child, inside⟩ := mem_nodesOfAll.1 mem
      exact reported ((consistent n .here).2 ⟨bad, .of_child child (inside_of_mem_nodes inside), fault⟩)
    simp [isFault, reported, none]
termination_by n.weight

/-- In a tree in which an error is reported there is a first fault of all. -/
theorem exists_fault_of_hasError (consistent : root.ErrorsConsistent) (reported : root.hasError = true) :
    ∃ bad, root.nodes.find? isFault = some bad := by
  obtain ⟨bad, inside, fault⟩ := (consistent root .here).1 reported
  exact Option.isSome_iff_exists.1 (List.find?_isSome.2 ⟨bad, inside_iff_mem_nodes.1 inside, fault⟩)

end Node

/-!
### Reports
-/

/-- A message names a node: what is missing, or that the text is unreadable, with the line and the column. -/
def TellsPlace (src : Source) (bad : Node) (message : String) : Prop :=
  if bad.isMissing = true then
    message = "missing '" ++ bad.kind ++ "' at line " ++ toString (src.line bad) ++ ", column " ++
      toString (src.column bad)
  else
    ∃ near, message = "syntax error at line " ++ toString (src.line bad) ++ ", column " ++ toString (src.column bad) ++
      near

variable {src : Source} {root bad : Node} {message : String}

/-- Such a message says more than that there is an error. -/
theorem TellsPlace.ne_bare (tells : TellsPlace src bad message) : message ≠ "syntax error" := by
  unfold TellsPlace at tells
  split at tells
  · rw [tells]
    intro same
    have letters := congrArg String.toList same
    simp [String.toList_append] at letters
  · obtain ⟨near, rfl⟩ := tells
    intro same
    have length := congrArg String.length same
    have longer : "syntax error at line ".length = 21 := by decide
    have bare : "syntax error".length = 12 := by decide
    simp only [String.length_append] at length
    omega

/-- The message about the first fault tells where it stands. -/
theorem tellsPlace_of_describeFault {fault : SyntaxFault} (first : root.firstFault? = some bad)
    (described : describeFault src root = .ok fault) : TellsPlace src bad fault.message := by
  simp only [describeFault, first] at described
  unfold TellsPlace
  split at described
  next missing =>
    cases described
    rw [if_pos missing]
    rfl
  next present =>
    rw [if_neg present]
    cases read : src.textOf bad with
    | error span => simp [read, Except.map] at described
    | ok text =>
        rw [read] at described
        cases described
        exact ⟨_, rfl⟩

/-- The first fault is described if its text can be read, or if it is a missing node. -/
theorem exists_describeFault (first : root.firstFault? = some bad)
    (readable : bad.isMissing = true ∨ ∃ text, src.textOf bad = .ok text) :
    ∃ fault, describeFault src root = .ok fault := by
  simp only [describeFault, first]
  split
  · exact ⟨_, rfl⟩
  next present =>
    rcases readable with missing | ⟨text, read⟩
    · exact absurd missing present
    · rw [read]
      exact ⟨_, rfl⟩

/-- A search with a stack and one from child to child find the same fault: the first, in the order of the text, of those
    with an error reported in every node above them, none of which is a fault itself; and none if there is no such
    fault. If an error is reported of exactly the nodes with a fault inside, it is the first fault of the whole tree. A
    tree with an error then has one, and any description of its fault, which is also why the tree is not accepted, tells
    the line and the column of that node and is never only that there is an error. -/
theorem firstFault?_foremost (src : Source) (root : Node) :
    Node.firstFaultOn [root] = root.firstFault? ∧
    (∀ bad, root.firstFault? = some bad ↔ ∃ address, root.FirstOpenFault address bad) ∧
    (root.firstFault? = none ↔ ∀ address bad, ¬ root.OpenFault address bad) ∧
    (root.ErrorsConsistent →
      root.firstFault? = root.nodes.find? Node.isFault ∧
      (root.hasError = true → ∃ bad, root.nodes.find? Node.isFault = some bad ∧
        (bad.isMissing = true ∨ (∃ text, src.textOf bad = .ok text) → ∃ fault, describeFault src root = .ok fault) ∧
        ∀ fault, describeFault src root = .ok fault →
          TellsPlace src bad fault.message ∧ fault.message ≠ "syntax error") ∧
      ∀ fault, checkTree src root = .error (.unparsable fault) →
        root.hasError = true ∧ describeFault src root = .ok fault) := by
  refine ⟨?_, fun bad => Node.firstFault?_eq_some_iff, Node.firstFault?_eq_none_iff, fun consistent => ?_⟩
  · rw [Node.firstFaultOn_eq, Node.firstFaultIn?, Node.firstFaultIn?]
    cases root.firstFault? <;> rfl
  have first := Node.firstFault?_eq_find? root consistent
  refine ⟨first, fun reported => ?_, fun fault rejected => ?_⟩
  · obtain ⟨bad, found⟩ := Node.exists_fault_of_hasError consistent reported
    have search := first.trans found
    refine ⟨bad, found, exists_describeFault search, fun fault described => ?_⟩
    have tells := tellsPlace_of_describeFault search described
    exact ⟨tells, tells.ne_bare⟩
  · obtain ⟨hopeless, described⟩ := checkTree_eq_unparsable_iff.1 rejected
    constructor
    · simp only [isHopeless, Bool.or_eq_true, beq_iff_eq, Bool.and_eq_true] at hopeless
      rcases hopeless with error | ⟨reported, -⟩
      · exact (consistent root .here).2 ⟨root, .here, by simp [Node.isFault, error]⟩
      · exact reported
    · cases result : describeFault src root with
      | error span => simp [result, Except.toOption] at described
      | ok fault' =>
          rw [result] at described
          cases described
          rfl

/-- A declaration without its semicolon, and something unreadable on the next line. -/
def unfinishedSource : Source := ⟨"let x\n@@"⟩

/-- What the parser supplied. -/
def suppliedMark : Node :=
  { kind := ";", start := 5, stop := 5, isNamed := false, isMissing := true, hasError := true, field := none,
    children := [] }

/-- The tree of `unfinishedSource`. -/
def unfinishedTree : Node :=
  .flawed (.construct "program" none 0 8
    [.flawed (.construct "lexical_declaration" none 0 5
      [.construct "variable_declarator" none 4 5 [.construct "identifier" (some "name") 4 5 []], suppliedMark]),
     .flawed (.construct "ERROR" none 6 8 [])])

/-- The missing mark is inside the first statement, and reported before what cannot be read behind it. -/
theorem firstFault?_foremost_unfinished :
    unfinishedTree.ErrorsConsistent ∧ unfinishedTree.hasError = true ∧
      (∃ address, unfinishedTree.FirstOpenFault address suppliedMark) ∧
      unfinishedTree.nodes.find? Node.isFault = some suppliedMark ∧
      checkTree unfinishedSource unfinishedTree = .error (.unparsable (.missing ";" 1 6)) ∧
      TellsPlace unfinishedSource suppliedMark (SyntaxFault.missing ";" 1 6).message ∧
      (SyntaxFault.missing ";" 1 6).message ≠ "syntax error" := by
  have consistent : unfinishedTree.ErrorsConsistent := by decide +kernel
  have search : unfinishedTree.firstFault? = some suppliedMark := by rfl
  have rejected : checkTree unfinishedSource unfinishedTree = .error (.unparsable (.missing ";" 1 6)) :=
    checkTree_eq_unparsable_iff.2 (by decide +kernel)
  obtain ⟨-, foremost, -, reports⟩ := firstFault?_foremost unfinishedSource unfinishedTree
  obtain ⟨first, described, reasons⟩ := reports consistent
  obtain ⟨reported, description⟩ := reasons _ rejected
  obtain ⟨bad, found, -, tells⟩ := described reported
  cases search.symm.trans (first.trans found)
  exact ⟨consistent, reported, (foremost suppliedMark).1 search, found, rejected, tells _ description⟩

/-- Where no node accounts for the error that is reported, nothing is found. -/
example : (Node.flawed (.construct "program" none 0 8 [.construct "comment" none 0 8 []])).firstFault? = none := by rfl

end Outline
