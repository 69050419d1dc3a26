/-
Module: Outline.Tree.Fault
Layer: Tree
Purpose: Whether a parsed file holds anything usable, and how its first fault is described when it does not.
  A tree with faults is accepted as long as one statement of the file is well formed.
Main exports: Node.isFault, Node.firstFault?, Node.isWellFormed, SyntaxFault, SyntaxFault.message, Failure,
  checkTree
-/
import Outline.Source
import Outline.Specifier.Inquiry
import Outline.Text.Quoted

namespace Outline

namespace Node

/-- Is the node itself a fault: unreadable text, or something the parser had to supply? -/
def isFault (n : Node) : Bool := n.kind == "ERROR" || n.isMissing

mutual

/-- First fault of a tree in reading order. Only nodes in which an error is reported are searched. -/
def firstFault? : Node → Option Node
  | ⟨kind, start, stop, isNamed, isMissing, hasError, field, children⟩ =>
    let n : Node := ⟨kind, start, stop, isNamed, isMissing, hasError, field, children⟩
    if n.isFault then some n
    else if hasError then firstFaultIn? children
    else none

/-- First fault of a list of trees. -/
def firstFaultIn? : List Node → Option Node
  | [] => none
  | c :: cs =>
    match c.firstFault? with
    | some bad => some bad
    | none => firstFaultIn? cs

end

/-- The first fault is the node itself, or one below it if it has the flag. -/
theorem firstFault?_eq (n : Node) : n.firstFault? =
    if n.isFault then some n else if n.hasError then firstFaultIn? n.children else none := by
  cases n; rw [firstFault?]

/-- The first fault of a list is that of the first node with one. -/
theorem firstFaultIn?_eq (ns : List Node) : firstFaultIn? ns = ns.findSome? firstFault? := by
  induction ns with
  | nil => rfl
  | cons n ns ih =>
    rw [firstFaultIn?, List.findSome?_cons, ih]
    cases n.firstFault? <;> rfl

/-- Kinds of statements without content. -/
def triviaKinds : List String := ["ERROR", "comment", "empty_statement", "hash_bang_line"]

/-- Has the statement content and no error? -/
def isWellFormed (n : Node) : Bool := !triviaKinds.contains n.kind && !n.hasError

end Node

/-- Why a file was not accepted. -/
inductive SyntaxFault where
  /-- Something is missing at a line and column. -/
  | missing (kind : String) (line column : Nat)
  /-- Unreadable text at a line and column, with its beginning if it is not blank. -/
  | unreadable (line column : Nat) (near : Option String)
  /-- An error that no node accounts for. -/
  | unlocated
deriving DecidableEq, Repr, Inhabited

/-- Wording of a syntax fault. -/
def SyntaxFault.message : SyntaxFault → String
  | .missing kind line column =>
    "missing '" ++ kind ++ "' at line " ++ toString line ++ ", column " ++ toString column
  | .unreadable line column near =>
    "syntax error at line " ++ toString line ++ ", column " ++ toString column ++
      match near with
      | some snippet => " near " ++ Text.quoted snippet
      | none => ""
  | .unlocated => "syntax error"

/-- Why no outline was made of a file. -/
inductive Failure where
  | unparsable (fault : SyntaxFault)
  | undecodable (span : Undecodable)
  /-- A probe broke off over one of its specifiers. -/
  | interrupted (why : Specifier.Interruption)
deriving DecidableEq, Repr, Inhabited

/-- Wording of a syntax fault as the reason of a failure. -/
def SyntaxFault.report (fault : SyntaxFault) : String :=
  "Failed to parse TypeScript code: " ++ fault.message

/-- First line of a text without blanks around it, cut to 40 characters. -/
def snippetOf (s : String) : Option String :=
  (Text.lines (Text.trim s).toList).head?.map fun l => String.ofList (l.take 40)

/-- Describe the first fault of a tree. -/
def describeFault (src : Source) (root : Node) : Except Undecodable SyntaxFault :=
  match root.firstFault? with
  | none => .ok .unlocated
  | some bad =>
    if bad.isMissing then .ok (.missing bad.kind (src.line bad) (src.column bad))
    else (src.textOf bad).map fun text => .unreadable (src.line bad) (src.column bad) (snippetOf text)

/-- Is there nothing usable in the tree? -/
def isHopeless (root : Node) : Bool :=
  root.kind == "ERROR" || (root.hasError && !root.named.any Node.isWellFormed)

/-- Accept a tree, or tell why it is not usable. -/
def checkTree (src : Source) (root : Node) : Except Failure Unit :=
  if isHopeless root then
    match describeFault src root with
    | .ok fault => .error (.unparsable fault)
    | .error span => .error (.undecodable span)
  else .ok ()

/-- A tree is not accepted exactly if nothing in it is usable and its first fault can be described. -/
theorem checkTree_eq_unparsable_iff {src : Source} {root : Node} {fault : SyntaxFault} :
    checkTree src root = .error (.unparsable fault) ↔
      isHopeless root = true ∧ (describeFault src root).toOption = some fault := by
  unfold checkTree
  cases isHopeless root with
  | false => simp
  | true => cases describeFault src root <;> simp [Except.toOption]

end Outline
