/-
Module: Outline.Specifier.Inquiry
Layer: Specifier
Purpose: Questions to a probe. A computation that asks some records every path it asked for, in order. It ends with
  a value, or with the reason for which a probe broke off instead of answering; nothing is asked after that.
Main exports: Interruption, Answer, Probe, Inquiry, ask
-/
namespace Outline.Specifier

/-- Why a probe breaks off. -/
inductive Interruption where
  /-- A command is not even started when there is a zero character in a word of it. -/
  | zeroCharacter
  /-- Anything else, in the words of the probe. -/
  | raised (reason : String)
deriving DecidableEq, Repr, Inhabited

/-- Wording of an interruption. -/
def Interruption.message : Interruption → String
  | .zeroCharacter => "embedded null byte"
  | .raised reason => reason

/-- What a probe says about a path. -/
inductive Answer where
  | found
  | absent
  /-- The system could not tell; this counts as absent. -/
  | failed
  /-- There is no answer, and whoever asked breaks off as well. -/
  | interrupted (why : Interruption)
deriving DecidableEq, Repr, Inhabited

/-- Does an answer confirm the path? -/
def Answer.confirms : Answer → Except Interruption Bool
  | .found => .ok true
  | .absent | .failed => .ok false
  | .interrupted why => .error why

/-- Tells of project-relative paths whether they are files. -/
abbrev Probe := String → Answer

/-- Outcome of asking: the paths asked for, and a value or the interruption that ended it. -/
structure Inquiry (α : Type) where
  asked : List String
  result : Except Interruption α

namespace Inquiry

variable {α β : Type}

/-- A value, without asking. -/
protected def pure (a : α) : Inquiry α := ⟨[], .ok a⟩

/-- One inquiry after another; an interruption of the first ends both. -/
protected def bind (x : Inquiry α) (f : α → Inquiry β) : Inquiry β :=
  match x.result with
  | .error why => ⟨x.asked, .error why⟩
  | .ok a => ⟨x.asked ++ (f a).asked, (f a).result⟩

instance : Monad Inquiry where
  pure := Inquiry.pure
  bind := Inquiry.bind

/-- A value that is there is handed on at once. -/
@[simp] theorem pure_bind (a : α) (f : α → Inquiry β) : (pure a >>= f : Inquiry β) = f a := rfl

/-- Handing every value on unchanged changes nothing. -/
theorem id_map (x : Inquiry α) : id <$> x = x := by
  obtain ⟨asked, result⟩ := x
  cases result <;> simp [Functor.map, Inquiry.bind, Inquiry.pure]

/-- Inquiries may be grouped either way. -/
theorem bind_assoc {γ : Type} (x : Inquiry α) (f : α → Inquiry β) (g : β → Inquiry γ) :
    x >>= f >>= g = x >>= fun a => f a >>= g := by
  obtain ⟨asked, result⟩ := x
  cases result with
  | error why => rfl
  | ok a =>
    simp only [bind, Inquiry.bind]
    cases (f a).result <;> simp

instance : LawfulMonad Inquiry := LawfulMonad.mk' Inquiry id_map pure_bind bind_assoc

end Inquiry

/-- Ask a probe whether it confirms a path. -/
def ask (probe : Probe) (path : String) : Inquiry Bool := ⟨[path], (probe path).confirms⟩

end Outline.Specifier
