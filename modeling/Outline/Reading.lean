/-
Module: Outline.Reading
Layer: Core
Purpose: Computations that read the text of nodes. They log events on the way and end with a value, or with
  the span that could not be decoded. Events already logged stay logged when a later step fails, and what a
  computation logs never depends on what was logged before it.
Main exports: Reading, Reading.note, Reading.read, Reading.collect, Reading.recover
-/
import Outline.Event
import Outline.Source

namespace Outline

/-- Outcome of reading: the events logged, in order, and a value or the failure that ended it. -/
structure Reading (α : Type) where
  events : List Event
  result : Except Undecodable α

namespace Reading

variable {α β : Type}

/-- A value, without any event. -/
protected def pure (a : α) : Reading α := ⟨[], .ok a⟩

/-- One reading after another; a failure of the first ends both. -/
protected def bind (x : Reading α) (f : α → Reading β) : Reading β :=
  match x.result with
  | .error e => ⟨x.events, .error e⟩
  | .ok a => ⟨x.events ++ (f a).events, (f a).result⟩

instance : Monad Reading where
  pure := Reading.pure
  bind := Reading.bind

/-- A value that was read is handed on at once. -/
@[simp] theorem pure_bind (a : α) (f : α → Reading β) : (pure a >>= f : Reading β) = f a := rfl

/-- Handing every value on unchanged changes nothing. -/
theorem id_map (x : Reading α) : id <$> x = x := by
  obtain ⟨events, result⟩ := x
  cases result <;> simp [Functor.map, Reading.bind, Reading.pure]

/-- Steps may be grouped either way. -/
theorem bind_assoc {γ : Type} (x : Reading α) (f : α → Reading β) (g : β → Reading γ) :
    x >>= f >>= g = x >>= fun a => f a >>= g := by
  obtain ⟨events, result⟩ := x
  cases result with
  | error e => rfl
  | ok a =>
    simp only [bind, Reading.bind]
    cases (f a).result <;> simp

instance : LawfulMonad Reading := LawfulMonad.mk' Reading id_map pure_bind bind_assoc

/-- Log an event. -/
def note (e : Event) : Reading Unit := ⟨[e], .ok ()⟩

/-- Text of a node. -/
def read (src : Source) (n : Node) : Reading String := ⟨[], src.textOf n⟩

/-- Text of a node, or nothing when there is no node. -/
def readOrEmpty (src : Source) : Option Node → Reading String
  | some n => read src n
  | none => pure ""

/-- Read the elements of a list one after the other. -/
def collect (f : α → Reading β) : List α → Reading (List β)
  | [] => pure []
  | a :: as => do
    let b ← f a
    let bs ← collect f as
    pure (b :: bs)

/-- On failure log an event and go on with a value instead. -/
def recover (x : Reading α) (e : Event) (fallback : α) : Reading α :=
  match x.result with
  | .ok _ => x
  | .error _ => ⟨x.events ++ [e], .ok fallback⟩

end Reading

end Outline
