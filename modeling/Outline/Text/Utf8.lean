/-
Module: Outline.Text.Utf8
Layer: Text
Purpose: Byte sequences as UTF-8 text. `step` looks at the front of a sequence and tells either the
  character that stands there or how many bytes form a maximal ill-formed piece, and why. The replacing
  decoder and the report of the first fault are both read off it; strict decoding is that of the core
  library.
Main exports: Fault, Step, step, decodeReplacing, IllFormed, firstIllFormed, IllFormed.message, decode
-/
import Outline.Text.Quoted

namespace Outline.Text.Utf8

/-- What is wrong at the front of an ill-formed sequence. -/
inductive Fault where
  | invalidStart
  | invalidContinuation
  | unexpectedEnd
deriving DecidableEq, Repr, Inhabited

/-- Wording of a fault. -/
def Fault.message : Fault → String
  | .invalidStart => "invalid start byte"
  | .invalidContinuation => "invalid continuation byte"
  | .unexpectedEnd => "unexpected end of data"

/-- What stands at the front of a byte sequence: a character, or a maximal ill-formed piece. `extra` is the
    number of bytes after the first that belong to it. -/
inductive Step where
  | scalar (c : Char) (extra : Nat)
  | illFormed (fault : Fault) (extra : Nat)
deriving DecidableEq, Repr, Inhabited

/-- Bytes of a step after the first. -/
def Step.extra : Step → Nat
  | .scalar _ n => n
  | .illFormed _ n => n

/-- Is the byte in a closed range? -/
def within (lo hi : Nat) (b : UInt8) : Bool := lo ≤ b.toNat && b.toNat ≤ hi

/-- Payload of a continuation byte. -/
def payload (b : UInt8) : Nat := b.toNat - 0x80

/-- The rest of a sequence of `remaining` continuation bytes, of which the next must lie in `lo..hi`; `seen`
    counts those read and `value` is the code point so far. -/
def continuation (lo hi : Nat) : (remaining seen value : Nat) → List UInt8 → Step
  | 0, seen, value, _ => .scalar (Char.ofNat value) seen
  | _ + 1, seen, _, [] => .illFormed .unexpectedEnd seen
  | remaining + 1, seen, value, b :: rest =>
    if within lo hi b then continuation 0x80 0xBF remaining (seen + 1) (value * 64 + payload b) rest
    else .illFormed .invalidContinuation seen

/-- What stands at the front of the sequence `lead :: rest`. The bounds on the second byte exclude overlong
    forms, surrogates and numbers past the last code point. -/
def step (lead : UInt8) (rest : List UInt8) : Step :=
  let n := lead.toNat
  if n < 0x80 then .scalar (Char.ofNat n) 0
  else if n < 0xC2 then .illFormed .invalidStart 0
  else if n < 0xE0 then continuation 0x80 0xBF 1 0 (n - 0xC0) rest
  else if n < 0xF0 then
    continuation (if n = 0xE0 then 0xA0 else 0x80) (if n = 0xED then 0x9F else 0xBF) 2 0 (n - 0xE0) rest
  else if n < 0xF5 then
    continuation (if n = 0xF0 then 0x90 else 0x80) (if n = 0xF4 then 0x8F else 0xBF) 3 0 (n - 0xF0) rest
  else .illFormed .invalidStart 0

/-- The character a step writes: itself, or the replacement character. -/
def Step.shown : Step → Char
  | .scalar c _ => c
  | .illFormed _ _ => Char.ofNat 0xFFFD

/-- Decode, with one replacement character for each maximal ill-formed piece. -/
def decodeReplacing : List UInt8 → List Char
  | [] => []
  | lead :: rest => (step lead rest).shown :: decodeReplacing (rest.drop (step lead rest).extra)
termination_by bytes => bytes.length
decreasing_by simp only [List.length_drop, List.length_cons]; omega

/-- The first ill-formed piece of a byte sequence. -/
structure IllFormed where
  /-- Offset of its first byte. -/
  position : Nat
  /-- Its first byte. -/
  lead : UInt8
  /-- Bytes after the first. -/
  extra : Nat
  fault : Fault
deriving DecidableEq, Repr, Inhabited

/-- The first ill-formed piece at or after the given offset, if there is one. -/
def firstIllFormedFrom (position : Nat) : List UInt8 → Option IllFormed
  | [] => none
  | lead :: rest =>
    match step lead rest with
    | .illFormed fault extra => some { position, lead, extra, fault }
    | .scalar _ extra => firstIllFormedFrom (position + extra + 1) (rest.drop extra)
termination_by bytes => bytes.length
decreasing_by simp only [List.length_drop, List.length_cons]; omega

/-- The first ill-formed piece of a byte sequence, if there is one. -/
def firstIllFormed (bytes : List UInt8) : Option IllFormed := firstIllFormedFrom 0 bytes

/-- Report of an ill-formed piece: its byte when it has one only, else the range of its offsets. -/
def IllFormed.message (e : IllFormed) : String :=
  let what :=
    if e.extra = 0 then
      "byte 0x" ++ String.ofList (hexDigits 2 e.lead.toNat) ++ " in position " ++ toString e.position
    else
      "bytes in position " ++ toString e.position ++ "-" ++ toString (e.position + e.extra)
  "'utf-8' codec can't decode " ++ what ++ ": " ++ e.fault.message

/-- Decode, or tell the first ill-formed piece. -/
def decode (bytes : ByteArray) : Except IllFormed String :=
  match String.fromUTF8? bytes with
  | some s => .ok s
  | none => .error ((firstIllFormed bytes.data.toList).getD default)

end Outline.Text.Utf8
