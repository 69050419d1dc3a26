/-
Module: Outline.Hash.Sha256
Layer: Data
Purpose: The SHA-256 digest of a byte sequence in hexadecimal: padding to whole blocks, then a fold of the
  compression step over the blocks.
Main exports: sha256
-/
import Outline.Text.Quoted

namespace Outline.Sha256

/-- The eight words of the state. -/
structure State where
  a : UInt32
  b : UInt32
  c : UInt32
  d : UInt32
  e : UInt32
  f : UInt32
  g : UInt32
  h : UInt32
deriving DecidableEq, Repr, Inhabited

/-- The state before the first block. -/
def initial : State :=
  ⟨0x6a09e667, 0xbb67ae85, 0x3c6ef372, 0xa54ff53a, 0x510e527f, 0x9b05688c, 0x1f83d9ab, 0x5be0cd19⟩

/-- The constants of the sixty-four rounds. -/
def roundConstants : List UInt32 :=
  [0x428a2f98, 0x71374491, 0xb5c0fbcf, 0xe9b5dba5, 0x3956c25b, 0x59f111f1, 0x923f82a4, 0xab1c5ed5,
   0xd807aa98, 0x12835b01, 0x243185be, 0x550c7dc3, 0x72be5d74, 0x80deb1fe, 0x9bdc06a7, 0xc19bf174,
   0xe49b69c1, 0xefbe4786, 0x0fc19dc6, 0x240ca1cc, 0x2de92c6f, 0x4a7484aa, 0x5cb0a9dc, 0x76f988da,
   0x983e5152, 0xa831c66d, 0xb00327c8, 0xbf597fc7, 0xc6e00bf3, 0xd5a79147, 0x06ca6351, 0x14292967,
   0x27b70a85, 0x2e1b2138, 0x4d2c6dfc, 0x53380d13, 0x650a7354, 0x766a0abb, 0x81c2c92e, 0x92722c85,
   0xa2bfe8a1, 0xa81a664b, 0xc24b8b70, 0xc76c51a3, 0xd192e819, 0xd6990624, 0xf40e3585, 0x106aa070,
   0x19a4c116, 0x1e376c08, 0x2748774c, 0x34b0bcb5, 0x391c0cb3, 0x4ed8aa4a, 0x5b9cca4f, 0x682e6ff3,
   0x748f82ee, 0x78a5636f, 0x84c87814, 0x8cc70208, 0x90befffa, 0xa4506ceb, 0xbef9a3f7, 0xc67178f2]

/-- Rotation to the right, for amounts from 1 to 31. -/
def rotateRight (x n : UInt32) : UInt32 := (x >>> n) ||| (x <<< (32 - n))

/-- Append one word to the message schedule, of which the last sixteen are used. -/
def extendSchedule (w : Array UInt32) (_ : Nat) : Array UInt32 :=
  let at' (back : Nat) : UInt32 := w.getD (w.size - back) 0
  let x := at' 15
  let y := at' 2
  let s0 := rotateRight x 7 ^^^ rotateRight x 18 ^^^ (x >>> 3)
  let s1 := rotateRight y 17 ^^^ rotateRight y 19 ^^^ (y >>> 10)
  w.push (at' 16 + s0 + at' 7 + s1)

/-- One round, with its constant and its word of the schedule. -/
def round (s : State) (kw : UInt32 × UInt32) : State :=
  let s1 := rotateRight s.e 6 ^^^ rotateRight s.e 11 ^^^ rotateRight s.e 25
  let ch := (s.e &&& s.f) ^^^ ((~~~s.e) &&& s.g)
  let t1 := s.h + s1 + ch + kw.1 + kw.2
  let s0 := rotateRight s.a 2 ^^^ rotateRight s.a 13 ^^^ rotateRight s.a 22
  let maj := (s.a &&& s.b) ^^^ (s.a &&& s.c) ^^^ (s.b &&& s.c)
  ⟨t1 + (s0 + maj), s.a, s.b, s.c, s.d + t1, s.e, s.f, s.g⟩

/-- Take a block of sixteen words into the state. -/
def compress (s : State) (block : Array UInt32) : State :=
  let schedule := (List.range 48).foldl extendSchedule block
  let t := (roundConstants.zip schedule.toList).foldl round s
  ⟨s.a + t.a, s.b + t.b, s.c + t.c, s.d + t.d, s.e + t.e, s.f + t.f, s.g + t.g, s.h + t.h⟩

/-- Byte at an offset of the padded message: the message, a mark, zeros, and the length in bits at the end. -/
def paddedByte (message : ByteArray) (total i : Nat) : UInt8 :=
  if h : i < message.size then message[i]
  else if i = message.size then 0x80
  else if i + 8 < total then 0
  else ((8 * message.size) >>> (8 * (total - 1 - i))).toUInt8

/-- Word at an offset of the padded message. -/
def paddedWord (message : ByteArray) (total i : Nat) : UInt32 :=
  (List.range 4).foldl (fun w k => (w <<< 8) ||| (paddedByte message total (i + k)).toUInt32) 0

/-- Number of blocks of the padded message. -/
def blockCount (size : Nat) : Nat := (size + 9 + 63) / 64

/-- State after the whole message. -/
def digestState (message : ByteArray) : State :=
  let blocks := blockCount message.size
  (List.range blocks).foldl (fun s k =>
    compress s (((List.range 16).map fun j => paddedWord message (64 * blocks) (64 * k + 4 * j)).toArray)) initial

/-- The words of a state. -/
def State.words (s : State) : List UInt32 := [s.a, s.b, s.c, s.d, s.e, s.f, s.g, s.h]

end Sha256

/-- The SHA-256 digest of a byte sequence in hexadecimal. -/
def sha256 (message : ByteArray) : String :=
  String.ofList ((Sha256.digestState message).words.flatMap fun w => Text.hexDigits 8 w.toNat)

end Outline
