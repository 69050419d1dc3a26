/-
Module: Outline.Decimal
Layer: Data
Purpose: Numbers written with a fraction or an exponent, kept exactly as written. Only one question is ever
  asked of them: which integer the nearest double is, if it is one.
Main exports: Decimal, Whole, Decimal.whole
-/

namespace Outline

/-- A number as written: `digits * 10 ^ exponent` with its sign, or one of the values without digits. -/
inductive Decimal where
  | finite (negative : Bool) (digits : Nat) (exponent : Int)
  | infinite (negative : Bool)
  | notANumber
deriving DecidableEq, Repr, Inhabited

/-- How a double relates to the integers. -/
inductive Whole where
  /-- It is this integer. -/
  | integer (n : Int)
  /-- It is an integer outside the range of 64-bit integers. -/
  | tooLarge
  /-- It has a fraction. -/
  | fraction
  /-- It is infinite or not a number. -/
  | notFinite
deriving DecidableEq, Repr, Inhabited

/-- Number of decimal digits. -/
def digitCount (n : Nat) : Nat := (Nat.toDigits 10 n).length

/-- The nearest double of a magnitude. Exponents past the range of doubles are answered at once. -/
def nearestDouble (digits : Nat) (exponent : Int) : Float :=
  let order := (digitCount digits : Int) + exponent
  if digits = 0 || order < -400 then 0.0
  else if order > 400 then 1.0 / 0.0
  else if exponent < 0 then Float.ofScientific digits true exponent.natAbs
  else Float.ofScientific digits false exponent.natAbs

/-- The integer that the nearest double of a written number is. -/
def Decimal.whole : Decimal → Whole
  | .infinite _ | .notANumber => .notFinite
  | .finite negative digits exponent =>
    let x := nearestDouble digits exponent
    if x.isInf then .notFinite
    else if x.floor != x then .fraction
    else if x ≥ 9223372036854775808.0 then .tooLarge
    else
      let n : Int := x.toUInt64.toNat
      .integer (if negative then -n else n)

end Outline
