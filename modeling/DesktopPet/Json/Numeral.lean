import DesktopPet.Number.Notation

/-!
# JSON numerals

A numeral is kept as written, because its reading depends on what is asked for: whole numbers are
read exactly, anything else is read into binary64 by one rounding of the leading digits and one
scaling by a power of ten.
-/

namespace DesktopPet.Json

open Number

/-- A numeral as written: the digits before and after the point and the exponent, if there is one. -/
structure Numeral where
  negative : Bool
  whole : List Char
  fraction : List Char
  exponent : Option Int
  deriving DecidableEq, Repr

namespace Numeral

/-- The largest significand that is kept. -/
def significandLimit : Nat := Nat.pow 2 64 - 1

/-- Largest size of a written exponent; beyond it a number counts as zero or as too large. -/
def exponentLimit : Int := Int.pow 2 31 - 1

/-- Appends digits to a significand as long as it stays within the limit; what is left over is the
second part. -/
def appendDigits (significand : Nat) : List Char → Nat × List Char
  | [] => (significand, [])
  | c :: rest =>
    let longer := 10 * significand + (c.toNat - '0'.toNat)
    if longer ≤ significandLimit then appendDigits longer rest else (significand, c :: rest)

/-- The significand and the power of ten that scales it. Digits that do not fit are dropped; those
before the point raise the power. -/
def parts (n : Numeral) : Nat × Int :=
  let (significand, droppedWhole) := appendDigits 0 n.whole
  let (significand, droppedFraction) := appendDigits significand n.fraction
  (significand, droppedWhole.length - (n.fraction.length - droppedFraction.length : Nat))

/-- A number scaled by a power of ten in one step, or by several divisions where the power is out of
range. A result that is not finite is no result. -/
def scale? (x : Float) (exponent : Int) : Option Float :=
  if 308 < exponent then
    if x == 0.0 then some x else none
  else if 0 ≤ exponent then
    let scaled := x * ofDecimal ⟨1, exponent⟩
    if scaled.isInf then none else some scaled
  else if -308 ≤ exponent then some (x / ofDecimal ⟨1, -exponent⟩)
  else if x == 0.0 then some x
  else scale? (x / ofDecimal ⟨1, 308⟩) (exponent + 308)
termination_by (-exponent).toNat

/-- The size of the number in binary64; none if it is too large. -/
def size? (n : Numeral) : Option Float :=
  let (significand, power) := n.parts
  let written := n.exponent.getD 0
  if exponentLimit < written then
    if significand = 0 then some 0.0 else none
  else if written < -exponentLimit then some 0.0
  else scale? significand.toUInt64.toFloat (power + written)

/-- The number in binary64; none if it is too large. -/
def toFloat? (n : Numeral) : Option Float :=
  n.size?.map fun x => if n.negative then -x else x

/-- The whole number that a numeral without point and exponent names. A minus sign before zero does
not make a whole number, and neither do numbers beyond 64 bits. -/
def toInt? (n : Numeral) : Option Int :=
  let size := digitsValue n.whole
  if n.fraction.isEmpty && n.exponent.isNone then
    if n.negative then
      if 0 < size && size ≤ Nat.pow 2 63 then some (-size) else none
    else if size ≤ significandLimit then some size else none
  else none

/-- The number in binary32: whole numbers are rounded once, others by way of binary64. -/
def toFloat32? (n : Numeral) : Option Float32 :=
  match n.toInt? with
  | some (.ofNat size) => some size.toUInt64.toFloat32
  | some (.negSucc size) => some (-(size + 1).toUInt64.toFloat32)
  | none => n.toFloat?.map narrow

end Numeral

end DesktopPet.Json
