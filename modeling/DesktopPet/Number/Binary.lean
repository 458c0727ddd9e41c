/-!
# Binary floating-point numbers

Positions, times and velocities are binary32 numbers; numbers in conditions are binary64. The core
types `Float32` and `Float` carry the arithmetic. This module adds what they leave out: conversion
between the two formats, minimum, maximum and clamping with a stated treatment of NaN, and the
remainder of a division.
-/

namespace DesktopPet.Number

open Float.Model (Format UnpackedFloat)

/-- The value of an unpacked number rounded to the nearest number of `format`; a tie goes to the
even significand, and what is too large becomes an infinity when it is packed. -/
def roundTo (format : Format) : UnpackedFloat → UnpackedFloat
  | .finite sign significand exponent _ => .round format sign significand exponent
  | special => special

/-- The binary64 number of the same value; every binary32 number has one. -/
def widen (x : Float32) : Float :=
  .ofModel (.pack (roundTo .binary64 x.toModel.unpack))

def narrow (x : Float) : Float32 :=
  .ofModel (.pack (roundTo .binary32 x.toModel.unpack))

/-- The larger operand; NaN counts as missing, and the first operand stays when neither is larger. -/
def maximum (x y : Float32) : Float32 :=
  if x.isNaN then y else if x < y then y else x

/-- A number where it is positive, and zero elsewhere; NaN is not positive. -/
def positivePart (x : Float32) : Float32 :=
  if 0.0 < x then x else 0.0

/-- The smaller operand of two binary64 numbers; NaN counts as missing. -/
def minimum64 (x y : Float) : Float :=
  if x.isNaN then y else if y < x then y else x

/-- The larger operand of two binary64 numbers; NaN counts as missing. -/
def maximum64 (x y : Float) : Float :=
  if x.isNaN then y else if x < y then y else x

/-- `x` limited to the interval from `lo` to `hi`. NaN passes unchanged. -/
def clamp (lo hi x : Float32) : Float32 :=
  let raised := if x < lo then lo else x
  if hi < raised then hi else raised

def finite? (x : Float32) : Option Float32 :=
  if x.isFinite then some x else none

/-- Significand and remainder of two numbers brought to one exponent: `a · 2 ^ ea` modulo
`b · 2 ^ eb`, as a multiple of `2 ^ min ea eb`. -/
def scaledRemainder (a : Nat) (ea : Int) (b : Nat) (eb : Int) : Nat × Int :=
  let e := min ea eb
  ((a <<< (ea - e).toNat) % (b <<< (eb - e).toNat), e)

/-- Remainder of the division that rounds toward zero: exact, with the sign of the dividend.
Without a finite dividend and a nonzero divisor there is none, and the answer is NaN. -/
def remainder (x y : Float) : Float :=
  match x.toModel.unpack, y.toModel.unpack with
  | .finite sign a ea _, .finite _ b eb _ =>
    let (r, e) := scaledRemainder a ea b eb
    .ofModel (.pack (if r = 0 then .zero sign else .round .binary64 sign r e))
  | .finite .., .infinity _ => x
  | .zero _, .finite .. => x
  | .zero _, .infinity _ => x
  | _, _ => .ofModel (.pack .notANumber)

end DesktopPet.Number
