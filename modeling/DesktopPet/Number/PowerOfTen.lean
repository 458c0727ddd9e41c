import DesktopPet.Number.Binary

/-!
# Powers of ten

`powerOfTen x` is the binary32 number nearest to `10 ^ x`. The exponent is split into a whole part
and a fraction `f`; `10 ^ f = exp (f · ln 10)` is summed in fixed point with far more places than a
binary32 number has, and the whole part scales the sum exactly before the one rounding.
-/

namespace DesktopPet.Number

open Float.Model (UnpackedFloat)

/-- Places after the binary point of the fixed-point numbers here. -/
def fixedPlaces : Nat := 200

def fixedOne : Nat := Nat.pow 2 fixedPlaces

/-- `artanh (1 / n) = 1/n + 1/(3 n³) + 1/(5 n⁵) + …` in fixed point, to `terms` terms. -/
def inverseArtanh (n terms : Nat) : Nat :=
  (List.range terms).foldl (fun sum i => sum + fixedOne / ((2 * i + 1) * Nat.pow n (2 * i + 1))) 0

/-- `ln 10 = 6 artanh (1/3) + 2 artanh (1/9)`, since `10 = 2³ · 5/4`. -/
def naturalLogOfTen : Nat :=
  6 * inverseArtanh 3 70 + 2 * inverseArtanh 9 40

/-- `exp y = 1 + y + y²/2! + …` in fixed point, term after term. -/
def exponentialSeries (y : Nat) : Nat → Nat → Nat → Nat
  | 0, _, _ => 0
  | terms + 1, index, term => term + exponentialSeries y terms (index + 1) (term * y / fixedOne / (index + 1))

/-- `exp y` in fixed point, for `y` below three. -/
def exponential (y : Nat) : Nat :=
  exponentialSeries y 80 0 fixedOne

/-- The nearest binary32 number to a quotient of positive numbers. -/
def ofQuotient (numerator denominator : Nat) : Float32 :=
  if hn : 0 < numerator then
    if hd : 0 < denominator then
      .ofModel (.pack (.div .binary32 (.finite .positive numerator 0 hn) (.finite .positive denominator 0 hd)))
    else .ofModel (.pack (.infinity .positive))
  else .ofModel (.pack (.zero .positive))

/-- `10 ^ x` rounded to nearest. Exponents above 50 overflow and those below -60 vanish. That the power is rounded
exactly is an assumption: a mathematical library may miss the last place. -/
def powerOfTen (x : Float32) : Float32 :=
  match x.toModel.unpack with
  | .notANumber => .ofModel (.pack .notANumber)
  | .infinity .positive => .ofModel (.pack (.infinity .positive))
  | .infinity .negative => .ofModel (.pack (.zero .positive))
  | .zero _ => .ofModel (.ofNat 1)
  | .finite sign significand exponent _ =>
    let magnitude := if 0 ≤ exponent then significand <<< (fixedPlaces + exponent.toNat)
      else (significand <<< fixedPlaces) >>> (-exponent).toNat
    let fixed := sign.apply magnitude
    let whole := fixed.fdiv fixedOne
    if 50 < whole then .ofModel (.pack (.infinity .positive))
    else if whole < -60 then .ofModel (.pack (.zero .positive))
    else
      let fraction := (fixed.fmod fixedOne).toNat
      let power := exponential (fraction * naturalLogOfTen / fixedOne)
      ofQuotient (power * Nat.pow 10 whole.toNat) (fixedOne * Nat.pow 10 (-whole).toNat)

end DesktopPet.Number
