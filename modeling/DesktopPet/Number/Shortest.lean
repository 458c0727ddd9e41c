/-!
# Shortest decimals

The shortest decimal of a binary number is the one with the fewest digits among those that round to
it; of two with equally few digits, the nearer one. `shortest` finds it by trying decimal grids from
coarse to fine: only the two grid points around the value can be nearest, so a grid is settled by
two comparisons of natural numbers.
-/

namespace DesktopPet.Number

open Float.Model (Format)

/-- Which of two equally near decimals is taken. -/
inductive Tie where
  | upward | even
  deriving DecidableEq, Repr

/-- The decimal `digits · 10 ^ exponent`. -/
structure Decimal where
  digits : Nat
  exponent : Int
  deriving DecidableEq, Repr

/-- The reals that round to one binary number, in quarters of its last place: the number is
`value · 2 ^ exponent`, and the ends belong to the interval when its significand is even. -/
structure RoundingInterval where
  lower : Nat
  value : Nat
  upper : Nat
  exponent : Int
  closed : Bool
  deriving Repr

/-- The interval of `significand · 2 ^ exponent`. Below a power of two the neighbours lie closer. -/
def RoundingInterval.of (format : Format) (significand : Nat) (exponent : Int) : RoundingInterval :=
  let narrow := significand = Nat.pow 2 format.mantissaBitsWithoutImplicit ∧ exponent ≠ format.minExponent
  { lower := 4 * significand - (if narrow then 1 else 2)
    value := 4 * significand
    upper := 4 * significand + 2
    exponent := exponent - 2
    closed := significand % 2 = 0 }

/-- The nearest multiple of `10 ^ place` that lies in the interval, if one does. -/
def RoundingInterval.onGrid? (tie : Tie) (r : RoundingInterval) (place : Int) : Option Nat :=
  let scale := Nat.pow 2 r.exponent.toNat * Nat.pow 10 (-place).toNat
  let unit := Nat.pow 2 (-r.exponent).toNat * Nat.pow 10 place.toNat
  let value := r.value * scale
  let down := value / unit
  let within (lo hi : Nat) : Bool := if r.closed then lo ≤ hi else lo < hi
  let downFits := within (r.lower * scale) (down * unit)
  let upFits := within ((down + 1) * unit) (r.upper * scale)
  let excess := 2 * (value - down * unit)
  let upNearer := unit < excess || (unit = excess && (tie = .upward || down % 2 = 1))
  if upFits && (!downFits || upNearer) then some (down + 1)
  else if downFits then some down
  else none

/-- A decimal place above which no grid has a point in the interval but zero. -/
def topPlace (significand : Nat) (exponent : Int) : Int :=
  (significand.log2 + 1 + exponent) * 30103 / 100000 + 2

/-- The number itself, written out. -/
def exactDecimal (significand : Nat) (exponent : Int) : Decimal :=
  if 0 ≤ exponent then ⟨significand * Nat.pow 2 exponent.toNat, 0⟩
  else ⟨significand * Nat.pow 5 (-exponent).toNat, exponent⟩

/-- The shortest decimal that rounds to `significand · 2 ^ exponent`. Seventeen digits always
suffice, so the exact decimal at the end is out of reach. -/
def shortest (format : Format) (tie : Tie) (significand : Nat) (exponent : Int) : Decimal :=
  let interval := RoundingInterval.of format significand exponent
  let top := topPlace significand exponent
  let found := (List.range 24).findSome? fun (i : Nat) =>
    (interval.onGrid? tie (top - i)).map (Decimal.mk · (top - i))
  found.getD (exactDecimal significand exponent)

end DesktopPet.Number
