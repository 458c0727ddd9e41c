import DesktopPet.Number.Binary
import DesktopPet.Number.Shortest

/-!
# Written numbers

Numbers are written with the fewest digits that read back, positionally: no exponent, no trailing
`.0`. They are read from digits with an optional sign, point and exponent, or from one of the names
of infinity and NaN.
-/

namespace DesktopPet.Number

open Float.Model (Format UnpackedFloat)

/-- The digits of a decimal with the point put in its place. -/
def Decimal.positional (d : Decimal) : String :=
  let digits := toString d.digits
  if 0 ≤ d.exponent then digits ++ "".pushn '0' d.exponent.toNat
  else
    let places := (-d.exponent).toNat
    let padded := ("".pushn '0' (places + 1 - digits.length) ++ digits).toList
    let whole := padded.length - places
    String.ofList (padded.take whole) ++ "." ++ String.ofList (padded.drop whole)

/-- The text of a number in positional notation; a tie between two shortest decimals goes upward. -/
def display (format : Format) : UnpackedFloat → String
  | .notANumber => "NaN"
  | .infinity .positive => "inf"
  | .infinity .negative => "-inf"
  | .zero .positive => "0"
  | .zero .negative => "-0"
  | .finite .positive significand exponent _ => (shortest format .upward significand exponent).positional
  | .finite .negative significand exponent _ =>
    "-" ++ (shortest format .upward significand exponent).positional

def display32 (x : Float32) : String :=
  display .binary32 x.toModel.unpack

def display64 (x : Float) : String :=
  display .binary64 x.toModel.unpack

/-- The number that decimal digits name; other characters do not occur. -/
def digitsValue (digits : List Char) : Nat :=
  digits.foldl (fun n c => 10 * n + (c.toNat - '0'.toNat)) 0

/-- The nearest binary64 number to `digits · 10 ^ exponent`. -/
def ofDecimal (d : Decimal) : Float :=
  if 0 ≤ d.exponent then .ofScientific d.digits false d.exponent.toNat
  else .ofScientific d.digits true (-d.exponent).toNat

/-- The exponent after an `e`: digits with an optional sign, and nothing else. -/
def exponent? : List Char → Option Int
  | '-' :: digits => if !digits.isEmpty && digits.all Char.isDigit then some (-(digitsValue digits : Int)) else none
  | '+' :: digits => if !digits.isEmpty && digits.all Char.isDigit then some (digitsValue digits) else none
  | digits => if !digits.isEmpty && digits.all Char.isDigit then some (digitsValue digits) else none

/-- A decimal without a sign: digits with at most one point and at least one digit, then an optional
exponent. -/
def decimal? (text : List Char) : Option Decimal :=
  let whole := text.takeWhile Char.isDigit
  let afterWhole := text.dropWhile Char.isDigit
  let (fraction, rest) := match afterWhole with
    | '.' :: more => (more.takeWhile Char.isDigit, more.dropWhile Char.isDigit)
    | other => ([], other)
  if whole.isEmpty && fraction.isEmpty then none
  else
    let scaled (e : Int) : Decimal := ⟨digitsValue (whole ++ fraction), e - fraction.length⟩
    match rest with
    | [] => some (scaled 0)
    | 'e' :: more => (exponent? more).map scaled
    | 'E' :: more => (exponent? more).map scaled
    | _ => none

/-- A number without a sign: a decimal, or infinity or NaN by name in any case. -/
def magnitude? (text : List Char) : Option Float :=
  match String.ofList (text.map Char.toLower) with
  | "inf" => some (.ofModel (.pack (.infinity .positive)))
  | "infinity" => some (.ofModel (.pack (.infinity .positive)))
  | "nan" => some (.ofModel (.pack .notANumber))
  | _ => (decimal? text).map ofDecimal

/-- Reads a binary64 number. Blanks and separators are not part of a number. -/
def read? : List Char → Option Float
  | '-' :: rest => (magnitude? rest).map Float.neg
  | '+' :: rest => magnitude? rest
  | text => magnitude? text

end DesktopPet.Number
