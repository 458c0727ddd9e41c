import DesktopPet.Json.Value

/-!
# Printing JSON

`Json.pretty` writes a value over several lines, two blanks to a level. A text that is missing is
written as half of a surrogate pair, which spells none when it is read. Binary32 numbers are written
with the fewest digits that read back, positionally unless they are very large or very small.
-/

namespace DesktopPet.Json

open Number

/-! ## Strings -/

/-- A character inside quotes: quote, backslash and control characters are escaped. -/
def escape : Char → List Char
  | '"' => ['\\', '"']
  | '\\' => ['\\', '\\']
  | '\x08' => ['\\', 'b']
  | '\x0c' => ['\\', 'f']
  | '\n' => ['\\', 'n']
  | '\r' => ['\\', 'r']
  | '\t' => ['\\', 't']
  | c =>
    if c.toNat < 0x20 then
      ['\\', 'u', '0', '0', Nat.digitChar (c.toNat / 16), Nat.digitChar (c.toNat % 16)]
    else [c]

def quote : Option String → String
  | some text => "\"" ++ String.ofList (text.toList.flatMap escape) ++ "\""
  | none => "\"\\ud800\""

/-! ## Numbers -/

namespace Numeral

def text (n : Numeral) : String :=
  let sign := if n.negative then "-" else ""
  let fraction := if n.fraction.isEmpty then "" else "." ++ String.ofList n.fraction
  let exponent := match n.exponent with
    | none => ""
    | some e => "e" ++ toString e
  sign ++ String.ofList n.whole ++ fraction ++ exponent

def ofNat (n : Nat) : Numeral :=
  { negative := false, whole := (toString n).toList, fraction := [], exponent := none }

/-- Digits before the point beyond which an exponent is written. -/
def maxWhole : Int := 13

/-- Zeros after the point from which on an exponent is written. -/
def maxLeadingZeros : Int := 6

/-- The numeral of a decimal. One without an exponent always has a point. -/
def ofDecimal (negative : Bool) (d : Decimal) : Numeral :=
  let digits := (toString d.digits).toList
  let point := digits.length + d.exponent
  let zeros (n : Int) : List Char := List.replicate n.toNat '0'
  if 0 ≤ d.exponent ∧ point ≤ maxWhole then
    { negative, whole := digits ++ zeros d.exponent, fraction := ['0'], exponent := none }
  else if 0 < point ∧ point ≤ maxWhole then
    { negative, whole := digits.take point.toNat, fraction := digits.drop point.toNat, exponent := none }
  else if -maxLeadingZeros < point ∧ point ≤ 0 then
    { negative, whole := ['0'], fraction := zeros (-point) ++ digits, exponent := none }
  else
    { negative, whole := digits.take 1, fraction := digits.drop 1, exponent := some (point - 1) }

def zero (negative : Bool) : Numeral :=
  { negative, whole := ['0'], fraction := ['0'], exponent := none }

/-- The numeral of a binary32 number; only finite ones have one. -/
def ofFloat32? (x : Float32) : Option Numeral :=
  match x.toModel.unpack with
  | .notANumber => none
  | .infinity _ => none
  | .zero .positive => some (zero false)
  | .zero .negative => some (zero true)
  | .finite .positive significand exponent _ =>
    some (ofDecimal false (shortest .binary32 .even significand exponent))
  | .finite .negative significand exponent _ =>
    some (ofDecimal true (shortest .binary32 .even significand exponent))

end Numeral

def ofNat (n : Nat) : Json :=
  .number (.ofNat n)

def ofFloat32 (x : Float32) : Json :=
  ((Numeral.ofFloat32? x).map Json.number).getD .null

def ofString (text : String) : Json :=
  .string (some text)

def ofOption {α : Type} (toJson : α → Json) (x : Option α) : Json :=
  (x.map toJson).getD .null

def ofMembers (members : List (String × Json)) : Json :=
  .object (members.map fun (key, value) => (some key, value))

/-! ## Layout -/

/-- Printed items between brackets, each on a line of its own at depth `depth + 1`. -/
def enclose (opening closing : String) (depth : Nat) (items : List String) : String :=
  if items.isEmpty then opening ++ closing
  else
    let newline (depth : Nat) : String := "\n" ++ "".pushn ' ' (2 * depth)
    opening ++ newline (depth + 1) ++ ("," ++ newline (depth + 1)).intercalate items ++ newline depth ++ closing

mutual

def prettyAt (depth : Nat) : Json → String
  | .null => "null"
  | .bool true => "true"
  | .bool false => "false"
  | .number n => n.text
  | .string text => quote text
  | .array items => enclose "[" "]" depth (prettyItems (depth + 1) items)
  | .object members => enclose "\x7b" "\x7d" depth (prettyMembers (depth + 1) members)

def prettyItems (depth : Nat) : List Json → List String
  | [] => []
  | item :: rest => prettyAt depth item :: prettyItems depth rest

def prettyMembers (depth : Nat) : List (Option String × Json) → List String
  | [] => []
  | (key, value) :: rest => (quote key ++ ": " ++ prettyAt depth value) :: prettyMembers depth rest

end

def pretty (j : Json) : String :=
  prettyAt 0 j

end DesktopPet.Json
