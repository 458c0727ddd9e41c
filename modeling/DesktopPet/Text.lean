/-!
# Blanks and letter case

Conditions and settings ignore blanks at their ends, where a blank is any character with the Unicode
property `White_Space`. Names of kinds are compared without regard to the case of ASCII letters.
-/

namespace DesktopPet.Text

/-- The characters with the Unicode property `White_Space`. -/
def isBlank (c : Char) : Bool :=
  let n := c.toNat
  (0x09 ≤ n && n ≤ 0x0D) || n = 0x20 || n = 0x85 || n = 0xA0 || n = 0x1680 ||
    (0x2000 ≤ n && n ≤ 0x200A) || n = 0x2028 || n = 0x2029 || n = 0x202F || n = 0x205F || n = 0x3000

def dropBlanksRight (cs : List Char) : List Char :=
  (cs.reverse.dropWhile isBlank).reverse

def trim (cs : List Char) : List Char :=
  dropBlanksRight (cs.dropWhile isBlank)

def trimmed (text : String) : String :=
  String.ofList (trim text.toList)

def lowerAscii (text : String) : String :=
  String.ofList (text.toList.map Char.toLower)

end DesktopPet.Text
