import DesktopPet.Text

/-!
# INI texts

A text of lines: section headers in brackets, and entries of a key and a value with `=` or `:`
between them. A semicolon or a number sign starts a comment. Names of sections and keys count in
lower case, and the last entry of a key is the one that counts.
-/

namespace DesktopPet

/-- One entry. A key without a delimiter has no value. -/
structure Ini.Entry where
  group : String
  key : String
  value : Option String
  deriving DecidableEq, Repr

structure Ini where
  entries : List Ini.Entry
  deriving DecidableEq, Repr

namespace Ini

inductive Error where
  | unclosedSection (line : Nat)
  | emptyKey (line byte : Nat)
  deriving DecidableEq, Repr

def Error.message : Error → String
  | .unclosedSection line =>
    "line " ++ toString line ++ ": Found opening bracket for section name but no closing bracket"
  | .emptyKey line byte => "line " ++ toString line ++ ":" ++ toString byte ++ ": Key cannot be empty"

/-- A letter in lower case, as far as that makes a letter of ASCII: besides the capitals only the
Kelvin sign does. -/
def lowerChar (c : Char) : Char :=
  if c = '\u212a' then 'k' else c.toLower

def lowerName (cs : List Char) : String :=
  String.ofList (cs.map lowerChar)

def isComment (c : Char) : Bool :=
  c = ';' || c = '#'

def isDelimiter (c : Char) : Bool :=
  c = '=' || c = ':'

/-- The section of the entries before the first header. -/
def firstSection : String := "default"

def lines (text : List Char) : List (List Char) :=
  text.splitOn '\n'

inductive Line where
  | blank
  | header (name : String)
  | entry (key : String) (value : Option String)
  deriving DecidableEq, Repr

/-- A header without its opening bracket: the name goes up to the last closing bracket, and what
comes after it is ignored. -/
def header? (rest : List Char) : Option Line :=
  let beforeReversed := rest.reverse.dropWhile (· ≠ ']')
  match beforeReversed with
  | [] => none
  | _ :: name => some (.header (lowerName (Text.trim name.reverse)))

def readLine (number : Nat) (raw : List Char) : Except Error Line :=
  let content := Text.trim ((Text.trim raw).takeWhile fun c => !isComment c)
  match content with
  | [] => .ok .blank
  | '[' :: rest =>
    match header? rest with
    | some line => .ok line
    | none => .error (.unclosedSection number)
  | content =>
    let key := content.takeWhile fun c => !isDelimiter c
    match content.dropWhile fun c => !isDelimiter c with
    | [] => .ok (.entry (lowerName key) none)
    | _ :: value =>
      let key := Text.trim key
      if key.isEmpty then .error (.emptyKey number 0)
      else .ok (.entry (lowerName key) (some (String.ofList (Text.trim value))))

def readLines : Nat → String → List (List Char) → Except Error (List Entry)
  | _, _, [] => .ok []
  | number, current, raw :: rest => do
    match ← readLine number raw with
    | .blank => readLines (number + 1) current rest
    | .header name => readLines (number + 1) name rest
    | .entry key value =>
      let entries ← readLines (number + 1) current rest
      return ⟨current, key, value⟩ :: entries

/-- Reads a text. One bad line spoils it all. -/
def parse (text : String) : Except Error Ini := do
  let entries ← readLines 1 firstSection (lines text.toList)
  return ⟨entries⟩

/-- The value of the last entry of a key in a section. -/
def get? (ini : Ini) (group key : String) : Option String :=
  (ini.entries.reverse.find? fun e => e.group = group && e.key = key).bind (·.value)

def render (sections : List (String × List (String × String))) : String :=
  "".intercalate (sections.map fun (name, entries) =>
    "[" ++ name ++ "]\n" ++ "".intercalate (entries.map fun (key, value) => key ++ "=" ++ value ++ "\n"))

end Ini

end DesktopPet
