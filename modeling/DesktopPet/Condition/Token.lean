import DesktopPet.Number.Notation
import DesktopPet.Text

/-!
# Tokens of conditions

`tokenize` splits a condition into tokens, each with the byte at which it starts. Blanks between
tokens are skipped; equality may be spelled with one, two or three signs, and the connectives also
as words. What is no token is an error that names the first character in the way.
-/

namespace DesktopPet.Condition

inductive CompileError where
  | empty
  | unexpectedChar (char : Char) (position : Nat)
  | unexpectedToken (found : String) (position : Nat)
  | unexpectedEnd
  | invalidNumber (literal : String)
  | unknownAttribute (path : String)
  | unknownFunction (path : String)
  | arity (path : String) (expected found : Nat)
  deriving DecidableEq, Repr

def CompileError.message : CompileError → String
  | .empty => "empty condition"
  | .unexpectedChar char position => "unexpected character '" ++ char.toString ++ "' at " ++ toString position
  | .unexpectedToken found position => "unexpected token '" ++ found ++ "' at " ++ toString position
  | .unexpectedEnd => "unexpected end of expression"
  | .invalidNumber literal => "invalid number literal '" ++ literal ++ "'"
  | .unknownAttribute path => "unknown attribute '" ++ path ++ "'"
  | .unknownFunction path => "unknown function '" ++ path ++ "'"
  | .arity path expected found =>
    "function '" ++ path ++ "' takes " ++ toString expected ++ " argument(s), got " ++ toString found

inductive Token where
  | number (value : Float)
  | ident (name : String)
  | lParen | rParen | comma | dot
  | lt | le | gt | ge | eq | ne
  | and | or | not
  | plus | minus | star | slash | percent
  deriving DecidableEq, Repr

def Token.display : Token → String
  | .number value => Number.display64 value
  | .ident name => name
  | .lParen => "("
  | .rParen => ")"
  | .comma => ","
  | .dot => "."
  | .lt => "<"
  | .le => "<="
  | .gt => ">"
  | .ge => ">="
  | .eq => "=="
  | .ne => "!="
  | .and => "&&"
  | .or => "||"
  | .not => "!"
  | .plus => "+"
  | .minus => "-"
  | .star => "*"
  | .slash => "/"
  | .percent => "%"

/-- A token and the byte at which it starts. -/
structure Located where
  token : Token
  position : Nat
  deriving DecidableEq, Repr

/-- The blanks that may stand between tokens: space, tab, line feed, form feed, carriage return. -/
def isSeparator (c : Char) : Bool :=
  c = ' ' || c = '\t' || c = '\n' || c = '\x0c' || c = '\r'

def isNumberChar (c : Char) : Bool :=
  c.isDigit || c = '.'

def isNameStart (c : Char) : Bool :=
  c.isAlpha || c = '_'

def isNameChar (c : Char) : Bool :=
  c.isAlphanum || c = '_'

/-- A number literal starts with a digit, or with a point before a digit. -/
def startsNumber (c : Char) (rest : List Char) : Bool :=
  c.isDigit || (c = '.' && (rest.head?.any Char.isDigit))

def wordToken : String → Token
  | "and" => .and
  | "or" => .or
  | "not" => .not
  | name => .ident name

/-- The operator at the start of a text, the longest first, with the number of its characters after
the first one. -/
def operator? : List Char → Option (Token × Nat)
  | '=' :: '=' :: '=' :: _ => some (.eq, 2)
  | '!' :: '=' :: '=' :: _ => some (.ne, 2)
  | '=' :: '=' :: _ => some (.eq, 1)
  | '!' :: '=' :: _ => some (.ne, 1)
  | '<' :: '=' :: _ => some (.le, 1)
  | '>' :: '=' :: _ => some (.ge, 1)
  | '&' :: '&' :: _ => some (.and, 1)
  | '|' :: '|' :: _ => some (.or, 1)
  | '(' :: _ => some (.lParen, 0)
  | ')' :: _ => some (.rParen, 0)
  | ',' :: _ => some (.comma, 0)
  | '.' :: _ => some (.dot, 0)
  | '<' :: _ => some (.lt, 0)
  | '>' :: _ => some (.gt, 0)
  | '=' :: _ => some (.eq, 0)
  | '!' :: _ => some (.not, 0)
  | '+' :: _ => some (.plus, 0)
  | '-' :: _ => some (.minus, 0)
  | '*' :: _ => some (.star, 0)
  | '/' :: _ => some (.slash, 0)
  | '%' :: _ => some (.percent, 0)
  | _ => none

/-- The token that starts with `c` at byte `position`, and how many characters of `rest` belong to
it. -/
def scan (position : Nat) (c : Char) (rest : List Char) : Except CompileError (Token × Nat) :=
  if startsNumber c rest then
    let more := rest.takeWhile isNumberChar
    match Number.read? (c :: more) with
    | some value => .ok (.number value, more.length)
    | none => .error (.invalidNumber (String.ofList (c :: more)))
  else if isNameStart c then
    let more := rest.takeWhile isNameChar
    .ok (wordToken (String.ofList (c :: more)), more.length)
  else
    match operator? (c :: rest) with
    | some found => .ok found
    | none => .error (.unexpectedChar c position)

/-- The tokens of a text whose first character is at byte `position`. All characters of tokens and
separators take one byte. -/
def tokenizeFrom (position : Nat) : List Char → Except CompileError (List Located)
  | [] => .ok []
  | c :: rest =>
    if isSeparator c then tokenizeFrom (position + 1) rest
    else do
      let (token, more) ← scan position c rest
      let tokens ← tokenizeFrom (position + 1 + more) (rest.drop more)
      return ⟨token, position⟩ :: tokens
termination_by text => text.length

def tokenize (text : List Char) : Except CompileError (List Located) :=
  tokenizeFrom 0 text

/-- The text between an opening mark and a closing brace, if it has both. -/
def unwrap? (mark : Char) : List Char → Option (List Char)
  | c :: '{' :: rest => if c = mark && rest.getLast? = some '}' then some rest.dropLast else none
  | _ => none

/-- A condition without blanks around it and without its wrapper: a text in braces after a number
sign or a dollar sign. -/
def stripWrapper (text : List Char) : List Char :=
  let body := Text.trim text
  match (unwrap? '#' body).or (unwrap? '$' body) with
  | some inner => Text.trim inner
  | none => body

end DesktopPet.Condition
