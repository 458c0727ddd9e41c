import DesktopPet.Condition.Expr
import DesktopPet.Condition.Token

/-!
# Parsing conditions

The grammar has seven levels, loosest first: disjunction, conjunction, comparison, sum, product,
unary operators, primaries. Each level is a parser built from the parser of the next tighter one;
`expression` ties the knot at parentheses and arguments. Comparisons do not associate, all other
binary operators associate to the left. Names are resolved here, so that a parsed condition has no
unknown names left.
-/

namespace DesktopPet.Condition

/-- A parser takes tokens from the front and leaves the rest. -/
abbrev Parse (α : Type) := List Located → Except CompileError (α × List Located)

def unexpected : List Located → CompileError
  | [] => .unexpectedEnd
  | t :: _ => .unexpectedToken t.token.display t.position

def expect (token : Token) : Parse Unit
  | [] => .error .unexpectedEnd
  | t :: rest => if t.token = token then .ok ((), rest) else .error (unexpected (t :: rest))

def dotted (path : List String) : String :=
  ".".intercalate path

/-- The leading `mascot` of a longer path has no meaning. -/
def stripMascot : List String → List String
  | "mascot" :: name :: rest => name :: rest
  | path => path

/-- The paths that name values, the canonical one of each value first. -/
def valueNames : List (List String × Expr) :=
  [(["true"], .literal (.bool true)),
   (["false"], .literal (.bool false)),
   (["x"], .attribute .x),
   (["y"], .attribute .y),
   (["vx"], .attribute .vx),
   (["velocity", "x"], .attribute .vx),
   (["vy"], .attribute .vy),
   (["velocity", "y"], .attribute .vy),
   (["width"], .attribute .width),
   (["height"], .attribute .height),
   (["anchor", "x"], .attribute .anchorX),
   (["anchor", "y"], .attribute .anchorY),
   (["onFloor"], .attribute .onFloor),
   (["onCeiling"], .attribute .onCeiling),
   (["onLeftWall"], .attribute .onLeftWall),
   (["onRightWall"], .attribute .onRightWall),
   (["closeToLeftWall"], .attribute .closeToLeftWall),
   (["closeToRightWall"], .attribute .closeToRightWall),
   (["rightFloor"], .attribute .rightFloor),
   (["leftFloor"], .attribute .leftFloor),
   (["rightCeiling"], .attribute .rightCeiling),
   (["leftCeiling"], .attribute .leftCeiling),
   (["isDragging"], .attribute .isDragging),
   (["dragging"], .attribute .isDragging),
   (["isThrown"], .attribute .isThrown),
   (["thrown"], .attribute .isThrown),
   (["lookRight"], .attribute .lookRight),
   (["environment", "floor", "y"], .attribute (.line .floor)),
   (["environment", "floor", "bottom"], .attribute (.line .floor)),
   (["environment", "ceiling", "y"], .attribute (.line .ceiling)),
   (["environment", "ceiling", "top"], .attribute (.line .ceiling)),
   (["environment", "leftWall", "x"], .attribute (.line .leftWall)),
   (["environment", "leftWall", "left"], .attribute (.line .leftWall)),
   (["environment", "rightWall", "x"], .attribute (.line .rightWall)),
   (["environment", "rightWall", "right"], .attribute (.line .rightWall)),
   (["environment", "screen", "width"], .attribute .screenWidth),
   (["environment", "screen", "height"], .attribute .screenHeight),
   (["environment", "workArea", "left"], .attribute .workAreaLeft),
   (["environment", "workArea", "right"], .attribute .workAreaRight),
   (["environment", "workArea", "top"], .attribute .workAreaTop),
   (["environment", "workArea", "bottom"], .attribute .workAreaBottom)]

def resolveName (path : List String) : Except CompileError Expr :=
  match valueNames.lookup (stripMascot path) with
  | some value => .ok value
  | none => .error (.unknownAttribute (dotted path))

def functionNames : List (List String × Function) :=
  [(["random"], .random),
   (["Math", "random"], .mathRandom),
   (["abs"], .abs),
   (["Math", "abs"], .abs),
   (["min"], .min),
   (["Math", "min"], .min),
   (["max"], .max),
   (["Math", "max"], .max)]

def Function.arity : Function → Nat
  | .random | .abs => 1
  | .mathRandom => 0
  | .min | .max => 2

/-- A function applied to arguments, if their number is right. -/
def Function.apply? : Function → List Expr → Option Expr
  | .random, [e] => some (.random e)
  | .mathRandom, [] => some .mathRandom
  | .abs, [e] => some (.abs e)
  | .min, [a, b] => some (.min a b)
  | .max, [a, b] => some (.max a b)
  | _, _ => none

def resolveCall (path : List String) (arguments : List Expr) : Except CompileError Expr :=
  match functionNames.lookup (stripMascot path) with
  | none => .error (.unknownFunction (dotted path))
  | some function =>
    match function.apply? arguments with
    | some call => .ok call
    | none => .error (.arity (dotted path) function.arity arguments.length)

/-- The names after the first one of a path, each after a dot. -/
def pathRest : Parse (List String)
  | ⟨.dot, _⟩ :: ⟨.ident name, _⟩ :: rest => do
    let (names, rest) ← pathRest rest
    return (name :: names, rest)
  | ⟨.dot, _⟩ :: rest => .error (unexpected rest)
  | rest => .ok ([], rest)

def pathArgument : Parse (List String)
  | ⟨.ident first, _⟩ :: rest => do
    let (names, rest) ← pathRest rest
    return (first :: names, rest)
  | rest => .error (unexpected rest)

/-- Arguments after the first parenthesis, at least one, up to the closing one. Every further
argument costs a comma, so the number of tokens bounds their number. -/
def argumentsFrom (expression : Parse Expr) : Nat → Parse (List Expr)
  | 0, _ => .error .unexpectedEnd
  | n + 1, tokens => do
    let (first, rest) ← expression tokens
    match rest with
    | ⟨.comma, _⟩ :: rest =>
      let (others, rest) ← argumentsFrom expression n rest
      return (first :: others, rest)
    | rest =>
      let (_, rest) ← expect .rParen rest
      return ([first], rest)

def callArguments (expression : Parse Expr) : Parse (List Expr)
  | ⟨.rParen, _⟩ :: rest => .ok ([], rest)
  | tokens => argumentsFrom expression (tokens.length + 1) tokens

def borderOfPath? (path : List String) : Option Border :=
  match stripMascot path with
  | [name] => Border.ofName? name
  | ["environment", name] => Border.ofName? name
  | _ => none

/-- The line of the path `environment.<line>.isOn`, if a path has this form. -/
def contactQuery? (path : List String) : Option String :=
  match stripMascot path with
  | ["environment", name, "isOn"] => some name
  | _ => none

/-- `environment.<line>.isOn(anchor)`: the line is looked up before the argument is read. -/
def contactCall (path : List String) (name : String) : Parse Expr := fun tokens =>
  match Border.ofName? name with
  | none => .error (.unknownAttribute (dotted path))
  | some border => do
    let (argument, rest) ← pathArgument tokens
    let (_, rest) ← expect .rParen rest
    if stripMascot argument = ["anchor"] then return (.isOn border, rest)
    else .error (.unknownAttribute (dotted argument))

def borderCall : Parse Expr := fun tokens => do
  let (argument, rest) ← pathArgument tokens
  let (_, rest) ← expect .rParen rest
  match borderOfPath? argument with
  | some border => return (.isOn border, rest)
  | none => .error (.unknownAttribute (dotted argument))

/-- A call after its opening parenthesis. -/
def call (expression : Parse Expr) (path : List String) : Parse Expr := fun tokens =>
  match contactQuery? path with
  | some name => contactCall path name tokens
  | none =>
    if stripMascot path = ["isOn"] then borderCall tokens
    else do
      let (arguments, rest) ← callArguments expression tokens
      let result ← resolveCall path arguments
      return (result, rest)

/-- A number, an expression in parentheses, a value's path or a call. -/
def primary (expression : Parse Expr) : Parse Expr
  | ⟨.number value, _⟩ :: rest => .ok (.literal (.number value), rest)
  | ⟨.lParen, _⟩ :: rest => do
    let (inner, rest) ← expression rest
    let (_, rest) ← expect .rParen rest
    return (inner, rest)
  | ⟨.ident first, _⟩ :: rest => do
    let (names, rest) ← pathRest rest
    match rest with
    | ⟨.lParen, _⟩ :: rest => call expression (first :: names) rest
    | rest =>
      let value ← resolveName (first :: names)
      return (value, rest)
  | tokens => .error (unexpected tokens)

def unary (operand : Parse Expr) : Parse Expr
  | ⟨.not, _⟩ :: rest => do
    let (e, rest) ← unary operand rest
    return (.not e, rest)
  | ⟨.minus, _⟩ :: rest => do
    let (e, rest) ← unary operand rest
    return (.negate e, rest)
  | tokens => operand tokens

/-- Further operands of a left-associative operator. Each costs an operator, so the number of tokens
bounds their number. -/
def chainFrom (combine? : Token → Option (Expr → Expr → Expr)) (operand : Parse Expr) :
    Nat → Expr → Parse Expr
  | 0, left, tokens => .ok (left, tokens)
  | _, left, [] => .ok (left, [])
  | n + 1, left, t :: rest =>
    match combine? t.token with
    | none => .ok (left, t :: rest)
    | some combine => do
      let (right, rest) ← operand rest
      chainFrom combine? operand n (combine left right) rest

/-- Operands joined by left-associative operators of one level. -/
def chain (combine? : Token → Option (Expr → Expr → Expr)) (operand : Parse Expr) : Parse Expr :=
  fun tokens => do
    let (first, rest) ← operand tokens
    chainFrom combine? operand rest.length first rest

def productOp? : Token → Option (Expr → Expr → Expr)
  | .star => some (.arithmetic .mul)
  | .slash => some (.arithmetic .div)
  | .percent => some (.arithmetic .rem)
  | _ => none

def sumOp? : Token → Option (Expr → Expr → Expr)
  | .plus => some (.arithmetic .add)
  | .minus => some (.arithmetic .sub)
  | _ => none

def comparisonOp? : Token → Option Comparison
  | .lt => some .lt
  | .le => some .le
  | .gt => some .gt
  | .ge => some .ge
  | .eq => some .eq
  | .ne => some .ne
  | _ => none

def andOp? : Token → Option (Expr → Expr → Expr)
  | .and => some (.logic .and)
  | _ => none

def orOp? : Token → Option (Expr → Expr → Expr)
  | .or => some (.logic .or)
  | _ => none

/-- One operand, or two with a comparison between them. -/
def comparison (operand : Parse Expr) : Parse Expr := fun tokens => do
  let (left, rest) ← operand tokens
  match rest with
  | [] => return (left, [])
  | t :: rest =>
    match comparisonOp? t.token with
    | none => return (left, t :: rest)
    | some op =>
      let (right, rest) ← operand rest
      return (.compare op left right, rest)

def levels (primaries : Parse Expr) : Parse Expr :=
  chain orOp? (chain andOp? (comparison (chain sumOp? (chain productOp? (unary primaries)))))

/-- Expressions nested at most `depth` deep. Nesting costs a token, so that a depth of the number of
tokens is no limit: where it runs out, the tokens have run out too. -/
def expression : Nat → Parse Expr
  | 0 => fun _ => .error .unexpectedEnd
  | depth + 1 => levels (primary (expression depth))

def parse (tokens : List Located) : Except CompileError Expr :=
  match tokens with
  | [] => .error .empty
  | tokens => do
    let (e, rest) ← expression tokens.length tokens
    match rest with
    | [] => return e
    | rest => .error (unexpected rest)

end DesktopPet.Condition
