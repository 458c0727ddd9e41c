import DesktopPet.Condition.Parser

/-!
# The grammar of conditions

`Derives` says which tokens form which expression, level by level, without a word about how they are read.
Its rules name the tokens themselves, but leave to the tables of the language what a path means.
-/

namespace DesktopPet.Condition

/-! ## Levels, operators and paths -/

/-- The levels of the grammar, loosest first. -/
inductive Level where
  | disjunction | conjunction | comparison | sum | product | unary | primary
  deriving DecidableEq, Repr

/-- The level from which a level is built. -/
def Level.tighter? : Level → Option Level
  | .disjunction => some .conjunction
  | .conjunction => some .comparison
  | .comparison => some .sum
  | .sum => some .product
  | .product => some .unary
  | .unary => some .primary
  | .primary => none

/-- The operators that associate to the left: their level, their sign, and what they make of two operands. -/
inductive Level.Joins : Level → Token → (Expr → Expr → Expr) → Prop where
  | or : Joins .disjunction .or (.logic .or)
  | and : Joins .conjunction .and (.logic .and)
  | add : Joins .sum .plus (.arithmetic .add)
  | sub : Joins .sum .minus (.arithmetic .sub)
  | mul : Joins .product .star (.arithmetic .mul)
  | div : Joins .product .slash (.arithmetic .div)
  | rem : Joins .product .percent (.arithmetic .rem)

/-- The sign of a comparison. -/
def Comparison.sign : Comparison → Token
  | .lt => .lt
  | .le => .le
  | .gt => .gt
  | .ge => .ge
  | .eq => .eq
  | .ne => .ne

/-- Names with dots between them. -/
inductive IsPath : List Located → List String → Prop where
  | name (name : String) (position : Nat) : IsPath [⟨.ident name, position⟩] [name]
  | dotted (name : String) (position dot : Nat) {tokens : List Located} {names : List String}
      (rest : IsPath tokens names) : IsPath (⟨.ident name, position⟩ :: ⟨.dot, dot⟩ :: tokens) (name :: names)

/-- Lists of tokens with commas between them. -/
inductive Separated : List (List Located) → List Located → Prop where
  | none : Separated [] []
  | last (tokens : List Located) : Separated [tokens] tokens
  | more (tokens : List Located) (comma : Nat) {next : List Located} {others : List (List Located)}
      {rest : List Located} (later : Separated (next :: others) rest) :
      Separated (tokens :: next :: others) (tokens ++ ⟨.comma, comma⟩ :: rest)

/-! ## The grammar -/

/-- The tokens form the expression at a level. -/
inductive Derives : Level → List Located → Expr → Prop where
  | single {level tighter : Level} {tokens : List Located} {e : Expr} (below : level.tighter? = some tighter)
      (whole : Derives tighter tokens e) : Derives level tokens e
  | joined {level tighter : Level} {sign : Located} {combine : Expr → Expr → Expr} {left right : List Located}
      {a b : Expr} (below : level.tighter? = some tighter) (joins : level.Joins sign.token combine)
      (first : Derives level left a) (second : Derives tighter right b) :
      Derives level (left ++ sign :: right) (combine a b)
  | compared {op : Comparison} {sign : Located} {left right : List Located} {a b : Expr}
      (spelled : sign.token = op.sign) (first : Derives .sum left a) (second : Derives .sum right b) :
      Derives .comparison (left ++ sign :: right) (.compare op a b)
  | not (position : Nat) {tokens : List Located} {e : Expr} (operand : Derives .unary tokens e) :
      Derives .unary (⟨.not, position⟩ :: tokens) (.not e)
  | negate (position : Nat) {tokens : List Located} {e : Expr} (operand : Derives .unary tokens e) :
      Derives .unary (⟨.minus, position⟩ :: tokens) (.negate e)
  | number (value : Float) (position : Nat) :
      Derives .primary [⟨.number value, position⟩] (.literal (.number value))
  | parenthesised (opening closing : Nat) {tokens : List Located} {e : Expr}
      (inner : Derives .disjunction tokens e) :
      Derives .primary (⟨.lParen, opening⟩ :: tokens ++ [⟨.rParen, closing⟩]) e
  | value {tokens : List Located} {path : List String} {e : Expr} (written : IsPath tokens path)
      (named : resolveName path = .ok e) : Derives .primary tokens e
  /-- A function of as many expressions as it takes. -/
  | call {tokens inside : List Located} {path : List String} {function : Function} {e : Expr}
      (opening closing : Nat) (arguments : List (List Located × Expr)) (written : IsPath tokens path)
      (known : functionNames.lookup (stripMascot path) = some function)
      (each : ∀ argument ∈ arguments, Derives .disjunction argument.1 argument.2)
      (separated : Separated (arguments.map (·.1)) inside) (counted : arguments.length = function.arity)
      (applied : function.apply? (arguments.map (·.2)) = some e) :
      Derives .primary (tokens ++ ⟨.lParen, opening⟩ :: inside ++ [⟨.rParen, closing⟩]) e
  /-- `isOn(<line>)`. -/
  | border {tokens inside : List Located} {path argument : List String} {border : Border} (opening closing : Nat)
      (written : IsPath tokens path) (asks : stripMascot path = ["isOn"]) (given : IsPath inside argument)
      (named : borderOfPath? argument = some border) :
      Derives .primary (tokens ++ ⟨.lParen, opening⟩ :: inside ++ [⟨.rParen, closing⟩]) (.isOn border)
  /-- `environment.<line>.isOn(anchor)`. -/
  | contact {tokens inside : List Located} {path argument : List String} {line : String} {border : Border}
      (opening closing : Nat) (written : IsPath tokens path)
      (asks : stripMascot path = ["environment", line, "isOn"]) (named : Border.ofName? line = some border)
      (given : IsPath inside argument) (anchor : stripMascot argument = ["anchor"]) :
      Derives .primary (tokens ++ ⟨.lParen, opening⟩ :: inside ++ [⟨.rParen, closing⟩]) (.isOn border)

/-- An expression of any level is one of the loosest. -/
theorem Derives.loosen {level : Level} {tokens : List Located} {e : Expr} (derived : Derives level tokens e) :
    Derives .disjunction tokens e := by
  have conjunction {tokens : List Located} {e : Expr} (derived : Derives .conjunction tokens e) :
      Derives .disjunction tokens e := .single rfl derived
  have comparison {tokens : List Located} {e : Expr} (derived : Derives .comparison tokens e) :
      Derives .disjunction tokens e := conjunction (.single rfl derived)
  have sum {tokens : List Located} {e : Expr} (derived : Derives .sum tokens e) :
      Derives .disjunction tokens e := comparison (.single rfl derived)
  have product {tokens : List Located} {e : Expr} (derived : Derives .product tokens e) :
      Derives .disjunction tokens e := sum (.single rfl derived)
  have unary {tokens : List Located} {e : Expr} (derived : Derives .unary tokens e) :
      Derives .disjunction tokens e := product (.single rfl derived)
  cases level with
  | disjunction => exact derived
  | conjunction => exact conjunction derived
  | comparison => exact comparison derived
  | sum => exact sum derived
  | product => exact product derived
  | unary => exact unary derived
  | primary => exact unary (.single rfl derived)

/-! ## The first token -/

theorem IsPath.head {tokens : List Located} {path : List String} (written : IsPath tokens path) :
    ∃ name position rest, tokens = ⟨.ident name, position⟩ :: rest := by
  cases written with
  | name name position => exact ⟨name, position, [], rfl⟩
  | dotted name position dot rest => exact ⟨name, position, _, rfl⟩

/-- No expression is empty or starts with a closing parenthesis, and no primary starts with an operator. -/
theorem Derives.head {level : Level} {tokens : List Located} {e : Expr} (derived : Derives level tokens e) :
    ∃ t rest, tokens = t :: rest ∧ t.token ≠ .rParen ∧ (level = .primary → t.token ≠ .not ∧ t.token ≠ .minus) := by
  have named {tokens : List Located} {path : List String} (written : IsPath tokens path) (others : List Located) :
      ∃ t rest, tokens ++ others = t :: rest ∧ t.token ≠ .rParen ∧ t.token ≠ .not ∧ t.token ≠ .minus := by
    obtain ⟨name, position, rest, rfl⟩ := written.head
    exact ⟨⟨.ident name, position⟩, rest ++ others, rfl, nofun, nofun, nofun⟩
  induction derived with
  | single below whole ih =>
    obtain ⟨t, rest, same, opens, _⟩ := ih
    exact ⟨t, rest, same, opens, fun primary => by rw [primary] at below; cases below⟩
  | joined below joins first second ih _ =>
    obtain ⟨t, rest, rfl, opens, _⟩ := ih
    exact ⟨t, _, rfl, opens, fun primary => by rw [primary] at below; cases below⟩
  | compared spelled first second ih _ =>
    obtain ⟨t, rest, rfl, opens, _⟩ := ih
    exact ⟨t, _, rfl, opens, nofun⟩
  | not position operand => exact ⟨_, _, rfl, nofun, nofun⟩
  | negate position operand => exact ⟨_, _, rfl, nofun, nofun⟩
  | number value position => exact ⟨_, _, rfl, nofun, fun _ => ⟨nofun, nofun⟩⟩
  | parenthesised opening closing inner => exact ⟨_, _, rfl, nofun, fun _ => ⟨nofun, nofun⟩⟩
  | value written resolved =>
    obtain ⟨t, rest, same, opens, signs⟩ := named written []
    rw [List.append_nil] at same
    exact ⟨t, rest, same, opens, fun _ => signs⟩
  | call opening closing arguments written known each separated counted applied =>
    obtain ⟨t, rest, same, opens, signs⟩ := named written _
    rw [List.append_assoc]
    exact ⟨t, rest, same, opens, fun _ => signs⟩
  | border opening closing written asks given resolved =>
    obtain ⟨t, rest, same, opens, signs⟩ := named written _
    rw [List.append_assoc]
    exact ⟨t, rest, same, opens, fun _ => signs⟩
  | contact opening closing written asks resolved given anchor =>
    obtain ⟨t, rest, same, opens, signs⟩ := named written _
    rw [List.append_assoc]
    exact ⟨t, rest, same, opens, fun _ => signs⟩

end DesktopPet.Condition
