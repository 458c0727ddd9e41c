import DesktopPet.Proofs.Condition.Completeness
import DesktopPet.Proofs.Condition.Lexing
import DesktopPet.Proofs.Number.Notation

/-!
# Printed expressions

A printer of expressions that writes all parentheses, the canonical paths of attributes and the canonical names of
functions, with a gap of separators of the caller's choice around binary signs and after commas. What it writes is
split into tokens that form the expression again (`written_reads`); the induction follows the expression, and each
case puts the pieces of its text together.
-/

namespace DesktopPet.Condition

/-! ## The printer -/

/-- The path of an attribute. -/
def Attribute.path : Attribute → List String
  | .x => ["x"]
  | .y => ["y"]
  | .vx => ["vx"]
  | .vy => ["vy"]
  | .width => ["width"]
  | .height => ["height"]
  | .anchorX => ["anchor", "x"]
  | .anchorY => ["anchor", "y"]
  | .onFloor => ["onFloor"]
  | .onCeiling => ["onCeiling"]
  | .onLeftWall => ["onLeftWall"]
  | .onRightWall => ["onRightWall"]
  | .closeToLeftWall => ["closeToLeftWall"]
  | .closeToRightWall => ["closeToRightWall"]
  | .rightFloor => ["rightFloor"]
  | .leftFloor => ["leftFloor"]
  | .rightCeiling => ["rightCeiling"]
  | .leftCeiling => ["leftCeiling"]
  | .isDragging => ["isDragging"]
  | .isThrown => ["isThrown"]
  | .lookRight => ["lookRight"]
  | .line .floor => ["environment", "floor", "y"]
  | .line .ceiling => ["environment", "ceiling", "y"]
  | .line .leftWall => ["environment", "leftWall", "x"]
  | .line .rightWall => ["environment", "rightWall", "x"]
  | .screenWidth => ["environment", "screen", "width"]
  | .screenHeight => ["environment", "screen", "height"]
  | .workAreaLeft => ["environment", "workArea", "left"]
  | .workAreaRight => ["environment", "workArea", "right"]
  | .workAreaTop => ["environment", "workArea", "top"]
  | .workAreaBottom => ["environment", "workArea", "bottom"]

/-- The name of a line. -/
def lineName : Border → String
  | .floor => "floor"
  | .ceiling => "ceiling"
  | .leftWall => "leftWall"
  | .rightWall => "rightWall"

/-- The path of a function. -/
def Function.path : Function → List String
  | .random => ["random"]
  | .mathRandom => ["Math", "random"]
  | .abs => ["abs"]
  | .min => ["min"]
  | .max => ["max"]

/-- The sign of a connective. -/
def Connective.sign : Connective → Token
  | .and => .and
  | .or => .or

/-- The sign of an arithmetic operator. -/
def Arithmetic.sign : Arithmetic → Token
  | .add => .plus
  | .sub => .minus
  | .mul => .star
  | .div => .slash
  | .rem => .percent

/-- A text in parentheses. -/
def enclosed (text : List Char) : List Char :=
  Token.lParen.display.toList ++ (text ++ Token.rParen.display.toList)

/-- Two operands in parentheses, with a sign between them. -/
def joined (gap : List Char) (sign : Token) (left right : List Char) : List Char :=
  enclosed (left ++ (gap ++ (sign.display.toList ++ (gap ++ right))))

/-- The call of a function with arguments. -/
def called (path : List String) (arguments : List Char) : List Char :=
  pathText path ++ enclosed arguments

/-- An expression as text. -/
def Expr.written (gap : List Char) : Expr → List Char
  | .literal (.number x) => (Number.display64 x).toList
  | .literal (.bool true) => pathText ["true"]
  | .literal (.bool false) => pathText ["false"]
  | .attribute name => pathText name.path
  | .compare op left right => joined gap op.sign (left.written gap) (right.written gap)
  | .logic op left right => joined gap op.sign (left.written gap) (right.written gap)
  | .not operand => enclosed (Token.not.display.toList ++ operand.written gap)
  | .arithmetic op left right => joined gap op.sign (left.written gap) (right.written gap)
  | .negate operand => enclosed (Token.minus.display.toList ++ operand.written gap)
  | .isOn border => called ["isOn"] (pathText [lineName border])
  | .random probability => called Function.random.path (probability.written gap)
  | .mathRandom => called Function.mathRandom.path []
  | .abs operand => called Function.abs.path (operand.written gap)
  | .min left right =>
    called Function.min.path (left.written gap ++ (Token.comma.display.toList ++ (gap ++ right.written gap)))
  | .max left right =>
    called Function.max.path (left.written gap ++ (Token.comma.display.toList ++ (gap ++ right.written gap)))

/-- The number literals of an expression. -/
def Expr.numbers : Expr → List Float
  | .literal (.number x) => [x]
  | .literal (.bool _) | .attribute _ | .isOn _ | .mathRandom => []
  | .compare _ left right | .logic _ left right | .arithmetic _ left right | .min left right | .max left right =>
    left.numbers ++ right.numbers
  | .not operand | .negate operand | .random operand | .abs operand => operand.numbers

/-! ## Characters and names -/

/-- Characters that go on with a word or a number. -/
def continuesWord (c : Char) : Bool :=
  isNameChar c || c = '.'

/-- The first characters of printed expressions. -/
def opensOperand (c : Char) : Bool :=
  isNameChar c || c = '('

/-- The last characters of printed expressions. -/
def closesOperand (c : Char) : Bool :=
  isNameChar c || c = ')'

theorem isNameChar_of_isDigit {c : Char} (digit : c.isDigit = true) : isNameChar c = true := by
  simp [isNameChar, Char.isAlphanum, digit]

theorem isNameChar_of_isNameStart {c : Char} (starts : isNameStart c = true) : isNameChar c = true := by
  simp only [isNameStart, Bool.or_eq_true] at starts
  simp only [isNameChar, Char.isAlphanum, Bool.or_eq_true]
  rcases starts with letter | underscore
  · exact Or.inl (Or.inl letter)
  · exact Or.inr underscore

/-- A check for names that can be run. -/
def isProper (name : String) : Bool :=
  match name.toList with
  | [] => false
  | c :: more => isNameStart c && more.all isNameChar && decide (wordToken name = .ident name)

private theorem isName_of_isProper {name : String} (proper : isProper name = true) : IsName name := by
  unfold isProper at proper
  split at proper
  · cases proper
  next c more letters =>
    simp only [Bool.and_eq_true, List.all_eq_true, decide_eq_true_eq] at proper
    exact ⟨c, more, letters, proper.1.1, proper.1.2, proper.2⟩

theorem path_proper {path : List String} (proper : path.all isProper = true) : ∀ name ∈ path, IsName name :=
  fun name member => isName_of_isProper (List.all_eq_true.mp proper name member)

private theorem attribute_path (name : Attribute) :
    name.path ≠ [] ∧ (∀ part ∈ name.path, IsName part) ∧ resolveName name.path = .ok (.attribute name) := by
  cases name with
  | line border =>
    cases border with
    | _ => exact ⟨nofun, path_proper (by decide), rfl⟩
  | _ => exact ⟨nofun, path_proper (by decide), rfl⟩

theorem function_path (function : Function) :
    function.path ≠ [] ∧ (∀ part ∈ function.path, IsName part) ∧
      functionNames.lookup (stripMascot function.path) = some function := by
  cases function with
  | _ => exact ⟨nofun, path_proper (by decide), rfl⟩

/-! ## The ends of printed texts -/

/-- The text starts and ends as printed expressions do. -/
structure Outlined (text : List Char) : Prop where
  opens : ∃ c ∈ text.head?, opensOperand c = true
  closes : ∃ c ∈ text.getLast?, closesOperand c = true

private theorem enclosed_closes (before text : List Char) :
    ∃ c ∈ (before ++ enclosed text).getLast?, closesOperand c = true := by
  refine ⟨')', ?_, rfl⟩
  have last : (before ++ enclosed text).getLast? = (before ++ ['('] ++ text ++ [')']).getLast? :=
    congrArg List.getLast? (by simp [enclosed, Token.display])
  rw [last, List.getLast?_concat]
  rfl

private theorem enclosed_outlined (text : List Char) : Outlined (enclosed text) :=
  ⟨⟨'(', rfl, rfl⟩, enclosed_closes [] text⟩

private theorem called_outlined {path : List String} (arguments : List Char) (named : path ≠ [])
    (proper : ∀ name ∈ path, IsName name) : Outlined (called path arguments) := by
  obtain ⟨c, more, letters, starts⟩ := pathText_head named proper
  refine ⟨⟨c, by simp [called, letters], ?_⟩, enclosed_closes _ arguments⟩
  simp [opensOperand, isNameChar_of_isNameStart starts]

theorem outlined_of_nameChars {text : List Char} {first last : Char} (head : text.head? = some first)
    (tail : text.getLast? = some last) (starts : isNameChar first = true) (ends : isNameChar last = true) :
    Outlined text :=
  ⟨⟨first, head, by simp [opensOperand, starts]⟩, ⟨last, tail, by simp [closesOperand, ends]⟩⟩

theorem IsName.letters {name : String} (proper : IsName name) :
    name.toList ≠ [] ∧ ∀ c ∈ name.toList, isNameChar c = true := by
  obtain ⟨c, more, letters, starts, continues, _⟩ := proper
  rw [letters]
  refine ⟨nofun, fun d member => ?_⟩
  rcases List.mem_cons.mp member with rfl | later
  · exact isNameChar_of_isNameStart starts
  · exact continues d later

private theorem pathText_last {path : List String} (named : path ≠ []) (proper : ∀ name ∈ path, IsName name) :
    ∃ c ∈ (pathText path).getLast?, isNameChar c = true := by
  induction path with
  | nil => exact absurd rfl named
  | cons name rest ih =>
    cases rest with
    | nil =>
      obtain ⟨some, letters⟩ := (proper name List.mem_cons_self).letters
      exact ⟨_, List.getLast?_eq_some_getLast some, letters _ (List.getLast_mem some)⟩
    | cons next others =>
      obtain ⟨c, last, letter⟩ := ih (List.cons_ne_nil next others) fun other member =>
        proper other (List.mem_cons_of_mem name member)
      refine ⟨c, ?_, letter⟩
      rw [pathText_cons, List.getLast?_append, last]
      rfl

theorem path_outlined {path : List String} (named : path ≠ []) (proper : ∀ name ∈ path, IsName name) :
    Outlined (pathText path) := by
  obtain ⟨c, more, letters, starts⟩ := pathText_head named proper
  obtain ⟨last, tail, ends⟩ := pathText_last named proper
  exact outlined_of_nameChars (by rw [letters]; rfl) tail (isNameChar_of_isNameStart starts) ends

private theorem numeral_outlined {text : List Char} (numeral : Number.IsNumeral text) : Outlined text := by
  cases numeral with
  | whole _ filled all =>
    exact outlined_of_nameChars (List.head?_eq_some_head filled) (List.getLast?_eq_some_getLast filled)
      (isNameChar_of_isDigit (all _ (List.head_mem filled))) (isNameChar_of_isDigit (all _ (List.getLast_mem filled)))
  | pointed whole fraction filled more all =>
    have head : (whole ++ '.' :: fraction).head? = some (whole.head filled) := by
      rw [List.head?_append, List.head?_eq_some_head filled]
      rfl
    have tail : (whole ++ '.' :: fraction).getLast? = some (fraction.getLast more) := by
      rw [List.getLast?_append, List.getLast?_cons, List.getLast?_eq_some_getLast more]
      rfl
    exact outlined_of_nameChars head tail
      (isNameChar_of_isDigit (all _ (List.mem_append_left _ (List.head_mem filled))))
      (isNameChar_of_isDigit (all _ (List.mem_append_right _ (List.getLast_mem more))))

/-- A number literal that the printer writes in digits, and that is read back. -/
def Printable (x : Float) : Prop :=
  Number.isPlain x = true ∧ Number.read? (Number.display64 x).toList = some x

instance (x : Float) : Decidable (Printable x) :=
  inferInstanceAs (Decidable (_ ∧ _))

theorem written_outlined (gap : List Char) (e : Expr) (printable : ∀ x ∈ e.numbers, Printable x) :
    Outlined (e.written gap) := by
  have function (f : Function) (arguments : List Char) : Outlined (called f.path arguments) :=
    called_outlined arguments (function_path f).1 (function_path f).2.1
  match e with
  | .literal (.number x) =>
    have plain := (printable x List.mem_cons_self).1
    exact numeral_outlined (Number.display64_isNumeral x plain)
  | .literal (.bool true) => exact path_outlined nofun (path_proper (by decide))
  | .literal (.bool false) => exact path_outlined nofun (path_proper (by decide))
  | .attribute name =>
    obtain ⟨named, proper, _⟩ := attribute_path name
    exact path_outlined named proper
  | .compare _ _ _ | .logic _ _ _ | .not _ | .arithmetic _ _ _ | .negate _ => exact enclosed_outlined _
  | .isOn border => exact called_outlined _ nofun (path_proper (by decide))
  | .random _ => exact function .random _
  | .mathRandom => exact function .mathRandom _
  | .abs _ => exact function .abs _
  | .min _ _ => exact function .min _
  | .max _ _ => exact function .max _

/-! ## Printed texts as tokens -/

theorem Derives.of_primary {tokens : List Located} {e : Expr} (derived : Derives .primary tokens e) (level : Level) :
    Derives level tokens e := by
  have unary : Derives .unary tokens e := .single rfl derived
  have product : Derives .product tokens e := .single rfl unary
  have sum : Derives .sum tokens e := .single rfl product
  have comparison : Derives .comparison tokens e := .single rfl sum
  have conjunction : Derives .conjunction tokens e := .single rfl comparison
  cases level with
  | disjunction => exact .single rfl conjunction
  | conjunction => exact conjunction
  | comparison => exact comparison
  | sum => exact sum
  | product => exact product
  | unary => exact unary
  | primary => exact derived

/-- No sign but the point goes on with a word or a number. -/
theorem sign_apart {t : Token} (sign : t.isSign = true) (other : t ≠ .dot) (rest : List Char) :
    StartsUnlike continuesWord (t.display.toList ++ rest) := by
  obtain ⟨c, more, letters, _, unnumbered, unnamed, found⟩ := operator_display t sign [] nofun
  have noDigit : c.isDigit = false := by
    simp only [startsNumber, Bool.or_eq_false_iff] at unnumbered
    exact unnumbered.1
  have noPoint : c ≠ '.' := by
    rintro rfl
    have dot : operator? ('.' :: (more ++ [])) = some (.dot, 0) := rfl
    exact other (congrArg Prod.fst (Option.some.inj (found.symm.trans dot)))
  rw [letters]
  refine startsUnlike_cons _ ?_
  simp only [isNameStart, Bool.or_eq_false_iff] at unnamed
  simp [continuesWord, isNameChar, Char.isAlphanum, unnamed, noDigit, noPoint]

/-- No operand goes on with a sign. -/
theorem operand_apart {t : Token} {text : List Char} (outlined : Outlined text) (other : t ≠ .dot)
    (rest : List Char) : StartsUnlike t.goesOn (text ++ rest) := by
  obtain ⟨c, head, opens⟩ := outlined.opens
  obtain ⟨more, rfl⟩ : ∃ more, text = c :: more := List.head?_eq_some_iff.mp head
  refine startsUnlike_cons _ ?_
  have noEquals : c ≠ '=' := by
    rintro rfl
    exact absurd opens (by decide)
  cases t with
  | dot => exact absurd rfl other
  | lt | gt | eq | ne | not => simp [Token.goesOn, noEquals]
  | _ => rfl

section Texts

variable {text left right gap : List Char} {goesOn : Char → Bool} {form form' : List Located → Prop}

theorem enclosed_lexes (inner : Lexes text goesOn form) (apart : goesOn ')' = false) :
    Lexes (enclosed text) (fun _ => false) fun tokens => ∃ opening closing inside, form inside ∧
      tokens = ⟨.lParen, opening⟩ :: inside ++ [⟨.rParen, closing⟩] := by
  have closed := inner.append (sign_lexes .rParen rfl) fun rest _ => startsUnlike_cons rest apart
  have whole := (sign_lexes .lParen rfl).append closed fun rest _ _ _ => rfl
  refine whole.mono ?_
  rintro tokens ⟨_, _, ⟨opening, rfl⟩, ⟨inside, _, formed, ⟨closing, rfl⟩, rfl⟩, rfl⟩
  exact ⟨opening, closing, inside, formed, rfl⟩

/-- Two operands with a sign between them, in gaps of separators. -/
theorem infixed_lexes {t : Token} (separators : ∀ c ∈ gap, isSeparator c = true) (sign : t.isSign = true)
    (other : t ≠ .dot) (first : Lexes left continuesWord form) (second : Lexes right continuesWord form')
    (outlined : Outlined right) :
    Lexes (left ++ (gap ++ (t.display.toList ++ (gap ++ right)))) continuesWord fun tokens =>
      ∃ here a b, form a ∧ form' b ∧ tokens = a ++ ⟨t, here⟩ :: b := by
  have operand := (gap_lexes gap separators).append second fun rest _ _ _ => rfl
  have signed := (sign_lexes t sign).append operand fun rest _ => by
    rw [List.append_assoc]
    refine gap_apart separators ?_ (operand_apart outlined other rest)
    cases t with
    | number | ident => cases sign
    | _ => decide
  have spaced := (gap_lexes gap separators).append signed fun rest _ _ _ => rfl
  have whole := first.append spaced fun rest _ => by
    rw [List.append_assoc, List.append_assoc]
    exact gap_apart separators (by decide) (sign_apart sign other _)
  refine whole.mono ?_
  rintro tokens ⟨a, _, formed, ⟨_, _, rfl, ⟨_, _, ⟨here, rfl⟩, ⟨_, _, rfl, formed', rfl⟩, rfl⟩, rfl⟩, rfl⟩
  exact ⟨here, a, _, formed, formed', rfl⟩

theorem called_lexes {path : List String} (named : path ≠ []) (proper : ∀ name ∈ path, IsName name)
    (arguments : Lexes text goesOn form) (apart : goesOn ')' = false) :
    Lexes (called path text) (fun _ => false) fun tokens => ∃ opening closing words inside, IsPath words path ∧
      form inside ∧ tokens = words ++ ⟨.lParen, opening⟩ :: inside ++ [⟨.rParen, closing⟩] := by
  have whole := (path_lexes named proper).append (enclosed_lexes arguments apart) fun rest _ =>
    startsUnlike_cons _ rfl
  refine whole.mono ?_
  rintro tokens ⟨words, _, written, ⟨opening, closing, inside, formed, rfl⟩, rfl⟩
  exact ⟨opening, closing, words, inside, written, formed, by simp⟩

end Texts

/-! ## Printed texts as expressions -/

/-- The text is split into tokens that form the expression. What follows must not go on with a word or a number,
since the text may end in one. -/
def ReadsAs (text : List Char) (e : Expr) : Prop :=
  Lexes text continuesWord (Derives .primary · e)

private theorem continuesWord_of_isNumberChar {c : Char} (ends : continuesWord c = false) : isNumberChar c = false := by
  simp only [continuesWord, isNameChar, Char.isAlphanum, Bool.or_eq_false_iff] at ends
  simp only [isNumberChar, Bool.or_eq_false_iff]
  exact ⟨ends.1.1.2, ends.2⟩

theorem number_reads {x : Float} (printable : Printable x) :
    ReadsAs (Number.display64 x).toList (.literal (.number x)) := by
  obtain ⟨plain, read⟩ := printable
  obtain ⟨c, more, letters, digit, continues⟩ := (Number.display64_isNumeral x plain).letters
  have numeral : ∀ d ∈ more, isNumberChar d = true := fun d member => by
    simpa [isNumberChar] using continues d member
  rw [letters] at read ⊢
  refine ((number_lexes digit numeral read).narrow fun d => continuesWord_of_isNumberChar).mono ?_
  rintro tokens ⟨position, rfl⟩
  exact .number x position

theorem path_reads {path : List String} {e : Expr} (named : path ≠ []) (proper : ∀ name ∈ path, IsName name)
    (resolved : resolveName path = .ok e) : ReadsAs (pathText path) e := by
  refine ((path_lexes named proper).narrow fun c ends => ?_).mono fun tokens written => .value written resolved
  simp only [continuesWord, Bool.or_eq_false_iff] at ends
  exact ends.1

section Operators

variable {gap left right : List Char} {a b e : Expr}

/-- Two operands in parentheses, with a sign between them that makes an expression of them. -/
theorem joined_reads {t : Token} (separators : ∀ c ∈ gap, isSeparator c = true) (sign : t.isSign = true)
    (other : t ≠ .dot) (one : ReadsAs left a) (two : ReadsAs right b) (outlined : Outlined right)
    (forms : ∀ here first second, Derives .primary first a → Derives .primary second b →
      Derives .disjunction (first ++ ⟨t, here⟩ :: second) e) : ReadsAs (joined gap t left right) e := by
  have lexed := enclosed_lexes (infixed_lexes separators sign other one two outlined) rfl
  refine (lexed.narrow fun _ _ => rfl).mono ?_
  rintro tokens ⟨opening, closing, _, ⟨here, first, second, derived, derived', rfl⟩, rfl⟩
  exact .parenthesised opening closing (forms here first second derived derived')

/-- Two printed operands, each of which reads as itself when its numbers can be read. -/
theorem operands_read {t : Token} {a b : Expr} (separators : ∀ c ∈ gap, isSeparator c = true)
    (sign : t.isSign = true ∧ t ≠ .dot) (one : (∀ x ∈ a.numbers, Printable x) → ReadsAs (a.written gap) a)
    (two : (∀ x ∈ b.numbers, Printable x) → ReadsAs (b.written gap) b)
    (printable : ∀ x ∈ a.numbers ++ b.numbers, Printable x)
    (forms : ∀ here first second, Derives .primary first a → Derives .primary second b →
      Derives .disjunction (first ++ ⟨t, here⟩ :: second) e) :
    ReadsAs (joined gap t (a.written gap) (b.written gap)) e := by
  obtain ⟨readable, readable'⟩ := List.forall_mem_append.mp printable
  exact joined_reads separators sign.1 sign.2 (one readable) (two readable') (written_outlined gap b readable') forms

theorem signed_reads {t : Token} (sign : t.isSign = true) (other : t ≠ .dot) (operand : ReadsAs left a)
    (outlined : Outlined left)
    (forms : ∀ here inside, Derives .primary inside a → Derives .unary (⟨t, here⟩ :: inside) e) :
    ReadsAs (enclosed (t.display.toList ++ left)) e := by
  have signed := (sign_lexes t sign).append operand fun rest _ => operand_apart outlined other rest
  refine ((enclosed_lexes signed rfl).narrow fun _ _ => rfl).mono ?_
  rintro tokens ⟨opening, closing, _, ⟨_, inside, ⟨here, rfl⟩, derived, rfl⟩, rfl⟩
  exact .parenthesised opening closing (forms here inside derived).loosen

theorem unary_reads {function : Function} (one : function.arity = 1) (single : function.apply? [a] = some e)
    (operand : ReadsAs left a) : ReadsAs (called function.path left) e := by
  obtain ⟨named, proper, known⟩ := function_path function
  refine ((called_lexes named proper operand rfl).narrow fun _ _ => rfl).mono ?_
  rintro tokens ⟨opening, closing, words, inside, written, derived, rfl⟩
  refine .call opening closing [(inside, a)] written known ?_ (.last inside) one.symm single
  intro argument member
  rw [List.mem_singleton.mp member]
  exact derived.loosen

theorem binary_reads {function : Function} (separators : ∀ c ∈ gap, isSeparator c = true)
    (two : function.arity = 2) (pair : function.apply? [a, b] = some e) (first : ReadsAs left a)
    (second : ReadsAs right b) :
    ReadsAs (called function.path (left ++ (Token.comma.display.toList ++ (gap ++ right)))) e := by
  obtain ⟨named, proper, known⟩ := function_path function
  have spaced := (gap_lexes gap separators).append second fun rest _ _ _ => rfl
  have behind := (sign_lexes .comma rfl).append spaced fun rest _ _ _ => rfl
  have arguments := first.append behind fun rest _ => startsUnlike_cons _ rfl
  refine ((called_lexes named proper arguments rfl).narrow fun _ _ => rfl).mono ?_
  rintro tokens ⟨opening, closing, words, _, written,
    ⟨one, _, derived, ⟨_, _, ⟨comma, rfl⟩, ⟨_, _, rfl, derived', rfl⟩, rfl⟩, rfl⟩, rfl⟩
  refine .call opening closing [(one, a), (_, b)] written known ?_ (.more one comma (.last _)) two.symm pair
  intro argument member
  simp only [List.mem_cons, List.not_mem_nil, or_false] at member
  rcases member with rfl | rfl
  · exact derived.loosen
  · exact derived'.loosen

end Operators

private theorem comparison_forms (op : Comparison) {a b : Expr} {first second : List Located} (here : Nat)
    (one : Derives .primary first a) (two : Derives .primary second b) :
    Derives .disjunction (first ++ ⟨op.sign, here⟩ :: second) (.compare op a b) :=
  (Derives.compared rfl (one.of_primary .sum) (two.of_primary .sum)).loosen

private theorem connective_forms (op : Connective) {a b : Expr} {first second : List Located} (here : Nat)
    (one : Derives .primary first a) (two : Derives .primary second b) :
    Derives .disjunction (first ++ ⟨op.sign, here⟩ :: second) (.logic op a b) := by
  cases op with
  | or => exact .joined rfl .or (one.of_primary .disjunction) (two.of_primary .conjunction)
  | and => exact (Derives.joined rfl .and (one.of_primary .conjunction) (two.of_primary .comparison)).loosen

private theorem arithmetic_forms (op : Arithmetic) {a b : Expr} {first second : List Located} (here : Nat)
    (one : Derives .primary first a) (two : Derives .primary second b) :
    Derives .disjunction (first ++ ⟨op.sign, here⟩ :: second) (.arithmetic op a b) := by
  cases op with
  | add => exact (Derives.joined rfl .add (one.of_primary .sum) (two.of_primary .product)).loosen
  | sub => exact (Derives.joined rfl .sub (one.of_primary .sum) (two.of_primary .product)).loosen
  | mul => exact (Derives.joined rfl .mul (one.of_primary .product) (two.of_primary .unary)).loosen
  | div => exact (Derives.joined rfl .div (one.of_primary .product) (two.of_primary .unary)).loosen
  | rem => exact (Derives.joined rfl .rem (one.of_primary .product) (two.of_primary .unary)).loosen

/-- A contact question names its line as the language does. -/
theorem isOn_reads (border : Border) : ReadsAs (called ["isOn"] (pathText [lineName border])) (.isOn border) := by
  have proper : ∀ name ∈ [lineName border], IsName name := path_proper (by cases border <;> decide)
  have line : borderOfPath? [lineName border] = some border := by cases border <;> rfl
  have asks : ∀ name ∈ ["isOn"], IsName name := path_proper (by decide)
  have lexed := called_lexes (List.cons_ne_nil _ _) asks (path_lexes (List.cons_ne_nil _ _) proper) rfl
  refine (lexed.narrow fun _ _ => rfl).mono ?_
  rintro tokens ⟨opening, closing, words, inside, written, given, rfl⟩
  exact .border opening closing written rfl given line

theorem mathRandom_reads : ReadsAs (called Function.mathRandom.path []) .mathRandom := by
  obtain ⟨named, proper, known⟩ := function_path .mathRandom
  have nothing : Lexes [] (fun _ => false) (· = []) := gap_lexes [] nofun
  refine ((called_lexes named proper nothing rfl).narrow fun _ _ => rfl).mono ?_
  rintro tokens ⟨opening, closing, words, _, written, rfl, rfl⟩
  exact .call opening closing [] written known nofun .none rfl rfl

/-- A printed expression is split into tokens that form it. The recursion is that of the printer. -/
theorem written_reads {gap : List Char} (separators : ∀ c ∈ gap, isSeparator c = true) :
    ∀ e : Expr, (∀ x ∈ e.numbers, Printable x) → ReadsAs (e.written gap) e
  | .literal (.number x), printable => number_reads (printable x List.mem_cons_self)
  | .literal (.bool true), _ => path_reads nofun (path_proper (by decide)) rfl
  | .literal (.bool false), _ => path_reads nofun (path_proper (by decide)) rfl
  | .attribute name, _ => by
    obtain ⟨named, proper, resolved⟩ := attribute_path name
    exact path_reads named proper resolved
  | .compare op left right, printable =>
    operands_read separators (by cases op <;> exact ⟨rfl, nofun⟩) (written_reads separators left)
      (written_reads separators right) printable fun here _ _ => comparison_forms op here
  | .logic op left right, printable =>
    operands_read separators (by cases op <;> exact ⟨rfl, nofun⟩) (written_reads separators left)
      (written_reads separators right) printable fun here _ _ => connective_forms op here
  | .arithmetic op left right, printable =>
    operands_read separators (by cases op <;> exact ⟨rfl, nofun⟩) (written_reads separators left)
      (written_reads separators right) printable fun here _ _ => arithmetic_forms op here
  | .not operand, printable =>
    signed_reads rfl nofun (written_reads separators operand printable) (written_outlined gap operand printable)
      fun here _ derived => .not here (derived.of_primary .unary)
  | .negate operand, printable =>
    signed_reads rfl nofun (written_reads separators operand printable) (written_outlined gap operand printable)
      fun here _ derived => .negate here (derived.of_primary .unary)
  | .isOn border, _ => isOn_reads border
  | .random probability, printable => unary_reads rfl rfl (written_reads separators probability printable)
  | .mathRandom, _ => mathRandom_reads
  | .abs operand, printable => unary_reads rfl rfl (written_reads separators operand printable)
  | .min left right, printable =>
    have ⟨readable, readable'⟩ := List.forall_mem_append.mp printable
    binary_reads separators rfl rfl (written_reads separators left readable)
      (written_reads separators right readable')
  | .max left right, printable =>
    have ⟨readable, readable'⟩ := List.forall_mem_append.mp printable
    binary_reads separators rfl rfl (written_reads separators left readable)
      (written_reads separators right readable')

end DesktopPet.Condition
