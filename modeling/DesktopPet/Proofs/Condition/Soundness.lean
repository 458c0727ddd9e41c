import DesktopPet.Proofs.Condition.Grammar

/-!
# What the parser accepts is in the grammar

Every parser of conditions takes some tokens from the front, and these derive what it returns. Each level is
sound if the next tighter one is (`parserAt_sound`), and the knot at parentheses and arguments is tied by
induction on the depth (`expression_sound`).
-/

namespace DesktopPet.Condition

/-! ## Paths and arguments -/

/-- What a sequence of two fallible steps returns was returned by both. -/
theorem bind_ok {ε α β : Type} {step : Except ε α} {next : α → Except ε β} {b : β}
    (returned : (step >>= next) = .ok b) : ∃ a, step = .ok a ∧ next a = .ok b := by
  cases step with
  | error e => cases returned
  | ok a => exact ⟨a, rfl, returned⟩

theorem expect_sound {token : Token} {tokens rest : List Located} {taken : Unit}
    (read : expect token tokens = .ok (taken, rest)) : ∃ position, tokens = ⟨token, position⟩ :: rest := by
  cases tokens with
  | nil => cases read
  | cons t others =>
    simp only [expect] at read
    split at read
    next same =>
      cases read
      exact ⟨t.position, by rw [← same]⟩
    · cases read

theorem pathRest_sound {tokens rest : List Located} {names : List String}
    (read : pathRest tokens = .ok (names, rest)) :
    ∃ used, tokens = used ++ rest ∧
      ∀ first position, IsPath (⟨.ident first, position⟩ :: used) (first :: names) := by
  induction tokens using pathRest.induct generalizing names with
  | case1 dot name position others ih =>
    rw [pathRest] at read
    obtain ⟨⟨later, left⟩, read, same⟩ := bind_ok read
    cases same
    obtain ⟨used, split, path⟩ := ih read
    refine ⟨⟨.dot, dot⟩ :: ⟨.ident name, position⟩ :: used, by rw [split]; rfl, fun first start => ?_⟩
    exact .dotted first start dot (path name position)
  | case2 dot others other =>
    rw [pathRest] at read
    · cases read
    · exact other
  | case3 others one two =>
    rw [pathRest] at read
    · cases read
      exact ⟨[], rfl, fun first position => .name first position⟩
    · exact one
    · exact two

theorem pathArgument_sound {tokens rest : List Located} {path : List String}
    (read : pathArgument tokens = .ok (path, rest)) : ∃ used, tokens = used ++ rest ∧ IsPath used path := by
  unfold pathArgument at read
  split at read
  next first position others =>
    obtain ⟨⟨names, left⟩, read, same⟩ := bind_ok read
    cases same
    obtain ⟨used, split, path⟩ := pathRest_sound read
    exact ⟨⟨.ident first, position⟩ :: used, by rw [split]; rfl, path first position⟩
  · cases read

/-- What the parser takes derives at the level what it returns. -/
def Sound (level : Level) (parser : Parse Expr) : Prop :=
  ∀ tokens e rest, parser tokens = .ok (e, rest) → ∃ used, tokens = used ++ rest ∧ Derives level used e

section Soundness

variable {expression : Parse Expr} {tokens rest : List Located}

theorem argumentsFrom_sound (sound : Sound .disjunction expression) {n : Nat} {values : List Expr}
    (read : argumentsFrom expression n tokens = .ok (values, rest)) :
    ∃ (arguments : List (List Located × Expr)) (inside : List Located) (closing : Nat),
       tokens = inside ++ ⟨.rParen, closing⟩ :: rest ∧
      (∀ argument ∈ arguments, Derives .disjunction argument.1 argument.2) ∧
      Separated (arguments.map (·.1)) inside ∧ arguments.map (·.2) = values ∧ arguments ≠ [] := by
  induction n generalizing tokens values with
  | zero => cases read
  | succ n ih =>
    rw [argumentsFrom] at read
    obtain ⟨⟨first, left⟩, parsed, onward⟩ := bind_ok read
    obtain ⟨used, rfl, derived⟩ := sound tokens first left parsed
    dsimp only at onward
    split at onward
    next comma others =>
      obtain ⟨⟨later, left⟩, listed, same⟩ := bind_ok onward
      cases same
      obtain ⟨arguments, inside, closing, rfl, each, separated, rfl, some⟩ := ih listed
      obtain ⟨next, others, rfl⟩ := List.exists_cons_of_ne_nil some
      refine ⟨(used, first) :: next :: others, used ++ ⟨.comma, comma⟩ :: inside, closing, by simp, ?_,
        .more used comma separated, rfl, nofun⟩
      exact List.forall_mem_cons.mpr ⟨derived, each⟩
    · obtain ⟨⟨_, left⟩, closed, same⟩ := bind_ok onward
      cases same
      obtain ⟨closing, rfl⟩ := expect_sound closed
      exact ⟨[(used, first)], used, closing, rfl, by simpa using derived, .last used, rfl, nofun⟩

theorem callArguments_sound (sound : Sound .disjunction expression) {values : List Expr}
    (read : callArguments expression tokens = .ok (values, rest)) :
    ∃ (arguments : List (List Located × Expr)) (inside : List Located) (closing : Nat),
       tokens = inside ++ ⟨.rParen, closing⟩ :: rest ∧
      (∀ argument ∈ arguments, Derives .disjunction argument.1 argument.2) ∧
      Separated (arguments.map (·.1)) inside ∧ arguments.map (·.2) = values := by
  unfold callArguments at read
  split at read
  next closing others =>
    cases read
    exact ⟨[], [], closing, rfl, nofun, .none, rfl⟩
  · obtain ⟨arguments, inside, closing, split, each, separated, same, _⟩ := argumentsFrom_sound sound read
    exact ⟨arguments, inside, closing, split, each, separated, same⟩

theorem contactQuery_some {path : List String} {line : String} (asks : contactQuery? path = some line) :
    stripMascot path = ["environment", line, "isOn"] := by
  unfold contactQuery? at asks
  split at asks
  next name form =>
    cases asks
    exact form
  · cases asks

private theorem apply_length {function : Function} {values : List Expr} {e : Expr}
    (applied : function.apply? values = some e) : values.length = function.arity := by
  unfold Function.apply? at applied
  split at applied
  case h_6 => cases applied
  all_goals rfl

private theorem resolveCall_ok {path : List String} {values : List Expr} {e : Expr}
    (resolved : resolveCall path values = .ok e) :
    ∃ function, functionNames.lookup (stripMascot path) = some function ∧ function.apply? values = some e := by
  unfold resolveCall at resolved
  split at resolved
  · cases resolved
  next function known =>
    split at resolved
    next call applied =>
      cases resolved
      exact ⟨function, known, applied⟩
    · cases resolved

/-- A call from its path on. -/
theorem call_sound (sound : Sound .disjunction expression) {written : List Located} {path : List String} {e : Expr}
    (opening : Nat) (spelled : IsPath written path) (read : call expression path tokens = .ok (e, rest)) :
    ∃ used, tokens = used ++ rest ∧ Derives .primary (written ++ ⟨.lParen, opening⟩ :: used) e := by
  unfold call at read
  split at read
  next line asks =>
    unfold contactCall at read
    split at read
    · cases read
    next border named =>
      obtain ⟨⟨argument, left⟩, given, onward⟩ := bind_ok read
      obtain ⟨⟨_, after⟩, closed, onward⟩ := bind_ok onward
      dsimp only at onward
      split at onward
      next anchor =>
        cases onward
        obtain ⟨inside, rfl, argued⟩ := pathArgument_sound given
        obtain ⟨closing, rfl⟩ := expect_sound closed
        exact ⟨inside ++ [⟨.rParen, closing⟩], by simp,
          by simpa using Derives.contact opening closing spelled (contactQuery_some asks) named argued anchor⟩
      · cases onward
  · split at read
    next asks =>
      obtain ⟨⟨argument, left⟩, given, onward⟩ := bind_ok read
      obtain ⟨⟨_, after⟩, closed, onward⟩ := bind_ok onward
      dsimp only at onward
      split at onward
      next border named =>
        cases onward
        obtain ⟨inside, rfl, argued⟩ := pathArgument_sound given
        obtain ⟨closing, rfl⟩ := expect_sound closed
        exact ⟨inside ++ [⟨.rParen, closing⟩], by simp,
          by simpa using Derives.border opening closing spelled asks argued named⟩
      · cases onward
    · obtain ⟨⟨values, left⟩, listed, onward⟩ := bind_ok read
      obtain ⟨result, resolved, same⟩ := bind_ok onward
      cases same
      obtain ⟨arguments, inside, closing, rfl, each, separated, rfl⟩ := callArguments_sound sound listed
      obtain ⟨function, known, applied⟩ := resolveCall_ok resolved
      have counted : arguments.length = function.arity := by
        rw [← apply_length applied, List.length_map]
      exact ⟨inside ++ [⟨.rParen, closing⟩], by simp,
        by simpa using Derives.call opening closing arguments spelled known each separated counted applied⟩

/-! ## Primaries and unary operators -/

theorem primary_sound (sound : Sound .disjunction expression) : Sound .primary (primary expression) := by
  intro tokens e rest read
  unfold primary at read
  split at read
  next value position others =>
    cases read
    exact ⟨[⟨.number value, position⟩], rfl, .number value position⟩
  next opening others =>
    obtain ⟨⟨inner, left⟩, parsed, onward⟩ := bind_ok read
    obtain ⟨⟨_, after⟩, closed, same⟩ := bind_ok onward
    cases same
    obtain ⟨used, rfl, derived⟩ := sound others e left parsed
    obtain ⟨closing, rfl⟩ := expect_sound closed
    exact ⟨⟨.lParen, opening⟩ :: used ++ [⟨.rParen, closing⟩], by simp, .parenthesised opening closing derived⟩
  next first position others =>
    obtain ⟨⟨names, left⟩, path, onward⟩ := bind_ok read
    obtain ⟨written, rfl, spelled⟩ := pathRest_sound path
    dsimp only at onward
    split at onward
    next opening inside =>
      obtain ⟨used, rfl, derived⟩ := call_sound sound opening (spelled first position) onward
      exact ⟨⟨.ident first, position⟩ :: written ++ ⟨.lParen, opening⟩ :: used, by simp, derived⟩
    · obtain ⟨result, named, same⟩ := bind_ok onward
      cases same
      exact ⟨⟨.ident first, position⟩ :: written, rfl, .value (spelled first position) named⟩
  · cases read

theorem unary_sound {operand : Parse Expr} (sound : Sound .primary operand) : Sound .unary (unary operand) := by
  intro tokens
  induction tokens using unary.induct with
  | case1 position others ih =>
    intro e rest read
    rw [unary] at read
    obtain ⟨⟨inner, left⟩, parsed, same⟩ := bind_ok read
    cases same
    obtain ⟨used, rfl, derived⟩ := ih inner rest parsed
    exact ⟨⟨.not, position⟩ :: used, rfl, .not position derived⟩
  | case2 position others ih =>
    intro e rest read
    rw [unary] at read
    obtain ⟨⟨inner, left⟩, parsed, same⟩ := bind_ok read
    cases same
    obtain ⟨used, rfl, derived⟩ := ih inner rest parsed
    exact ⟨⟨.minus, position⟩ :: used, rfl, .negate position derived⟩
  | case3 tokens noNot noMinus =>
    intro e rest read
    rw [unary] at read
    · obtain ⟨used, split, derived⟩ := sound tokens e rest read
      exact ⟨used, split, .single rfl derived⟩
    · exact noNot
    · exact noMinus

/-! ## Binary operators -/

theorem chainFrom_sound {level tighter : Level} {combine? : Token → Option (Expr → Expr → Expr)}
    {operand : Parse Expr} (below : level.tighter? = some tighter)
    (joins : ∀ token combine, combine? token = some combine → level.Joins token combine)
    (sound : Sound tighter operand) {n : Nat} {left : Expr} {before : List Located}
    (first : Derives level before left) {e : Expr}
    (read : chainFrom combine? operand n left tokens = .ok (e, rest)) :
    ∃ used, tokens = used ++ rest ∧ Derives level (before ++ used) e := by
  induction n generalizing left before tokens with
  | zero =>
    cases read
    exact ⟨[], rfl, by simpa using first⟩
  | succ n ih =>
    cases tokens with
    | nil =>
      cases read
      exact ⟨[], rfl, by simpa using first⟩
    | cons sign others =>
      rw [chainFrom] at read
      split at read
      · cases read
        exact ⟨[], rfl, by simpa using first⟩
      next combine found =>
        obtain ⟨⟨right, after⟩, parsed, onward⟩ := bind_ok read
        obtain ⟨second, rfl, derived⟩ := sound others right after parsed
        obtain ⟨used, rfl, whole⟩ := ih (.joined below (joins sign.token combine found) first derived) onward
        exact ⟨sign :: second ++ used, by simp, by simpa using whole⟩

theorem chain_sound {level tighter : Level} {combine? : Token → Option (Expr → Expr → Expr)}
    {operand : Parse Expr} (below : level.tighter? = some tighter)
    (joins : ∀ token combine, combine? token = some combine → level.Joins token combine)
    (sound : Sound tighter operand) : Sound level (chain combine? operand) := by
  intro tokens e rest read
  obtain ⟨⟨left, after⟩, parsed, onward⟩ := bind_ok read
  obtain ⟨first, rfl, derived⟩ := sound tokens left after parsed
  obtain ⟨used, rfl, whole⟩ := chainFrom_sound below joins sound (.single below derived) onward
  exact ⟨first ++ used, by simp, whole⟩

theorem comparisonOp_sign {token : Token} {op : Comparison} (found : comparisonOp? token = some op) :
    token = op.sign := by
  cases token with
  | lt | le | gt | ge | eq | ne =>
    cases found
    rfl
  | _ => cases found

theorem comparison_sound {operand : Parse Expr} (sound : Sound .sum operand) :
    Sound .comparison (comparison operand) := by
  intro tokens e rest read
  obtain ⟨⟨left, after⟩, parsed, onward⟩ := bind_ok read
  obtain ⟨first, rfl, derived⟩ := sound tokens left after parsed
  dsimp only at onward
  split at onward
  · cases onward
    exact ⟨first, rfl, .single rfl derived⟩
  next sign others =>
    split at onward
    · cases onward
      exact ⟨first, rfl, .single rfl derived⟩
    next op found =>
      obtain ⟨⟨right, left⟩, parsed, same⟩ := bind_ok onward
      cases same
      obtain ⟨second, rfl, other⟩ := sound others right left parsed
      exact ⟨first ++ sign :: second, by simp, .compared (comparisonOp_sign found) derived other⟩

end Soundness

/-! ## Levels and expressions -/

/-- The left-associative operators of a level as the parser looks them up. -/
def Level.signs : Level → Token → Option (Expr → Expr → Expr)
  | .disjunction => orOp?
  | .conjunction => andOp?
  | .sum => sumOp?
  | .product => productOp?
  | _ => fun _ => none

theorem signs_joins (level : Level) (token : Token) (combine : Expr → Expr → Expr)
    (found : level.signs token = some combine) : level.Joins token combine := by
  cases level with
  | disjunction =>
    cases token with
    | or => cases found; exact .or
    | _ => cases found
  | conjunction =>
    cases token with
    | and => cases found; exact .and
    | _ => cases found
  | sum =>
    cases token with
    | plus => cases found; exact .add
    | minus => cases found; exact .sub
    | _ => cases found
  | product =>
    cases token with
    | star => cases found; exact .mul
    | slash => cases found; exact .div
    | percent => cases found; exact .rem
    | _ => cases found
  | _ => cases found

/-- The parser of each level over a parser of primaries. -/
def parserAt (primaries : Parse Expr) (level : Level) : Parse Expr :=
  let unaries := unary primaries
  let products := chain productOp? unaries
  let sums := chain sumOp? products
  let comparisons := comparison sums
  let conjunctions := chain andOp? comparisons
  match level with
  | .primary => primaries
  | .unary => unaries
  | .product => products
  | .sum => sums
  | .comparison => comparisons
  | .conjunction => conjunctions
  | .disjunction => chain orOp? conjunctions

theorem parserAt_sound {primaries : Parse Expr} (sound : Sound .primary primaries) (level : Level) :
    Sound level (parserAt primaries level) := by
  have unaries : Sound .unary (parserAt primaries .unary) := unary_sound sound
  have products : Sound .product (parserAt primaries .product) := chain_sound rfl (signs_joins .product) unaries
  have sums : Sound .sum (parserAt primaries .sum) := chain_sound rfl (signs_joins .sum) products
  have comparisons : Sound .comparison (parserAt primaries .comparison) := comparison_sound sums
  have conjunctions : Sound .conjunction (parserAt primaries .conjunction) :=
    chain_sound rfl (signs_joins .conjunction) comparisons
  cases level with
  | primary => exact sound
  | unary => exact unaries
  | product => exact products
  | sum => exact sums
  | comparison => exact comparisons
  | conjunction => exact conjunctions
  | disjunction => exact chain_sound rfl (signs_joins .disjunction) conjunctions

theorem expression_sound (depth : Nat) : Sound .disjunction (expression depth) := by
  induction depth with
  | zero => exact fun tokens e rest read => by cases read
  | succ depth ih => exact parserAt_sound (primary_sound ih) .disjunction

end DesktopPet.Condition
