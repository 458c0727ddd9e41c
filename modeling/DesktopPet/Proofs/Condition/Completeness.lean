import DesktopPet.Proofs.Condition.Soundness

/-!
# What is in the grammar the parser accepts

A parser that goes on as long as it can reads a derivation to its end if what follows cannot go on with it
(`Stops`). At a level with left-associative signs it comes to its end in a loop, so there `Reads` says where
the loop stands once the derivation has been read. `parse_accepts_grammar` puts both directions together.
-/

namespace DesktopPet.Condition

/-! ## What may follow -/

/-- The place of a level in the order, loosest first. -/
def Level.rank : Level → Nat
  | .disjunction => 0
  | .conjunction => 1
  | .comparison => 2
  | .sum => 3
  | .product => 4
  | .unary => 5
  | .primary => 6

/-- The level at which a token goes on with what stands before it. -/
def Token.level? : Token → Option Level
  | .dot | .lParen => some .primary
  | .star | .slash | .percent => some .product
  | .plus | .minus => some .sum
  | .lt | .le | .gt | .ge | .eq | .ne => some .comparison
  | .and => some .conjunction
  | .or => some .disjunction
  | _ => none

/-- What follows does not go on with an expression of the level. -/
def Stops (level : Level) (rest : List Located) : Prop :=
  ∀ t ∈ rest.head?, ∀ other, t.token.level? = some other → other.rank < level.rank

/-- The level of what stands between the left-associative signs of a level, or the level itself if it has
none. -/
def Level.operand : Level → Level
  | .disjunction => .conjunction
  | .conjunction => .comparison
  | .sum => .product
  | .product => .unary
  | level => level

theorem Stops.of_le {level other : Level} {rest : List Located} (stops : Stops level rest)
    (tighter : level.rank ≤ other.rank) : Stops other rest :=
  fun t first at_level same => Nat.lt_of_lt_of_le (stops t first at_level same) tighter

private theorem operand_rank (level : Level) : level.rank ≤ level.operand.rank := by
  cases level with
  | _ => decide

private theorem stops_nil (level : Level) : Stops level [] :=
  nofun

/-- A token that goes on with looser levels only stops the level. -/
theorem stops_of_looser {level : Level} {t : Located} (rest : List Located)
    (looser : ∀ other, t.token.level? = some other → other.rank < level.rank) : Stops level (t :: rest) := by
  intro first head
  cases Option.some.inj head
  exact looser

/-- What goes on with no expression at all stops every level. -/
theorem stops_of_none {t : Located} {rest : List Located} (level : Level) (neutral : t.token.level? = none) :
    Stops level (t :: rest) :=
  stops_of_looser rest fun other same => by
    rw [neutral] at same
    cases same

private theorem stops_of_sign {level other : Level} {t : Located} (rest : List Located)
    (same : t.token.level? = some other) (looser : other.rank < level.rank) : Stops level (t :: rest) :=
  stops_of_looser rest fun another found => by
    rw [same] at found
    cases Option.some.inj found
    exact looser

private theorem stops_closing (level : Level) (closing : Nat) (rest : List Located) :
    Stops level (⟨.rParen, closing⟩ :: rest) :=
  stops_of_none level rfl

theorem Stops.head {level other : Level} {t : Located} {rest : List Located} (stops : Stops level (t :: rest))
    (same : t.token.level? = some other) : other.rank < level.rank :=
  stops t rfl other same

private theorem signs_level {level : Level} {token : Token} {combine : Expr → Expr → Expr}
    (found : level.signs token = some combine) : token.level? = some level := by
  cases signs_joins level token combine found with
  | _ => rfl

private theorem joins_signs {level tighter : Level} {token : Token} {combine : Expr → Expr → Expr}
    (joins : level.Joins token combine) (below : level.tighter? = some tighter) :
    level.signs token = some combine ∧ level.operand = tighter ∧ level.rank < tighter.rank := by
  cases joins with
  | _ =>
    cases below
    exact ⟨rfl, rfl, by decide⟩

private theorem sign_comparisonOp (op : Comparison) : comparisonOp? op.sign = some op := by
  cases op with
  | _ => rfl

private theorem comparisonOp_level {token : Token} {op : Comparison} (found : comparisonOp? token = some op) :
    token.level? = some .comparison := by
  rw [comparisonOp_sign found]
  cases op with
  | _ => rfl

/-! ## Paths and arguments -/

/-- What follows does not go on with a path. -/
def EndsPath (rest : List Located) : Prop :=
  ∀ t ∈ rest.head?, t.token ≠ .dot

private theorem endsPath_cons {t : Located} (rest : List Located) (other : t.token ≠ .dot) : EndsPath (t :: rest) := by
  intro first head
  cases Option.some.inj head
  exact other

theorem Stops.endsPath {rest : List Located} (stops : Stops .primary rest) : EndsPath rest := by
  intro t first dot
  exact Nat.lt_irrefl _ (stops t first .primary (by rw [dot]; rfl))

private theorem pathRest_ends {rest : List Located} (ends : EndsPath rest) : pathRest rest = .ok ([], rest) := by
  rw [pathRest]
  · rintro dot name position others rfl
    exact ends _ rfl rfl
  · rintro dot others rfl
    exact ends _ rfl rfl

/-- A path is read to its end. -/
theorem IsPath.read {tokens : List Located} {path : List String} (written : IsPath tokens path) :
    ∃ first position after names, tokens = ⟨.ident first, position⟩ :: after ∧ path = first :: names ∧
      ∀ rest, EndsPath rest → pathRest (after ++ rest) = .ok (names, rest) := by
  induction written with
  | name name position => exact ⟨name, position, [], [], rfl, rfl, fun rest ends => pathRest_ends ends⟩
  | dotted name position dot later ih =>
    obtain ⟨first, start, after, names, rfl, rfl, read⟩ := ih
    refine ⟨name, position, ⟨.dot, dot⟩ :: ⟨.ident first, start⟩ :: after, first :: names, rfl, rfl, ?_⟩
    intro rest ends
    rw [List.cons_append, List.cons_append, pathRest, read rest ends]
    rfl

theorem pathArgument_complete {tokens : List Located} {path : List String} (written : IsPath tokens path)
    (closing : Nat) (rest : List Located) :
    pathArgument (tokens ++ ⟨.rParen, closing⟩ :: rest) = .ok (path, ⟨.rParen, closing⟩ :: rest) := by
  obtain ⟨first, position, after, names, rfl, rfl, read⟩ := written.read
  have ends : EndsPath (⟨.rParen, closing⟩ :: rest) := endsPath_cons rest nofun
  rw [List.cons_append, pathArgument, read _ ends]
  rfl

/-- Every part but the last costs a comma. -/
theorem Separated.length {lists : List (List Located)} {tokens : List Located} (separated : Separated lists tokens) :
    lists.length ≤ tokens.length + 1 := by
  induction separated with
  | none => exact Nat.zero_le _
  | last tokens => exact Nat.le_add_left _ _
  | more tokens comma later ih =>
    simp only [List.length_cons, List.length_append] at ih ⊢
    omega

theorem Separated.length_of_mem {lists : List (List Located)} {tokens : List Located}
    (separated : Separated lists tokens) : ∀ list ∈ lists, list.length ≤ tokens.length := by
  induction separated with
  | none => nofun
  | last tokens =>
    intro list member
    exact Nat.le_of_eq (congrArg List.length (List.mem_singleton.mp member))
  | more tokens comma later ih =>
    intro list member
    rw [List.length_append, List.length_cons]
    rcases List.mem_cons.mp member with rfl | other
    · exact Nat.le_add_right _ _
    · have := ih list other
      omega

theorem Separated.first {first : List Located} {others : List (List Located)} {tokens : List Located}
    (separated : Separated (first :: others) tokens) : ∃ later, tokens = first ++ later := by
  cases separated with
  | last tokens => exact ⟨[], (List.append_nil first).symm⟩
  | more tokens comma later => exact ⟨_, rfl⟩

section Arguments

variable {expression : Parse Expr}

theorem argumentsFrom_complete {lists : List (List Located)} {inside : List Located}
    (separated : Separated lists inside) (closing : Nat) (rest : List Located) :
    ∀ (n : Nat) (arguments : List (List Located × Expr)), arguments.map (·.1) = lists → arguments ≠ [] →
      arguments.length ≤ n →
      (∀ argument ∈ arguments, ∀ rest, Stops .disjunction rest →
        expression (argument.1 ++ rest) = .ok (argument.2, rest)) →
      argumentsFrom expression n (inside ++ ⟨.rParen, closing⟩ :: rest) = .ok (arguments.map (·.2), rest) := by
  induction separated with
  | none =>
    intro n arguments same some
    exact absurd (List.map_eq_nil_iff.mp same) some
  | last tokens =>
    intro n arguments same _ enough reads
    obtain ⟨argument, rfl, rfl⟩ := List.map_eq_singleton_iff.mp same
    obtain ⟨n, rfl⟩ := Nat.exists_eq_succ_of_ne_zero (Nat.one_le_iff_ne_zero.mp enough)
    have parsed := reads argument List.mem_cons_self _ (stops_closing _ closing rest)
    rw [argumentsFrom, parsed]
    rfl
  | more tokens comma later ih =>
    intro n arguments same _ enough reads
    obtain ⟨argument, others, rfl, rfl, later_same⟩ := List.map_eq_cons_iff.mp same
    have some : others ≠ [] := by
      rintro rfl
      cases later_same
    rw [List.length_cons] at enough
    obtain ⟨n, rfl⟩ := Nat.exists_eq_add_of_le' (Nat.le_trans (Nat.le_add_left 1 _) enough)
    have listed := ih n others later_same some (by omega) fun argument member =>
      reads argument (List.mem_cons_of_mem _ member)
    rw [List.append_assoc, List.cons_append, argumentsFrom,
      reads argument List.mem_cons_self _ (stops_of_none _ rfl)]
    dsimp only [bind, Except.bind]
    rw [listed]
    rfl

theorem callArguments_complete {inside : List Located} {arguments : List (List Located × Expr)}
    (separated : Separated (arguments.map (·.1)) inside) (closing : Nat) (rest : List Located)
    (each : ∀ argument ∈ arguments, Derives .disjunction argument.1 argument.2)
    (reads : ∀ argument ∈ arguments, ∀ rest, Stops .disjunction rest →
      expression (argument.1 ++ rest) = .ok (argument.2, rest)) :
    callArguments expression (inside ++ ⟨.rParen, closing⟩ :: rest) = .ok (arguments.map (·.2), rest) := by
  cases arguments with
  | nil =>
    cases separated
    rfl
  | cons argument others =>
    -- the first argument does not start like an empty list of arguments
    have opens : ∃ t after, inside = t :: after ∧ t.token ≠ .rParen := by
      obtain ⟨t, after, same, opens, _⟩ := (each argument List.mem_cons_self).head
      obtain ⟨later, rfl⟩ := separated.first
      exact ⟨t, after ++ later, congrArg (· ++ later) same, opens⟩
    have counted := separated.length
    rw [List.length_map] at counted
    have listed := argumentsFrom_complete separated closing rest
      ((inside ++ ⟨.rParen, closing⟩ :: rest).length + 1) (argument :: others) rfl nofun
      (by rw [List.length_append]; omega) reads
    obtain ⟨t, after, rfl, other⟩ := opens
    rw [List.cons_append] at listed ⊢
    rw [callArguments]
    · exact listed
    · rintro position others same
      cases same
      exact other rfl

end Arguments

/-! ## Calls and primaries -/

/-- The questions about lines have other names than the functions of expressions. -/
theorem functionNames_contact (line : String) : functionNames.lookup ["environment", line, "isOn"] = none :=
  rfl

private theorem function_plain {path : List String} {function : Function}
    (known : functionNames.lookup (stripMascot path) = some function) :
    contactQuery? path = none ∧ stripMascot path ≠ ["isOn"] := by
  constructor
  · cases asks : contactQuery? path with
    | none => rfl
    | some line =>
      rw [contactQuery_some asks, functionNames_contact] at known
      cases known
  · intro asks
    rw [asks] at known
    cases known

section Primaries

variable {expression : Parse Expr} {tokens inside : List Located} {path : List String} {rest : List Located}

/-- A path in front of a parenthesis calls. -/
theorem primary_call {e : Expr} (written : IsPath tokens path) (opening closing : Nat)
    (called : call expression path (inside ++ ⟨.rParen, closing⟩ :: rest) = .ok (e, rest)) :
    primary expression (tokens ++ ⟨.lParen, opening⟩ :: inside ++ [⟨.rParen, closing⟩] ++ rest) = .ok (e, rest) := by
  obtain ⟨first, position, after, names, rfl, rfl, read⟩ := written.read
  have ends : EndsPath (⟨.lParen, opening⟩ :: (inside ++ ⟨.rParen, closing⟩ :: rest)) := endsPath_cons _ nofun
  have shape : ⟨.ident first, position⟩ :: after ++ ⟨.lParen, opening⟩ :: inside ++ [⟨.rParen, closing⟩] ++ rest =
      ⟨.ident first, position⟩ :: (after ++ ⟨.lParen, opening⟩ :: (inside ++ ⟨.rParen, closing⟩ :: rest)) := by
    simp
  rw [shape, primary, read _ ends]
  exact called

/-- A path in front of anything else names a value. -/
theorem primary_value (written : IsPath tokens path) {e : Expr} (named : resolveName path = .ok e)
    (stops : Stops .primary rest) : primary expression (tokens ++ rest) = .ok (e, rest) := by
  obtain ⟨first, position, after, names, rfl, rfl, read⟩ := written.read
  rw [List.cons_append, primary, read rest stops.endsPath]
  dsimp only [bind, Except.bind]
  rw [named]
  split
  next opening others => exact absurd (stops.head rfl) (Nat.lt_irrefl _)
  · rfl

private theorem call_function {arguments : List (List Located × Expr)} {function : Function} {e : Expr} (closing : Nat)
    (known : functionNames.lookup (stripMascot path) = some function)
    (separated : Separated (arguments.map (·.1)) inside)
    (each : ∀ argument ∈ arguments, Derives .disjunction argument.1 argument.2)
    (reads : ∀ argument ∈ arguments, ∀ rest, Stops .disjunction rest →
      expression (argument.1 ++ rest) = .ok (argument.2, rest))
    (applied : function.apply? (arguments.map (·.2)) = some e) :
    call expression path (inside ++ ⟨.rParen, closing⟩ :: rest) = .ok (e, rest) := by
  obtain ⟨plain, other⟩ := function_plain known
  rw [call, plain, if_neg other, callArguments_complete separated closing rest each reads]
  dsimp only [bind, Except.bind]
  rw [resolveCall, known]
  dsimp only
  rw [applied]
  rfl

private theorem call_border {argument : List String} {border : Border} (closing : Nat)
    (asks : stripMascot path = ["isOn"]) (given : IsPath inside argument) (named : borderOfPath? argument = some border) :
    call expression path (inside ++ ⟨.rParen, closing⟩ :: rest) = .ok (.isOn border, rest) := by
  have plain : contactQuery? path = none := by
    rw [contactQuery?, asks]
    rfl
  rw [call, plain, if_pos asks, borderCall, pathArgument_complete given closing rest]
  dsimp only [bind, Except.bind, expect]
  rw [if_pos rfl, named]
  rfl

private theorem call_contact {argument : List String} {line : String} {border : Border} (closing : Nat)
    (asks : stripMascot path = ["environment", line, "isOn"]) (named : Border.ofName? line = some border)
    (given : IsPath inside argument) (anchor : stripMascot argument = ["anchor"]) :
    call expression path (inside ++ ⟨.rParen, closing⟩ :: rest) = .ok (.isOn border, rest) := by
  have query : contactQuery? path = some line := by
    rw [contactQuery?, asks]
    rfl
  rw [call, query]
  dsimp only
  rw [contactCall, named]
  dsimp only
  rw [pathArgument_complete given closing rest]
  dsimp only [bind, Except.bind, expect]
  rw [if_pos rfl]
  dsimp only
  rw [if_pos anchor]
  rfl

end Primaries

/-! ## Levels -/

/-- Each reader of a level arrives behind the tokens with the expression, and may still go on from there with
the signs of the level. -/
def Reads (primaries : Parse Expr) (level : Level) (tokens : List Located) (e : Expr) : Prop :=
  ∀ rest, Stops level.operand rest → ∃ fuel, rest.length ≤ fuel ∧
    parserAt primaries level (tokens ++ rest) =
      chainFrom level.signs (parserAt primaries level.operand) fuel e rest

private theorem chainFrom_stops {level : Level} {rest : List Located} (stops : Stops level rest) (operand : Parse Expr)
    (fuel : Nat) (e : Expr) : chainFrom level.signs operand fuel e rest = .ok (e, rest) := by
  cases fuel with
  | zero => rfl
  | succ fuel =>
    cases rest with
    | nil => rfl
    | cons sign others =>
      rw [chainFrom]
      split
      · rfl
      next combine found => exact absurd (stops.head (signs_level found)) (Nat.lt_irrefl _)

section Levels

variable {primaries : Parse Expr} {level tighter : Level} {tokens : List Located} {e : Expr}

/-- A reader that cannot go on is done. -/
theorem Reads.whole (reads : Reads primaries level tokens e) {rest : List Located} (stops : Stops level rest) :
    parserAt primaries level (tokens ++ rest) = .ok (e, rest) := by
  obtain ⟨fuel, _, parsed⟩ := reads rest (stops.of_le (operand_rank level))
  rw [parsed, chainFrom_stops stops]

/-- At a level without left-associative signs a reader is done at once. -/
theorem Reads.of_whole (unchained : level.operand = level)
    (parsed : ∀ rest, Stops level rest → parserAt primaries level (tokens ++ rest) = .ok (e, rest)) :
    Reads primaries level tokens e := by
  intro rest stops
  rw [unchained] at stops
  exact ⟨rest.length, Nat.le_refl _, by rw [parsed rest stops, chainFrom_stops stops]⟩

private theorem parserAt_chain (chained : level.operand ≠ level) :
    parserAt primaries level = chain level.signs (parserAt primaries level.operand) := by
  cases level with
  | comparison | unary | primary => exact absurd rfl chained
  | _ => rfl

theorem Reads.first (chained : level.operand ≠ level) (reads : Reads primaries level.operand tokens e) :
    Reads primaries level tokens e := by
  intro rest stops
  refine ⟨rest.length, Nat.le_refl _, ?_⟩
  rw [parserAt_chain chained, chain, reads.whole stops]
  rfl

theorem Reads.joined {sign : Located} {combine : Expr → Expr → Expr} {left right : List Located} {a b : Expr}
    (below : level.tighter? = some tighter) (joins : level.Joins sign.token combine)
    (first : Reads primaries level left a) (second : Reads primaries tighter right b) :
    Reads primaries level (left ++ sign :: right) (combine a b) := by
  obtain ⟨found, rfl, looser⟩ := joins_signs joins below
  intro rest stops
  have apart : Stops level.operand (sign :: right ++ rest) := stops_of_sign (right ++ rest) (signs_level found) looser
  obtain ⟨fuel, enough, parsed⟩ := first (sign :: right ++ rest) apart
  rw [List.cons_append, List.length_cons, List.length_append] at enough
  obtain ⟨fuel, rfl⟩ := Nat.exists_eq_add_of_le' (Nat.le_trans (Nat.le_add_left 1 _) enough)
  refine ⟨fuel, by omega, ?_⟩
  rw [List.append_assoc, parsed, List.cons_append, chainFrom, found]
  dsimp only
  rw [second.whole stops]
  rfl

/-- One operand alone is read as a comparison. -/
theorem Reads.uncompared (reads : Reads primaries .sum tokens e) : Reads primaries .comparison tokens e := by
  refine .of_whole rfl fun rest stops => ?_
  have parsed : parserAt primaries .sum (tokens ++ rest) = .ok (e, rest) := reads.whole (stops.of_le (by decide))
  show comparison (parserAt primaries .sum) (tokens ++ rest) = _
  rw [comparison, parsed]
  dsimp only [bind, Except.bind]
  cases rest with
  | nil => rfl
  | cons sign others =>
    dsimp only
    split
    · rfl
    next op found => exact absurd (stops.head (comparisonOp_level found)) (Nat.lt_irrefl _)

theorem Reads.compared {op : Comparison} {sign : Located} {left right : List Located} {a b : Expr}
    (spelled : sign.token = op.sign) (first : Reads primaries .sum left a) (second : Reads primaries .sum right b) :
    Reads primaries .comparison (left ++ sign :: right) (.compare op a b) := by
  refine .of_whole rfl fun rest stops => ?_
  have found : comparisonOp? sign.token = some op := by rw [spelled, sign_comparisonOp]
  have apart : Stops .sum (sign :: (right ++ rest)) :=
    stops_of_sign (right ++ rest) (comparisonOp_level found) (by decide)
  show comparison (parserAt primaries .sum) _ = _
  rw [List.append_assoc, List.cons_append, comparison, first.whole apart]
  dsimp only [bind, Except.bind]
  rw [found]
  dsimp only
  rw [second.whole (stops.of_le (by decide))]
  rfl

/-- A primary alone is read as an operand of unary operators. -/
theorem Reads.unsigned (derived : Derives .primary tokens e) (reads : Reads primaries .primary tokens e) :
    Reads primaries .unary tokens e := by
  refine .of_whole rfl fun rest stops => ?_
  have parsed : parserAt primaries .primary (tokens ++ rest) = .ok (e, rest) :=
    reads.whole (stops.of_le (by decide))
  obtain ⟨t, after, rfl, _, signs⟩ := derived.head
  obtain ⟨noNot, noMinus⟩ := signs rfl
  show unary primaries (t :: (after ++ rest)) = _
  rw [unary]
  · exact parsed
  · rintro position others same
    cases same
    exact noNot rfl
  · rintro position others same
    cases same
    exact noMinus rfl

theorem Reads.single (below : level.tighter? = some tighter) (derived : Derives tighter tokens e)
    (reads : Reads primaries tighter tokens e) : Reads primaries level tokens e := by
  cases level with
  | comparison =>
    cases below
    exact reads.uncompared
  | unary =>
    cases below
    exact reads.unsigned derived
  | primary => cases below
  | _ =>
    cases below
    exact .first nofun reads

theorem Reads.not (position : Nat) (reads : Reads primaries .unary tokens e) :
    Reads primaries .unary (⟨.not, position⟩ :: tokens) (.not e) := by
  refine .of_whole rfl fun rest stops => ?_
  have parsed : unary primaries (tokens ++ rest) = .ok (e, rest) := reads.whole stops
  show unary primaries (⟨.not, position⟩ :: (tokens ++ rest)) = _
  rw [unary, parsed]
  rfl

theorem Reads.negate (position : Nat) (reads : Reads primaries .unary tokens e) :
    Reads primaries .unary (⟨.minus, position⟩ :: tokens) (.negate e) := by
  refine .of_whole rfl fun rest stops => ?_
  have parsed : unary primaries (tokens ++ rest) = .ok (e, rest) := reads.whole stops
  show unary primaries (⟨.minus, position⟩ :: (tokens ++ rest)) = _
  rw [unary, parsed]
  rfl

end Levels

/-! ## Expressions -/

/-- Parentheses leave depth enough for what stands between them. -/
theorem nested_reads {tokens : List Located} {e : Expr}
    (reads : ∀ depth, tokens.length ≤ depth + 1 → Reads (primary (expression depth)) .disjunction tokens e)
    {depth : Nat} (bound : tokens.length < depth) {rest : List Located} (stops : Stops .disjunction rest) :
    expression depth (tokens ++ rest) = .ok (e, rest) := by
  obtain ⟨depth, rfl⟩ := Nat.exists_eq_succ_of_ne_zero (Nat.ne_of_gt (Nat.lt_of_le_of_lt (Nat.zero_le _) bound))
  exact (reads depth (by omega)).whole stops

/-- Whatever the grammar derives is read, as soon as the depth is that of as many parentheses as there are
tokens. -/
theorem Derives.reads {level : Level} {tokens : List Located} {e : Expr} (derived : Derives level tokens e) :
    ∀ depth, tokens.length ≤ depth + 1 → Reads (primary (expression depth)) level tokens e := by
  induction derived with
  | single below whole ih =>
    intro depth bound
    exact .single below whole (ih depth bound)
  | joined below joins first second ihFirst ihSecond =>
    intro depth bound
    rw [List.length_append, List.length_cons] at bound
    exact .joined below joins (ihFirst depth (by omega)) (ihSecond depth (by omega))
  | compared spelled first second ihFirst ihSecond =>
    intro depth bound
    rw [List.length_append, List.length_cons] at bound
    exact .compared spelled (ihFirst depth (by omega)) (ihSecond depth (by omega))
  | not position operand ih =>
    intro depth bound
    rw [List.length_cons] at bound
    exact .not position (ih depth (by omega))
  | negate position operand ih =>
    intro depth bound
    rw [List.length_cons] at bound
    exact .negate position (ih depth (by omega))
  | number value position => exact fun depth _ => .of_whole rfl fun rest _ => rfl
  | @parenthesised opening closing tokens e inner ih =>
    intro depth bound
    simp only [List.length_append, List.length_cons, List.length_nil] at bound
    refine .of_whole rfl fun rest _ => ?_
    have parsed := nested_reads ih (show tokens.length < depth by omega) (stops_closing .disjunction closing rest)
    have shape : ⟨.lParen, opening⟩ :: tokens ++ [⟨.rParen, closing⟩] ++ rest =
        ⟨.lParen, opening⟩ :: (tokens ++ ⟨.rParen, closing⟩ :: rest) := by
      simp
    rw [shape, parserAt, primary, parsed]
    rfl
  | value written named => exact fun depth _ => .of_whole rfl fun rest stops => primary_value written named stops
  | call opening closing arguments written known each separated counted applied ih =>
    intro depth bound
    simp only [List.length_append, List.length_cons, List.length_nil] at bound
    refine .of_whole rfl fun rest _ => primary_call written opening closing ?_
    refine call_function closing known separated each (fun argument member others stops => ?_) applied
    have shorter := separated.length_of_mem argument.1 (List.mem_map_of_mem member)
    exact nested_reads (ih argument member) (by omega) stops
  | border opening closing written asks given named =>
    exact fun depth _ => .of_whole rfl fun rest _ =>
      primary_call written opening closing (call_border closing asks given named)
  | contact opening closing written asks named given anchor =>
    exact fun depth _ => .of_whole rfl fun rest _ =>
      primary_call written opening closing (call_contact closing asks named given anchor)

/-- What all tokens together form is what the parser makes of them. -/
theorem parse_derives {tokens : List Located} {e : Expr} (derived : Derives .disjunction tokens e) :
    parse tokens = .ok e := by
  obtain ⟨t, rest, rfl, _⟩ := derived.head
  have parsed : expression (rest.length + 1) (t :: rest ++ []) = .ok (e, []) :=
    (derived.reads rest.length (Nat.le_refl _)).whole (stops_nil .disjunction)
  rw [List.append_nil] at parsed
  rw [parse, List.length_cons, parsed]
  · rfl
  · nofun

theorem derives_of_parse {tokens : List Located} {e : Expr} (parsed : parse tokens = .ok e) :
    Derives .disjunction tokens e := by
  unfold parse at parsed
  split at parsed
  · cases parsed
  · obtain ⟨⟨whole, rest⟩, read, onward⟩ := bind_ok parsed
    obtain ⟨used, same, derived⟩ := expression_sound _ _ _ _ read
    dsimp only at onward
    split at onward
    · cases onward
      rw [List.append_nil] at same
      rw [same]
      exact derived
    · cases onward

/-- The parser accepts exactly the grammar: it makes an expression of tokens if and only if all of them together
form that expression. No tokens form two expressions, at whatever levels. -/
theorem parse_accepts_grammar (tokens : List Located) :
    (∀ e, parse tokens = .ok e ↔ Derives .disjunction tokens e) ∧
      ∀ level other e e', Derives level tokens e → Derives other tokens e' → e = e' := by
  refine ⟨fun e => ⟨derives_of_parse, parse_derives⟩, fun level other e e' derived again => ?_⟩
  have parsed : parse tokens = .ok e := parse_derives derived.loosen
  have same : parse tokens = .ok e' := parse_derives again.loosen
  rw [parsed] at same
  exact Except.ok.inj same

/-- The tokens of `x - y - 1 < max(-y, vx)`. -/
def differenceTokens : List Located :=
  [⟨.ident "x", 0⟩, ⟨.minus, 2⟩, ⟨.ident "y", 4⟩, ⟨.minus, 6⟩, ⟨.number 1.0, 8⟩, ⟨.lt, 10⟩, ⟨.ident "max", 12⟩,
    ⟨.lParen, 15⟩, ⟨.minus, 16⟩, ⟨.ident "y", 17⟩, ⟨.comma, 18⟩, ⟨.ident "vx", 20⟩, ⟨.rParen, 22⟩]

/-- What they form: the difference of `x - y` and 1 is compared. -/
def differenceExpr : Expr :=
  .compare .lt
    (.arithmetic .sub (.arithmetic .sub (.attribute .x) (.attribute .y)) (.literal (.number 1.0)))
    (.max (.negate (.attribute .y)) (.attribute .vx))

theorem parse_accepts_grammar_difference :
    Derives .disjunction differenceTokens differenceExpr ∧
      (∀ level e, Derives level differenceTokens e → e = differenceExpr) ∧
      ∀ e, ¬ Derives .disjunction (differenceTokens ++ [⟨.lt, 24⟩, ⟨.ident "x", 26⟩]) e := by
  obtain ⟨accepts, unique⟩ := parse_accepts_grammar differenceTokens
  have derived : Derives .disjunction differenceTokens differenceExpr := (accepts differenceExpr).mp rfl
  refine ⟨derived, fun level e again => unique level .disjunction e differenceExpr again derived, fun e twice => ?_⟩
  -- a second comparison is left over
  have parsed := ((parse_accepts_grammar _).1 e).mpr twice
  cases parsed

end DesktopPet.Condition
