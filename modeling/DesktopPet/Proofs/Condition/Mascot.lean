import DesktopPet.Proofs.Condition.Completeness

/-!
# The prefix of paths

A path may be written with `mascot.` before it, and means the same. `Prefixed` puts the two tokens before some of the
paths of a condition, and what the tokens form stays what it was (`Derives.prefixed`): paths are only ever looked up
without the prefix. So the parser does not see whether it is there (`mascot_is_optional`).
-/

namespace DesktopPet.Condition

/-! ## Tokens with more prefixes -/

/-- The second list has `mascot.` before some of the paths of the first. A path starts at a name that does not stand
after a dot, and `afterDot` says whether the lists do. Tokens keep their order, but may move to another place in the
text. -/
inductive Prefixed : Bool → List Located → List Located → Prop where
  | nil (afterDot : Bool) : Prefixed afterDot [] []
  | keep {afterDot : Bool} (token : Token) (position place : Nat) {rest rest' : List Located}
      (later : Prefixed (token = .dot) rest rest') :
      Prefixed afterDot (⟨token, position⟩ :: rest) (⟨token, place⟩ :: rest')
  | insert (name : String) (position mascot dot place : Nat) {rest rest' : List Located} (other : name ≠ "mascot")
      (later : Prefixed false rest rest') :
      Prefixed false (⟨.ident name, position⟩ :: rest)
        (⟨.ident "mascot", mascot⟩ :: ⟨.dot, dot⟩ :: ⟨.ident name, place⟩ :: rest')

/-- Nothing comes before a token that is no name. -/
theorem Prefixed.head {afterDot : Bool} {t : Located} {rest tokens' : List Located}
    (prefixed : Prefixed afterDot (t :: rest) tokens') (sign : ∀ name, t.token ≠ .ident name) :
    ∃ place rest', tokens' = ⟨t.token, place⟩ :: rest' ∧ Prefixed (t.token = .dot) rest rest' := by
  cases prefixed with
  | keep token position place later => exact ⟨place, _, rfl, later⟩
  | insert name => exact absurd rfl (sign name)

/-- What stands before and after a token that is no name has its own prefixes. -/
theorem Prefixed.around {afterDot : Bool} {left right tokens' : List Located} {t : Located}
    (prefixed : Prefixed afterDot (left ++ t :: right) tokens') (sign : ∀ name, t.token ≠ .ident name) :
    ∃ left' place right', tokens' = left' ++ ⟨t.token, place⟩ :: right' ∧ Prefixed afterDot left left' ∧
      Prefixed (t.token = .dot) right right' := by
  induction left generalizing afterDot tokens' with
  | nil =>
    obtain ⟨place, rest', rfl, later⟩ := prefixed.head sign
    exact ⟨[], place, rest', rfl, .nil afterDot, later⟩
  | cons first others ih =>
    cases prefixed with
    | keep token position place later =>
      obtain ⟨left', here, right', rfl, before, after⟩ := ih later
      exact ⟨⟨token, place⟩ :: left', here, right', rfl, .keep token position place before, after⟩
    | insert name position mascot dot place other later =>
      obtain ⟨left', here, right', rfl, before, after⟩ := ih later
      exact ⟨⟨.ident "mascot", mascot⟩ :: ⟨.dot, dot⟩ :: ⟨.ident name, place⟩ :: left', here, right', rfl,
        .insert name position mascot dot place other before, after⟩

/-- An operator is neither a name nor a dot. -/
def Token.IsOperator (token : Token) : Prop :=
  (∀ name, token ≠ .ident name) ∧ token ≠ .dot

theorem Level.Joins.isOperator {level : Level} {token : Token} {combine : Expr → Expr → Expr}
    (joins : level.Joins token combine) : token.IsOperator := by
  cases joins with
  | _ => exact ⟨nofun, nofun⟩

theorem Comparison.sign_isOperator (op : Comparison) : op.sign.IsOperator := by
  cases op with
  | _ => exact ⟨nofun, nofun⟩

/-- Both operands of an operator have their own prefixes. -/
theorem Prefixed.operands {afterDot : Bool} {left right tokens' : List Located} {t : Located}
    (prefixed : Prefixed afterDot (left ++ t :: right) tokens') (operator : t.token.IsOperator) :
    ∃ left' place right', tokens' = left' ++ ⟨t.token, place⟩ :: right' ∧ Prefixed afterDot left left' ∧
      Prefixed false right right' := by
  obtain ⟨left', place, right', split, before, after⟩ := prefixed.around operator.1
  rw [decide_eq_false operator.2] at after
  exact ⟨left', place, right', split, before, after⟩

/-- What stands in parentheses after other tokens has its own prefixes. -/
theorem Prefixed.enclosed {afterDot : Bool} {left inside tokens' : List Located} {opening closing : Nat}
    (prefixed : Prefixed afterDot (left ++ ⟨.lParen, opening⟩ :: inside ++ [⟨.rParen, closing⟩]) tokens') :
    ∃ left' opening' inside' closing', tokens' = left' ++ ⟨.lParen, opening'⟩ :: inside' ++ [⟨.rParen, closing'⟩] ∧
      Prefixed afterDot left left' ∧ Prefixed false inside inside' := by
  obtain ⟨body', closing', rest', rfl, body, last⟩ := prefixed.around nofun
  obtain ⟨left', opening', inside', rfl, before, within⟩ := body.around nofun
  cases last
  exact ⟨left', opening', inside', closing', rfl, before, within⟩

/-! ## Paths and arguments -/

/-- Inside of a path there is no place for a prefix. -/
theorem IsPath.prefixed_rest {tokens tokens' : List Located} {path : List String} (written : IsPath tokens path)
    (prefixed : Prefixed true tokens tokens') : IsPath tokens' path := by
  induction written generalizing tokens' with
  | name name position =>
    cases prefixed with
    | keep _ _ place later =>
      cases later
      exact .name name place
  | dotted name position dot rest ih =>
    cases prefixed with
    | keep _ _ place later =>
      obtain ⟨dot', rest', rfl, after⟩ := later.head nofun
      exact .dotted name place dot' (ih after)

/-- The prefix of a path is taken off again. -/
theorem stripMascot_cons {name : String} (other : name ≠ "mascot") (names : List String) :
    stripMascot ("mascot" :: name :: names) = stripMascot (name :: names) := by
  rw [stripMascot, stripMascot]
  rintro next rest same
  cases same
  exact other rfl

/-- A path with more of a prefix means the same. -/
theorem IsPath.prefixed {tokens tokens' : List Located} {path : List String} (written : IsPath tokens path)
    (prefixed : Prefixed false tokens tokens') :
    ∃ path', IsPath tokens' path' ∧ stripMascot path' = stripMascot path := by
  cases written with
  | name name position =>
    cases prefixed with
    | keep _ _ place later =>
      cases later
      exact ⟨[name], .name name place, rfl⟩
    | insert _ _ mascot dot place other later =>
      cases later
      exact ⟨["mascot", name], .dotted "mascot" mascot dot (.name name place), stripMascot_cons other []⟩
  | dotted name position dot rest =>
    cases prefixed with
    | keep _ _ place later =>
      obtain ⟨dot', rest', rfl, after⟩ := later.head nofun
      exact ⟨_, .dotted name place dot' (rest.prefixed_rest after), rfl⟩
    | insert _ _ mascot first place other later =>
      obtain ⟨dot', rest', rfl, after⟩ := later.head nofun
      exact ⟨_, .dotted "mascot" mascot first (.dotted name place dot' (rest.prefixed_rest after)),
        stripMascot_cons other _⟩

/-- Names are resolved without the prefix. -/
theorem resolveName_ok {path : List String} {e : Expr} :
    resolveName path = .ok e ↔ valueNames.lookup (stripMascot path) = some e := by
  unfold resolveName
  cases valueNames.lookup (stripMascot path) with
  | none => exact ⟨nofun, nofun⟩
  | some value => simp

/-- The line of a path is found without the prefix. -/
theorem borderOfPath_congr {path path' : List String} (same : stripMascot path' = stripMascot path) :
    borderOfPath? path' = borderOfPath? path := by
  rw [borderOfPath?, borderOfPath?, same]

/-- Arguments that form their expressions whatever prefixes they get still do so between commas. -/
theorem Separated.prefixed {lists : List (List Located)} {inside : List Located} (separated : Separated lists inside) :
    ∀ (arguments : List (List Located × Expr)) {inside' : List Located}, arguments.map (·.1) = lists →
      Prefixed false inside inside' →
      (∀ argument ∈ arguments, ∀ tokens', Prefixed false argument.1 tokens' →
        Derives .disjunction tokens' argument.2) →
      ∃ arguments' : List (List Located × Expr), Separated (arguments'.map (·.1)) inside' ∧
        (∀ argument ∈ arguments', Derives .disjunction argument.1 argument.2) ∧
        arguments'.map (·.2) = arguments.map (·.2) := by
  induction separated with
  | none =>
    intro arguments inside' same prefixed _
    cases prefixed
    cases List.map_eq_nil_iff.mp same
    exact ⟨[], .none, nofun, rfl⟩
  | last tokens =>
    intro arguments inside' same prefixed each
    obtain ⟨argument, rfl, rfl⟩ := List.map_eq_singleton_iff.mp same
    have derived := each argument List.mem_cons_self inside' prefixed
    exact ⟨[(inside', argument.2)], .last inside', by simpa using derived, rfl⟩
  | more tokens comma later ih =>
    intro arguments inside' same prefixed each
    obtain ⟨argument, others, rfl, rfl, following⟩ := List.map_eq_cons_iff.mp same
    obtain ⟨first', comma', rest', rfl, first, rest⟩ := prefixed.around nofun
    obtain ⟨others', apart, derived, values⟩ := ih others following rest fun other member =>
      each other (List.mem_cons_of_mem argument member)
    have here := each argument List.mem_cons_self first' first
    cases others' with
    | nil =>
      -- the arguments after the comma are as many as they were
      rw [List.map_nil, eq_comm, List.map_eq_nil_iff] at values
      rw [values] at following
      cases following
    | cons next more =>
      exact ⟨(first', argument.2) :: next :: more, .more first' comma' apart, List.forall_mem_cons.mpr ⟨here, derived⟩,
        by rw [List.map_cons, values, List.map_cons]⟩

/-! ## Expressions -/

/-- Whatever the tokens form, they form it with more prefixes, too. The induction is on the derivation, and each case
finds the parts of the longer list by the tokens of its rule. -/
theorem Derives.prefixed {level : Level} {tokens : List Located} {e : Expr} (derived : Derives level tokens e) :
    ∀ tokens', Prefixed false tokens tokens' → Derives level tokens' e := by
  induction derived with
  | single below whole ih => exact fun tokens' prefixed => .single below (ih tokens' prefixed)
  | joined below joins first second ihFirst ihSecond =>
    intro tokens' prefixed
    obtain ⟨left', place, right', rfl, before, after⟩ := prefixed.operands joins.isOperator
    exact .joined below joins (ihFirst left' before) (ihSecond right' after)
  | @compared op sign left right a b spelled first second ihFirst ihSecond =>
    intro tokens' prefixed
    obtain ⟨left', place, right', rfl, before, after⟩ := prefixed.operands (spelled ▸ op.sign_isOperator)
    exact .compared spelled (ihFirst left' before) (ihSecond right' after)
  | not position operand ih =>
    intro tokens' prefixed
    obtain ⟨place, rest', rfl, after⟩ := prefixed.head nofun
    exact .not place (ih rest' after)
  | negate position operand ih =>
    intro tokens' prefixed
    obtain ⟨place, rest', rfl, after⟩ := prefixed.head nofun
    exact .negate place (ih rest' after)
  | number value position =>
    intro tokens' prefixed
    obtain ⟨place, rest', rfl, after⟩ := prefixed.head nofun
    cases after
    exact .number value place
  | parenthesised opening closing inner ih =>
    intro tokens' prefixed
    obtain ⟨left', opening', inside', closing', rfl, before, within⟩ := @Prefixed.enclosed false [] _ _ _ _ prefixed
    cases before
    exact .parenthesised opening' closing' (ih inside' within)
  | value written named =>
    intro tokens' prefixed
    obtain ⟨path', written', same⟩ := written.prefixed prefixed
    exact .value written' (resolveName_ok.mpr (same ▸ resolveName_ok.mp named))
  | call opening closing arguments written known each separated counted applied ih =>
    intro tokens' prefixed
    obtain ⟨left', opening', inside', closing', rfl, before, within⟩ := prefixed.enclosed
    obtain ⟨path', written', same⟩ := written.prefixed before
    obtain ⟨arguments', separated', derived, values⟩ := separated.prefixed arguments rfl within ih
    have length : arguments'.length = arguments.length := by simpa using congrArg List.length values
    exact .call opening' closing' arguments' written' (same ▸ known) derived separated' (length.trans counted)
      (values ▸ applied)
  | border opening closing written asks given named =>
    intro tokens' prefixed
    obtain ⟨left', opening', inside', closing', rfl, before, within⟩ := prefixed.enclosed
    obtain ⟨path', written', same⟩ := written.prefixed before
    obtain ⟨argument', given', line⟩ := given.prefixed within
    exact .border opening' closing' written' (same.trans asks) given' ((borderOfPath_congr line).trans named)
  | contact opening closing written asks named given anchor =>
    intro tokens' prefixed
    obtain ⟨left', opening', inside', closing', rfl, before, within⟩ := prefixed.enclosed
    obtain ⟨path', written', same⟩ := written.prefixed before
    obtain ⟨argument', given', point⟩ := given.prefixed within
    exact .contact opening' closing' written' (same.trans asks) named given' (point.trans anchor)

/-- The prefix is optional everywhere: with `mascot.` before any of its paths, a condition parses to the same
expression. -/
theorem mascot_is_optional {tokens tokens' : List Located} (prefixed : Prefixed false tokens tokens') {e : Expr}
    (parsed : parse tokens = .ok e) : parse tokens' = .ok e :=
  parse_derives ((derives_of_parse parsed).prefixed tokens' prefixed)

/-- `environment.floor.isOn(anchor) || max(x, vx) < 1` -/
def restingTokens : List Located :=
  [⟨.ident "environment", 0⟩, ⟨.dot, 11⟩, ⟨.ident "floor", 12⟩, ⟨.dot, 17⟩, ⟨.ident "isOn", 18⟩, ⟨.lParen, 22⟩,
    ⟨.ident "anchor", 23⟩, ⟨.rParen, 29⟩, ⟨.or, 31⟩, ⟨.ident "max", 34⟩, ⟨.lParen, 37⟩, ⟨.ident "x", 38⟩, ⟨.comma, 39⟩,
    ⟨.ident "vx", 41⟩, ⟨.rParen, 43⟩, ⟨.lt, 45⟩, ⟨.number 1.0, 47⟩]

/-- `mascot.environment.floor.isOn(mascot.anchor) || mascot.max(x, mascot.vx) < 1` -/
def mascotRestingTokens : List Located :=
  [⟨.ident "mascot", 0⟩, ⟨.dot, 6⟩, ⟨.ident "environment", 7⟩, ⟨.dot, 18⟩, ⟨.ident "floor", 19⟩, ⟨.dot, 24⟩,
    ⟨.ident "isOn", 25⟩, ⟨.lParen, 29⟩, ⟨.ident "mascot", 30⟩, ⟨.dot, 36⟩, ⟨.ident "anchor", 37⟩, ⟨.rParen, 43⟩,
    ⟨.or, 45⟩, ⟨.ident "mascot", 48⟩, ⟨.dot, 54⟩, ⟨.ident "max", 55⟩, ⟨.lParen, 58⟩, ⟨.ident "x", 59⟩, ⟨.comma, 60⟩,
    ⟨.ident "mascot", 62⟩, ⟨.dot, 68⟩, ⟨.ident "vx", 69⟩, ⟨.rParen, 71⟩, ⟨.lt, 73⟩, ⟨.number 1.0, 75⟩]

/-- The function, the anchor and one of the attributes get the prefix, and the other attribute does not. -/
theorem mascot_is_optional_resting :
    Prefixed false restingTokens mascotRestingTokens ∧
      parse mascotRestingTokens = .ok (.logic .or (.isOn .floor)
        (.compare .lt (.max (.attribute .x) (.attribute .vx)) (.literal (.number 1.0)))) := by
  have prefixed : Prefixed false restingTokens mascotRestingTokens :=
    .insert "environment" _ _ _ _ (by decide) <| .keep .dot _ _ <| .keep (.ident "floor") _ _ <| .keep .dot _ _ <|
      .keep (.ident "isOn") _ _ <| .keep .lParen _ _ <| .insert "anchor" _ _ _ _ (by decide) <|
      .keep .rParen _ _ <| .keep .or _ _ <| .insert "max" _ _ _ _ (by decide) <| .keep .lParen _ _ <|
      .keep (.ident "x") _ _ <| .keep .comma _ _ <| .insert "vx" _ _ _ _ (by decide) <|
      .keep .rParen _ _ <| .keep .lt _ _ <| .keep (.number 1.0) _ _ <| .nil _
  exact ⟨prefixed, mascot_is_optional prefixed rfl⟩

end DesktopPet.Condition
