import DesktopPet.Proofs.Condition.Finiteness

/-!
# Kinds of expressions

An expression that is put together by the rules of `HasKind` evaluates to a value of its kind, or it fails because of a
zero divisor or a number that is not finite; it never meets a value of the wrong kind (`kinded_yields`). Where such a
failure comes from is said by `Faults`: it is the failure of an operand to which evaluation comes, or a fault of the
expression itself (`fails_cases`), so every such failure has its place (`fails_at_fault`).
-/

namespace DesktopPet.Condition

/-! ## The rules -/

/-- The kind of an attribute. -/
def Attribute.kind : Attribute → Kind
  | .x | .y | .vx | .vy | .width | .height | .anchorX | .anchorY => .number
  | .onFloor | .onCeiling | .onLeftWall | .onRightWall => .bool
  | .closeToLeftWall | .closeToRightWall => .bool
  | .rightFloor | .leftFloor | .rightCeiling | .leftCeiling => .bool
  | .isDragging | .isThrown | .lookRight => .bool
  | .line _ | .screenWidth | .screenHeight => .number
  | .workAreaLeft | .workAreaRight | .workAreaTop | .workAreaBottom => .number

/-- The kind of an expression. -/
inductive HasKind : Expr → Kind → Prop where
  | literal (value : Value) : HasKind (.literal value) value.kind
  | attribute (name : Attribute) : HasKind (.attribute name) name.kind
  /-- Two operands of one kind are equal or not. -/
  | equality {op : Comparison} {kind : Kind} {left right : Expr} (equates : op = .eq ∨ op = .ne)
      (first : HasKind left kind) (second : HasKind right kind) : HasKind (.compare op left right) .bool
  /-- Numbers can also be compared by their order. -/
  | order (op : Comparison) {left right : Expr} (first : HasKind left .number) (second : HasKind right .number) :
      HasKind (.compare op left right) .bool
  | logic (op : Connective) {left right : Expr} (first : HasKind left .bool) (second : HasKind right .bool) :
      HasKind (.logic op left right) .bool
  | not {operand : Expr} (inner : HasKind operand .bool) : HasKind (.not operand) .bool
  | arithmetic (op : Arithmetic) {left right : Expr} (first : HasKind left .number) (second : HasKind right .number) :
      HasKind (.arithmetic op left right) .number
  | negate {operand : Expr} (inner : HasKind operand .number) : HasKind (.negate operand) .number
  | isOn (border : Border) : HasKind (.isOn border) .bool
  | random {probability : Expr} (inner : HasKind probability .number) : HasKind (.random probability) .bool
  | mathRandom : HasKind .mathRandom .number
  | abs {operand : Expr} (inner : HasKind operand .number) : HasKind (.abs operand) .number
  | min {left right : Expr} (first : HasKind left .number) (second : HasKind right .number) :
      HasKind (.min left right) .number
  | max {left right : Expr} (first : HasKind left .number) (second : HasKind right .number) :
      HasKind (.max left right) .number

/-- The kind of an expression by these rules, if it has one. -/
def Expr.kind? : Expr → Option Kind
  | .literal value => some value.kind
  | .attribute name => some name.kind
  | .compare op left right =>
    if left.kind? = some .number ∧ right.kind? = some .number ∨
      (op = .eq ∨ op = .ne) ∧ left.kind? = some .bool ∧ right.kind? = some .bool then some .bool else none
  | .logic _ left right => if left.kind? = some .bool ∧ right.kind? = some .bool then some .bool else none
  | .not operand => if operand.kind? = some .bool then some .bool else none
  | .arithmetic _ left right => if left.kind? = some .number ∧ right.kind? = some .number then some .number else none
  | .negate operand => if operand.kind? = some .number then some .number else none
  | .isOn _ => some .bool
  | .random probability => if probability.kind? = some .number then some .bool else none
  | .mathRandom => some .number
  | .abs operand => if operand.kind? = some .number then some .number else none
  | .min left right => if left.kind? = some .number ∧ right.kind? = some .number then some .number else none
  | .max left right => if left.kind? = some .number ∧ right.kind? = some .number then some .number else none

theorem HasKind.computed {e : Expr} {kind : Kind} (kinded : HasKind e kind) : e.kind? = some kind := by
  induction kinded with
  | literal value => rfl
  | «attribute» name => rfl
  | @equality op kind left right equates _ _ first second =>
    cases kind with
    | number => exact if_pos (Or.inl ⟨first, second⟩)
    | bool => exact if_pos (Or.inr ⟨equates, first, second⟩)
  | order op _ _ first second => exact if_pos (Or.inl ⟨first, second⟩)
  | logic op _ _ first second => exact if_pos ⟨first, second⟩
  | not _ inner => exact if_pos inner
  | arithmetic op _ _ first second => exact if_pos ⟨first, second⟩
  | negate _ inner => exact if_pos inner
  | isOn border => rfl
  | random _ inner => exact if_pos inner
  | mathRandom => rfl
  | abs _ inner => exact if_pos inner
  | min _ _ first second => exact if_pos ⟨first, second⟩
  | max _ _ first second => exact if_pos ⟨first, second⟩

private theorem hasKind_of_kind? {e : Expr} {kind : Kind} (computed : e.kind? = some kind) : HasKind e kind := by
  induction e generalizing kind with
  | literal value => cases computed; exact .literal value
  | «attribute» name => cases computed; exact .attribute name
  | isOn border => cases computed; exact .isOn border
  | mathRandom => cases computed; exact .mathRandom
  | compare op left right first second =>
    rw [Expr.kind?] at computed
    split at computed
    next rule =>
      cases computed
      rcases rule with ⟨one, other⟩ | ⟨equates, one, other⟩
      · exact .order op (first one) (second other)
      · exact .equality equates (first one) (second other)
    · cases computed
  | logic op left right first second =>
    obtain ⟨⟨one, other⟩, same⟩ := Option.ite_none_right_eq_some.mp computed
    cases same
    exact .logic op (first one) (second other)
  | not operand inner =>
    obtain ⟨one, same⟩ := Option.ite_none_right_eq_some.mp computed
    cases same
    exact .not (inner one)
  | arithmetic op left right first second =>
    obtain ⟨⟨one, other⟩, same⟩ := Option.ite_none_right_eq_some.mp computed
    cases same
    exact .arithmetic op (first one) (second other)
  | negate operand inner =>
    obtain ⟨one, same⟩ := Option.ite_none_right_eq_some.mp computed
    cases same
    exact .negate (inner one)
  | random probability inner =>
    obtain ⟨one, same⟩ := Option.ite_none_right_eq_some.mp computed
    cases same
    exact .random (inner one)
  | abs operand inner =>
    obtain ⟨one, same⟩ := Option.ite_none_right_eq_some.mp computed
    cases same
    exact .abs (inner one)
  | min left right first second =>
    obtain ⟨⟨one, other⟩, same⟩ := Option.ite_none_right_eq_some.mp computed
    cases same
    exact .min (first one) (second other)
  | max left right first second =>
    obtain ⟨⟨one, other⟩, same⟩ := Option.ite_none_right_eq_some.mp computed
    cases same
    exact .max (first one) (second other)

instance (e : Expr) (kind : Kind) : Decidable (HasKind e kind) :=
  decidable_of_iff (e.kind? = some kind) ⟨hasKind_of_kind?, HasKind.computed⟩

/-! ## Values of the right kind -/

/-- The failure is one of computing with numbers. -/
def EvalError.OfNumbers (error : EvalError) : Prop :=
  error = .divisionByZero ∨ error = .nonFinite

variable {view : View}

/-- An attribute is read at its kind. -/
theorem read_kind (view : View) (name : Attribute) : (view.read name).kind = name.kind := by
  cases name <;> rfl

theorem expectNumber_kinded {v : Value} (number : v.kind = .number) :
    Yields (fun _ => True) EvalError.OfNumbers (Expr.eval.liftExcept v.expectNumber) := by
  cases v with
  | bool b => cases number
  | number x =>
    rw [Value.expectNumber]
    split
    · exact .pure trivial
    · exact .fail (Or.inr rfl)

theorem expectBool_kinded {v : Value} (truth : v.kind = .bool) :
    Yields (fun _ => True) EvalError.OfNumbers (Expr.eval.liftExcept v.expectBool) := by
  cases v with
  | bool b => exact .pure trivial
  | number x => cases truth

theorem compare_kinded {op : Comparison} {a b : Value} (same : a.kind = b.kind)
    (comparable : a.kind = .number ∨ op = .eq ∨ op = .ne) :
    Yields (fun _ => True) EvalError.OfNumbers (Expr.eval.liftExcept (op.apply a b)) := by
  cases a with
  | number x =>
    cases b with
    | number y => exact .pure trivial
    | bool c => cases same
  | bool c =>
    cases b with
    | number y => cases same
    | bool d =>
      rcases comparable with number | rfl | rfl
      · cases number
      · exact .pure trivial
      · exact .pure trivial

theorem finiteResult_kinded (x : Float) :
    Yields (·.kind = .number) EvalError.OfNumbers (Expr.eval.liftExcept (finiteResult x)) := by
  rw [finiteResult]
  split
  · exact .pure rfl
  · exact .fail (Or.inr rfl)

theorem apply_kinded (op : Arithmetic) (x y : Float) :
    Yields (·.kind = .number) EvalError.OfNumbers (Expr.eval.liftExcept (op.apply x y)) := by
  rw [Arithmetic.apply_eq]
  split
  · exact .fail (Or.inl rfl)
  · exact finiteResult_kinded _

/-- The induction is on the derivation, with one case for each rule. -/
theorem kinded_yields {e : Expr} {kind : Kind} (kinded : HasKind e kind) :
    Yields (·.kind = kind) EvalError.OfNumbers (e.eval view) := by
  induction kinded with
  | literal value => exact .pure rfl
  | «attribute» name => exact .pure (read_kind view name)
  | equality equates _ _ first second =>
    exact first.bind fun a one => second.bind fun b other =>
      (compare_kinded (one.trans other.symm) (Or.inr equates)).bind fun _ _ => .pure rfl
  | order op _ _ first second =>
    exact first.bind fun a one => second.bind fun b other =>
      (compare_kinded (one.trans other.symm) (Or.inl one)).bind fun _ _ => .pure rfl
  | logic op _ _ first second =>
    cases op with
    | and =>
      refine first.bind fun a truth => (expectBool_kinded truth).bind fun decided _ => ?_
      cases decided with
      | true => exact second.bind fun b truth => (expectBool_kinded truth).bind fun _ _ => .pure rfl
      | false => exact .pure rfl
    | or =>
      refine first.bind fun a truth => (expectBool_kinded truth).bind fun decided _ => ?_
      cases decided with
      | true => exact .pure rfl
      | false => exact second.bind fun b truth => (expectBool_kinded truth).bind fun _ _ => .pure rfl
  | not _ inner => exact inner.bind fun a truth => (expectBool_kinded truth).bind fun _ _ => .pure rfl
  | arithmetic op _ _ first second =>
    exact first.bind fun a one => (expectNumber_kinded one).bind fun x _ =>
      second.bind fun b other => (expectNumber_kinded other).bind fun y _ => apply_kinded op x y
  | negate _ inner =>
    exact inner.bind fun a one => (expectNumber_kinded one).bind fun x _ => finiteResult_kinded (-x)
  | isOn border => exact .pure rfl
  | random _ inner =>
    exact inner.bind fun a one => (expectNumber_kinded one).bind fun p _ =>
      (Yields.draw (S := fun _ => True) fun _ => trivial).bind fun u _ => .pure rfl
  | mathRandom => exact (Yields.draw (S := fun _ => True) fun _ => trivial).bind fun u _ => .pure rfl
  | abs _ inner => exact inner.bind fun a one => (expectNumber_kinded one).bind fun x _ => .pure rfl
  | min _ _ first second =>
    exact first.bind fun a one => (expectNumber_kinded one).bind fun x _ =>
      second.bind fun b other => (expectNumber_kinded other).bind fun y _ => .pure rfl
  | max _ _ first second =>
    exact first.bind fun a one => (expectNumber_kinded one).bind fun x _ =>
      second.bind fun b other => (expectNumber_kinded other).bind fun y _ => .pure rfl

/-! ## Where failures come from -/

/-- The expression fails as an operation on numbers, and not because one of its operands fails. -/
inductive Faults (view : View) : Expr → Random → EvalError → Prop where
  /-- A number is divided by zero. -/
  | zeroDivisor {op : Arithmetic} {left right : Expr} {r middle last : Random} {x y : Float}
      (divides : op.divides = true) (first : Gives (left.eval view) r (.number x) middle)
      (second : Gives (right.eval view) middle (.number y) last) (zero : (y == 0.0) = true) :
      Faults view (.arithmetic op left right) r .divisionByZero
  /-- An operand is NaN or an infinity. -/
  | operand {e operand : Expr} {r later last : Random} {x : Float} (checks : e.checksNumbers = true)
      (asked : Asks view (e, r) (operand, later)) (given : Gives (operand.eval view) later (.number x) last)
      (nonfinite : x.isFinite = false) : Faults view e r .nonFinite
  /-- The result is NaN or an infinity. -/
  | result {e : Expr} {r : Random} {x : Float} (computes : Computes view e r x) (nonfinite : x.isFinite = false) :
      Faults view e r .nonFinite

private theorem expectNumber_error {v : Value} {error : EvalError} (refuses : v.expectNumber = .error error) :
    (∃ expected found, error = .typeMismatch expected found) ∨
      ∃ x, v = .number x ∧ x.isFinite = false ∧ error = .nonFinite := by
  cases v with
  | bool b =>
    cases refuses
    exact Or.inl ⟨_, _, rfl⟩
  | number x =>
    rw [Value.expectNumber] at refuses
    split at refuses
    · cases refuses
    next nonfinite =>
      cases refuses
      exact Or.inr ⟨x, rfl, Bool.eq_false_iff.mpr nonfinite, rfl⟩

theorem expectBool_error {v : Value} {error : EvalError} (refuses : v.expectBool = .error error) :
    ∃ expected found, error = .typeMismatch expected found := by
  cases v with
  | bool b => cases refuses
  | number x =>
    cases refuses
    exact ⟨_, _, rfl⟩

private theorem compare_error {op : Comparison} {a b : Value} {error : EvalError}
    (refuses : op.apply a b = .error error) :
    ∃ expected found, error = .typeMismatch expected found := by
  cases a with
  | number x =>
    cases b with
    | number y => cases refuses
    | bool c =>
      cases refuses
      exact ⟨_, _, rfl⟩
  | bool c =>
    cases b with
    | number y =>
      cases refuses
      exact ⟨_, _, rfl⟩
    | bool d =>
      cases op <;> cases refuses <;> exact ⟨_, _, rfl⟩

theorem EvalError.OfNumbers.not_mismatch {error : EvalError} (numeric : error.OfNumbers) :
    ¬ ∃ expected found, error = .typeMismatch expected found := by
  rintro ⟨expected, found, rfl⟩
  rcases numeric with other | other
  · cases other
  · cases other

/-- An operand that is refused as a number is not finite, unless it is of the other kind. -/
theorem Faults.of_number {e operand : Expr} {r later last : Random} {v : Value} {error : EvalError}
    (checks : e.checksNumbers = true) (asked : Asks view (e, r) (operand, later))
    (given : Gives (operand.eval view) later v last) (numeric : error.OfNumbers)
    (refuses : v.expectNumber = .error error) : Faults view e r error := by
  rcases expectNumber_error refuses with mismatch | ⟨x, rfl, nonfinite, rfl⟩
  · exact absurd mismatch numeric.not_mismatch
  · exact .operand checks asked given nonfinite

/-- An operand to which evaluation comes fails. -/
def OperandFails (view : View) (e : Expr) (r : Random) (error : EvalError) : Prop :=
  ∃ operand, Asks view (e, r) operand ∧ Fails (operand.1.eval view) operand.2 error

/-- What fails in a function of one number. -/
private theorem number_fails_cases {e operand : Expr} {next : Float → Draw Value} {r : Random} {error : EvalError}
    (operands : e.operands = [operand]) (checks : e.checksNumbers = true) (numeric : error.OfNumbers)
    (failed : Fails (operand.eval view >>= fun v => Expr.eval.liftExcept v.expectNumber >>= next) r error)
    (rest : ∀ x later, x.isFinite = true → ¬ Fails (next x) later error) :
    OperandFails view e r error ∨ Faults view e r error := by
  rcases (fails_bind _ _ _ _).mp failed with inner | ⟨v, later, given, checked⟩
  · exact Or.inl ⟨_, .first r operands, inner⟩
  rcases (fails_check _ _ _ _).mp checked with refuses | ⟨x, passes, finished⟩
  · exact Or.inr (.of_number checks (.first r operands) given numeric refuses)
  · obtain ⟨rfl, finite⟩ := expectNumber_ok passes
    exact absurd finished (rest x later finite)

/-- What fails in a function of two numbers: an operand, or the function itself with two finite numbers. -/
private theorem numbers_fail_cases {e left right : Expr} {next : Float → Float → Draw Value} {r : Random}
    {error : EvalError} (operands : e.operands = [left, right]) (checks : e.checksNumbers = true)
    (numeric : error.OfNumbers) (goes : ∀ v : Value, e.goesOn v = v.expectNumber.isOk)
    (failed : Fails (left.eval view >>= fun v => Expr.eval.liftExcept v.expectNumber >>= fun x =>
      right.eval view >>= fun w => Expr.eval.liftExcept w.expectNumber >>= fun y => next x y) r error)
    (rest : ∀ x y middle last, Gives (left.eval view) r (.number x) middle →
      Gives (right.eval view) middle (.number y) last → Fails (next x y) last error → Faults view e r error) :
    OperandFails view e r error ∨ Faults view e r error := by
  rcases (fails_bind _ _ _ _).mp failed with inner | ⟨v, middle, given, checked⟩
  · exact Or.inl ⟨_, .first r operands, inner⟩
  rcases (fails_check _ _ _ _).mp checked with refuses | ⟨x, passes, asking⟩
  · exact Or.inr (.of_number checks (.first r operands) given numeric refuses)
  have second : Asks view (e, r) (right, middle) := .second operands given (by rw [goes, passes]; rfl)
  rcases (fails_bind _ _ _ _).mp asking with inner | ⟨w, last, given', checked'⟩
  · exact Or.inl ⟨_, second, inner⟩
  rcases (fails_check _ _ _ _).mp checked' with refuses | ⟨y, passes', finished⟩
  · exact Or.inr (.of_number checks second given' numeric refuses)
  · obtain ⟨rfl, _⟩ := expectNumber_ok passes
    obtain ⟨rfl, _⟩ := expectNumber_ok passes'
    exact Or.inr (rest x y middle last given given' finished)

/-- What fails in the second operand of a connective, or in what is made of its value. -/
private theorem logic_fails_cases {e left right : Expr} {r later : Random} {v : Value} {error : EvalError}
    (operands : e.operands = [left, right]) (given : Gives (left.eval view) r v later) (on : e.goesOn v = true)
    (numeric : error.OfNumbers)
    (failed : Fails (right.eval view >>= fun w => Expr.eval.liftExcept w.expectBool >>= fun b =>
      pure (Value.bool b)) later error) : OperandFails view e r error ∨ Faults view e r error := by
  rcases (fails_bind _ _ _ _).mp failed with inner | ⟨w, last, _, failed⟩
  · exact Or.inl ⟨_, .second operands given on, inner⟩
  rcases (fails_check _ _ _ _).mp failed with refuses | ⟨b, _, failed⟩
  · exact absurd (expectBool_error refuses) numeric.not_mismatch
  · exact absurd failed (fails_pure _ _ _)

/-- A failure of numbers is that of an operand to which evaluation comes, or a fault of the expression itself. -/
theorem fails_cases {e : Expr} {r : Random} {error : EvalError} (failed : Fails (e.eval view) r error)
    (numeric : error.OfNumbers) : OperandFails view e r error ∨ Faults view e r error := by
  cases e with
  | literal value => exact absurd failed (fails_pure _ _ _)
  | «attribute» name => exact absurd failed (fails_pure _ _ _)
  | isOn border => exact absurd failed (fails_pure _ _ _)
  | mathRandom =>
    rcases (fails_bind _ _ _ _).mp failed with drawn | ⟨u, later, _, failed⟩
    · exact absurd drawn (fails_modifyGet _ _ _)
    · exact absurd failed (fails_pure _ _ _)
  -- comparisons, negations and connectives only fail of themselves by a mismatch
  | compare op left right =>
    rcases (fails_bind _ _ _ _).mp failed with inner | ⟨a, middle, given, failed⟩
    · exact Or.inl ⟨_, .first r rfl, inner⟩
    rcases (fails_bind _ _ _ _).mp failed with inner | ⟨b, last, _, failed⟩
    · exact Or.inl ⟨_, .second rfl given rfl, inner⟩
    rcases (fails_check _ _ _ _).mp failed with refuses | ⟨c, _, failed⟩
    · exact absurd (compare_error refuses) numeric.not_mismatch
    · exact absurd failed (fails_pure _ _ _)
  | not operand =>
    rcases (fails_bind _ _ _ _).mp failed with inner | ⟨a, later, _, failed⟩
    · exact Or.inl ⟨_, .first r rfl, inner⟩
    rcases (fails_check _ _ _ _).mp failed with refuses | ⟨b, _, failed⟩
    · exact absurd (expectBool_error refuses) numeric.not_mismatch
    · exact absurd failed (fails_pure _ _ _)
  | logic op left right =>
    cases op with
    | and =>
      rcases (fails_bind _ _ _ _).mp failed with inner | ⟨a, middle, given, failed⟩
      · exact Or.inl ⟨_, .first r rfl, inner⟩
      rcases (fails_check _ _ _ _).mp failed with refuses | ⟨b, passes, failed⟩
      · exact absurd (expectBool_error refuses) numeric.not_mismatch
      cases b with
      | true => exact logic_fails_cases rfl given (by cases a <;> cases passes; rfl) numeric failed
      | false => exact absurd failed (fails_pure _ _ _)
    | or =>
      rcases (fails_bind _ _ _ _).mp failed with inner | ⟨a, middle, given, failed⟩
      · exact Or.inl ⟨_, .first r rfl, inner⟩
      rcases (fails_check _ _ _ _).mp failed with refuses | ⟨b, passes, failed⟩
      · exact absurd (expectBool_error refuses) numeric.not_mismatch
      cases b with
      | true => exact absurd failed (fails_pure _ _ _)
      | false => exact logic_fails_cases rfl given (by cases a <;> cases passes; rfl) numeric failed
  -- of the operations on numbers only arithmetic fails with finite operands
  | arithmetic op left right =>
    refine numbers_fail_cases rfl rfl numeric (fun _ => rfl) failed fun x y middle last first second failed => ?_
    rcases Arithmetic.apply_error failed with ⟨rfl, divides, zero⟩ | ⟨rfl, nonfinite⟩
    · exact .zeroDivisor divides first second zero
    · exact .result (.arithmetic op first second) nonfinite
  | negate operand =>
    refine number_fails_cases rfl rfl numeric failed fun x later finite failed => ?_
    rw [fails_lift, finiteResult, Number.neg64_finite finite] at failed
    cases failed
  | random probability =>
    refine number_fails_cases rfl rfl numeric failed fun x later _ failed => ?_
    rcases (fails_bind _ _ _ _).mp failed with drawn | ⟨u, last, _, failed⟩
    · exact fails_modifyGet _ _ _ drawn
    · exact fails_pure _ _ _ failed
  | abs operand => exact number_fails_cases rfl rfl numeric failed fun x later _ => fails_pure _ _ _
  | min left right =>
    exact numbers_fail_cases rfl rfl numeric (fun _ => rfl) failed fun x y middle last _ _ failed =>
      absurd failed (fails_pure _ _ _)
  | max left right =>
    exact numbers_fail_cases rfl rfl numeric (fun _ => rfl) failed fun x y middle last _ _ failed =>
      absurd failed (fails_pure _ _ _)

/-- Evaluation goes from an expression to its parts. -/
theorem Asks.smaller {whole part : Expr × Random} (asks : Asks view whole part) : sizeOf part.1 < sizeOf whole.1 := by
  cases asks with
  | @first e operand others r operands =>
    cases e <;> cases operands <;> simp <;> omega
  | @second e left right r later v operands given on =>
    cases e <;> cases operands <;> simp

/-- Every such failure has come to a fault. The recursion is on the operand that fails. -/
theorem fails_at_fault {e : Expr} {r : Random} {error : EvalError} (failed : Fails (e.eval view) r error)
    (numeric : error.OfNumbers) : ∃ part, Reaches view (e, r) part ∧ Faults view part.1 part.2 error := by
  rcases fails_cases failed numeric with ⟨operand, asks, inner⟩ | fault
  · have smaller := asks.smaller
    obtain ⟨part, reached, fault⟩ := fails_at_fault inner numeric
    exact ⟨part, .head asks reached, fault⟩
  · exact ⟨(e, r), .refl, fault⟩
termination_by sizeOf e

/-- An expression with a kind evaluates to a value of that kind, or it fails because of a zero divisor or a number that
is not finite. So if a condition with the kind of truth values does not hold, then it is false, or evaluation comes to
such a fault. -/
theorem kinds_are_sound (e : Expr) (kind : Kind) (kinded : HasKind e kind) (view : View) (r : Random) :
    ((∃ v later, Gives (e.eval view) r v later ∧ v.kind = kind) ∨
        ∃ error, Fails (e.eval view) r error ∧ (error = .divisionByZero ∨ error = .nonFinite)) ∧
      (kind = .bool → (e.holds view r).1 = false →
        (∃ later, Gives (e.eval view) r (.bool false) later) ∨
          ∃ error part, Fails (e.eval view) r error ∧ (error = .divisionByZero ∨ error = .nonFinite) ∧
            Reaches view (e, r) part ∧ Faults view part.1 part.2 error) := by
  have yields : Yields (·.kind = kind) EvalError.OfNumbers (e.eval view) := kinded_yields kinded
  rcases gives_or_fails (e.eval view) r with ⟨v, later, given⟩ | ⟨error, failed⟩
  · have sort : v.kind = kind := (yields r).1 v later given
    refine ⟨Or.inl ⟨v, later, given, sort⟩, fun truth unheld => Or.inl ⟨later, ?_⟩⟩
    cases v with
    | number x => cases sort.trans truth
    | bool b =>
      rw [holds_of_gives given] at unheld
      cases unheld
      exact given
  · have numeric : error = .divisionByZero ∨ error = .nonFinite := (yields r).2 error failed
    obtain ⟨part, reached, fault⟩ := fails_at_fault failed numeric
    exact ⟨Or.inr ⟨error, failed, numeric⟩, fun _ _ => Or.inr ⟨error, part, failed, numeric, reached, fault⟩⟩

/-- What a pet sees that rests on the screen. -/
def nearView : View :=
  restingView ⟨400.0, 844.0⟩

/-- A hundred divided by the speed is more than five. -/
def isSlow : Expr :=
  .compare .gt (.arithmetic .div (.literal (.number 100.0)) (.attribute .vx)) (.literal (.number 5.0))

/-- The speed of a pet at rest is zero. -/
theorem kinds_are_sound_resting :
    ∃ p, compile "100 / vx > 5" = .ok p ∧ HasKind p.expr .bool ∧
      Fails (p.expr.eval nearView) ⟨1⟩ .divisionByZero ∧ (p.holds nearView ⟨1⟩).1 = false ∧
      ∃ error part, Fails (p.expr.eval nearView) ⟨1⟩ error ∧ (error = .divisionByZero ∨ error = .nonFinite) ∧
        Reaches nearView (p.expr, ⟨1⟩) part ∧ Faults nearView part.1 part.2 error := by
  have compiled : compile "100 / vx > 5" = .ok ⟨"100 / vx > 5", isSlow⟩ := by decide +kernel
  have failed : Fails (isSlow.eval nearView) ⟨1⟩ .divisionByZero := rfl
  have unheld : (isSlow.holds nearView ⟨1⟩).1 = false := by decide +kernel
  refine ⟨_, compiled, by decide, failed, unheld, ?_⟩
  rcases (kinds_are_sound isSlow .bool (by decide) nearView ⟨1⟩).2 rfl unheld with ⟨later, given⟩ | fault
  · exact absurd failed (given.not_fails .divisionByZero)
  · exact fault

end DesktopPet.Condition
