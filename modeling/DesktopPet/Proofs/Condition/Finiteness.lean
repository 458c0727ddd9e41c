import DesktopPet.Proofs.Condition.Evaluation
import DesktopPet.Proofs.Number.Draws

/-!
# Numbers that are not finite

What an expression computes is finite, or the computation fails (`computed_yields`); only literals and attributes may
hand on NaN or an infinity. All operations on numbers refuse such an operand, whether it is handed on to them or was
refused where it was computed, and a condition that comes to one of them does not hold (`nonfinite_numbers_falsify`).
Comparisons are the exception: they take a literal or an attribute as it is.
-/

namespace DesktopPet.Condition

/-! ## Checks of numbers -/

theorem expectNumber_ok {v : Value} {x : Float} (passes : v.expectNumber = .ok x) :
    v = .number x ∧ x.isFinite = true := by
  cases v with
  | bool b => cases passes
  | number y =>
    rw [Value.expectNumber] at passes
    split at passes
    next finite =>
      cases passes
      exact ⟨rfl, finite⟩
    · cases passes

theorem expectNumber_nonfinite {x : Float} (nonfinite : x.isFinite = false) :
    (Value.number x).expectNumber = .error .nonFinite := by
  rw [Value.expectNumber, nonfinite]
  rfl

private theorem finiteResult_ok {x : Float} {v : Value} (passes : finiteResult x = .ok v) :
    v = .number x ∧ x.isFinite = true := by
  rw [finiteResult] at passes
  split at passes
  next finite =>
    cases passes
    exact ⟨rfl, finite⟩
  · cases passes

namespace Arithmetic

/-- The result of an operation in floating-point arithmetic, before it is checked. -/
def result (op : Arithmetic) (a b : Float) : Float :=
  match op with
  | .add => a + b
  | .sub => a - b
  | .mul => a * b
  | .div => a / b
  | .rem => Number.remainder a b

/-- The operation divides. -/
def divides (op : Arithmetic) : Bool :=
  op = .div || op = .rem

/-- Every operation first refuses a zero as a divisor, and then a result that is not finite. -/
theorem apply_eq (op : Arithmetic) (a b : Float) :
    op.apply a b = if op.divides && b == 0.0 then .error .divisionByZero else finiteResult (op.result a b) := by
  cases op <;> rfl

private theorem apply_ok {op : Arithmetic} {a b : Float} {v : Value} (passes : op.apply a b = .ok v) :
    ∃ x, v = .number x ∧ x.isFinite = true := by
  rw [apply_eq] at passes
  split at passes
  · cases passes
  · exact ⟨_, finiteResult_ok passes⟩

/-- An operation fails because of a zero divisor, or because of its result. -/
theorem apply_error {op : Arithmetic} {a b : Float} {error : EvalError} (fails : op.apply a b = .error error) :
    (error = .divisionByZero ∧ op.divides = true ∧ (b == 0.0) = true) ∨
      (error = .nonFinite ∧ (op.result a b).isFinite = false) := by
  rw [apply_eq] at fails
  split at fails
  next zero =>
    cases fails
    rw [Bool.and_eq_true] at zero
    exact Or.inl ⟨rfl, zero⟩
  · rw [finiteResult] at fails
    split at fails
    · cases fails
    next nonfinite =>
      cases fails
      exact Or.inr ⟨rfl, Bool.eq_false_iff.mpr nonfinite⟩

private theorem apply_nonfinite {op : Arithmetic} {a b : Float} (nonfinite : (op.result a b).isFinite = false) :
    ∃ error, op.apply a b = .error error ∧ (error = .nonFinite ∨ error = .divisionByZero) := by
  rw [apply_eq, finiteResult, nonfinite]
  split
  · exact ⟨_, rfl, Or.inr rfl⟩
  · exact ⟨_, rfl, Or.inl rfl⟩

end Arithmetic

/-! ## Where such numbers come from -/

namespace Expr

/-- The value is handed on as it is. -/
def isGiven : Expr → Bool
  | .literal _ => true
  | .attribute _ => true
  | _ => false

/-- The expression is a comparison. -/
def isComparison : Expr → Bool
  | .compare _ _ _ => true
  | _ => false

/-- The expression is an operation that checks its operands as numbers: arithmetic, a negation or a call. -/
def checksNumbers : Expr → Bool
  | .arithmetic _ _ _ => true
  | .negate _ => true
  | .random _ => true
  | .abs _ => true
  | .min _ _ => true
  | .max _ _ => true
  | _ => false

/-- The expression has numbers as operands. -/
def takesNumbers (e : Expr) : Bool :=
  e.isComparison || e.checksNumbers

end Expr

variable {view : View}

/-- Evaluation gives the number of an operation to be checked. -/
inductive Computes (view : View) : Expr → Random → Float → Prop where
  | arithmetic (op : Arithmetic) {left right : Expr} {r middle last : Random} {x y : Float}
      (first : Gives (left.eval view) r (.number x) middle) (second : Gives (right.eval view) middle (.number y) last) :
      Computes view (.arithmetic op left right) r (op.result x y)

/-- The number to which evaluation comes: the value, or a result that is still to be checked. -/
def ComesTo (view : View) (e : Expr) (r : Random) (x : Float) : Prop :=
  (∃ later, Gives (e.eval view) r (.number x) later) ∨ Computes view e r x

/-- Numbers among the values are finite. -/
def Value.IsFinite (v : Value) : Prop :=
  ∀ x, v = .number x → x.isFinite = true

theorem Value.number_isFinite {x : Float} (finite : x.isFinite = true) : (Value.number x).IsFinite := by
  intro y same
  cases same
  exact finite

theorem Value.bool_isFinite (b : Bool) : (Value.bool b).IsFinite :=
  nofun

theorem expectNumber_yields (v : Value) :
    Yields (·.isFinite = true) (fun _ => True) (Expr.eval.liftExcept v.expectNumber) :=
  .check (fun _ passes => (expectNumber_ok passes).2) fun _ _ => trivial

/-- What an expression computes is finite; only literals and attributes are handed on. -/
theorem computed_yields {e : Expr} (computed : e.isGiven = false) :
    Yields Value.IsFinite (fun _ => True) (e.eval view) := by
  have anything {α : Type} (x : Draw α) : Yields (fun _ => True) (fun _ => True) x :=
    fun _ => ⟨fun _ _ _ => trivial, fun _ _ => trivial⟩
  have truth {α : Type} {x : Draw α} {f : α → Bool} :
      Yields Value.IsFinite (fun _ => True) (x >>= fun a => pure (.bool (f a))) :=
    (anything x).bind fun _ _ => .pure (Value.bool_isFinite _)
  cases e with
  | literal value => cases computed
  | «attribute» name => cases computed
  | compare op left right =>
    exact (anything _).bind fun _ _ => (anything _).bind fun _ _ => truth
  | logic op left right =>
    cases op with
    | and =>
      refine (anything _).bind fun _ _ => (anything _).bind fun a _ => ?_
      cases a with
      | true => exact (anything _).bind fun _ _ => truth
      | false => exact .pure (Value.bool_isFinite _)
    | or =>
      refine (anything _).bind fun _ _ => (anything _).bind fun a _ => ?_
      cases a with
      | true => exact .pure (Value.bool_isFinite _)
      | false => exact (anything _).bind fun _ _ => truth
  | not operand => exact (anything _).bind fun _ _ => truth
  | arithmetic op left right =>
    refine (anything _).bind fun v _ => (anything _).bind fun x _ => ?_
    refine (anything _).bind fun w _ => (anything _).bind fun y _ => ?_
    refine .check (fun result passes => ?_) fun _ _ => trivial
    obtain ⟨z, rfl, finite⟩ := Arithmetic.apply_ok passes
    exact Value.number_isFinite finite
  | negate operand =>
    refine (anything _).bind fun v _ => (anything _).bind fun x _ => ?_
    refine .check (fun result passes => ?_) fun _ _ => trivial
    obtain ⟨rfl, finite⟩ := finiteResult_ok passes
    exact Value.number_isFinite finite
  | isOn border => exact .pure (Value.bool_isFinite _)
  | random probability =>
    exact (anything _).bind fun _ _ => (anything _).bind fun _ _ => truth
  | mathRandom => exact (Yields.draw Random.unit64_finite).bind fun _ finite => .pure (Value.number_isFinite finite)
  | abs operand =>
    exact (anything _).bind fun v _ => (expectNumber_yields v).bind fun _ finite =>
      .pure (Value.number_isFinite (Number.abs64_finite finite))
  | min left right =>
    refine (anything _).bind fun v _ => (expectNumber_yields v).bind fun _ first => ?_
    refine (anything _).bind fun w _ => (expectNumber_yields w).bind fun _ second => ?_
    exact .pure (Value.number_isFinite (Number.minimum64_finite first second))
  | max left right =>
    refine (anything _).bind fun v _ => (expectNumber_yields v).bind fun _ first => ?_
    refine (anything _).bind fun w _ => (expectNumber_yields w).bind fun _ second => ?_
    exact .pure (Value.number_isFinite (Number.maximum64_finite first second))

/-! ## Such numbers are refused -/

/-- An operation that checks its operands fails when it is handed a number that is not finite. -/
theorem refused {node operand : Expr} {before later last : Random} {x : Float} (checks : node.checksNumbers = true)
    (asked : Asks view (node, before) (operand, later)) (given : Gives (operand.eval view) later (.number x) last)
    (nonfinite : x.isFinite = false) : Fails (node.eval view) before .nonFinite := by
  have refuses {α : Type} (next : Float → Draw α) :
      Fails (operand.eval view >>= fun v => Expr.eval.liftExcept v.expectNumber >>= next) later .nonFinite :=
    given.bind_fails (check_refuses (expectNumber_nonfinite nonfinite) next last)
  cases asked with
  | first r operands =>
    cases node with
    | compare op left right => cases checks
    | logic op left right => cases checks
    | not operand => cases checks
    | _ =>
      cases operands <;> exact refuses _
  | second operands earlier on =>
    cases node with
    | compare op left right => cases checks
    | logic op left right => cases checks
    | arithmetic op left right =>
      cases operands
      exact numbers_fail earlier on fun _ => refuses _
    | min left right =>
      cases operands
      exact numbers_fail earlier on fun _ => refuses _
    | max left right =>
      cases operands
      exact numbers_fail earlier on fun _ => refuses _
    | _ => cases operands

/-- An operation whose result is not finite fails. -/
theorem Computes.fails {e : Expr} {r : Random} {x : Float} (computes : Computes view e r x)
    (nonfinite : x.isFinite = false) :
    ∃ error, Fails (e.eval view) r error ∧ (error = .nonFinite ∨ error = .divisionByZero) := by
  cases computes with
  | @arithmetic op left right r middle last x y first second =>
    cases finite : x.isFinite with
    | false => exact ⟨_, first.bind_fails (check_refuses (expectNumber_nonfinite finite) _ _), Or.inl rfl⟩
    | true =>
      have passes : (Value.number x).expectNumber = .ok x := if_pos finite
      cases finite' : y.isFinite with
      | false =>
        exact ⟨_, first.bind_fails (check_bind_fails passes
          (second.bind_fails (check_refuses (expectNumber_nonfinite finite') _ _))), Or.inl rfl⟩
      | true =>
        have passes' : (Value.number y).expectNumber = .ok y := if_pos finite'
        obtain ⟨error, fails, cause⟩ := op.apply_nonfinite nonfinite
        exact ⟨error, first.bind_fails (check_bind_fails passes
          (second.bind_fails (check_bind_fails passes' fails))), cause⟩

/-- An operand that comes to a number that is not finite makes an operation on numbers fail. -/
theorem nonfinite_fails {node operand : Expr} {before later : Random} {x : Float} (takes : node.takesNumbers = true)
    (asked : Asks view (node, before) (operand, later)) (comes : ComesTo view operand later x)
    (nonfinite : x.isFinite = false) (checked : node.isComparison = true → operand.isGiven = false) :
    ∃ error, Fails (node.eval view) before error ∧ (error = .nonFinite ∨ error = .divisionByZero) := by
  rcases comes with ⟨last, given⟩ | computes
  · cases compares : node.isComparison with
    | false =>
      have checks : node.checksNumbers = true := by rwa [Expr.takesNumbers, compares, Bool.false_or] at takes
      exact ⟨_, refused checks asked given nonfinite, Or.inl rfl⟩
    | true =>
      have finite := (computed_yields (checked compares) later).1 _ last given x rfl
      rw [nonfinite] at finite
      cases finite
  · obtain ⟨error, failed, cause⟩ := computes.fails nonfinite
    exact ⟨error, asked.fails failed, cause⟩

/-- A condition does not hold if its evaluation comes to an operation on numbers, a comparison included, one of whose
operands comes to NaN or an infinity, whatever is around the operation: evaluation fails there. Literals and attributes
are exempt as operands of a comparison. -/
theorem nonfinite_numbers_falsify (p : Predicate) (view : View) (r before later : Random) (node operand : Expr)
    (x : Float) (reached : Reaches view (p.expr, r) (node, before)) (takes : node.takesNumbers = true)
    (asked : Asks view (node, before) (operand, later)) (comes : ComesTo view operand later x)
    (nonfinite : x.isFinite = false) (checked : node.isComparison = true → operand.isGiven = false) :
    (∃ error, Fails (p.expr.eval view) r error ∧ (error = .nonFinite ∨ error = .divisionByZero)) ∧
      (p.holds view r).1 = false := by
  obtain ⟨error, failed, cause⟩ := nonfinite_fails takes asked comes nonfinite checked
  have whole : Fails (p.expr.eval view) r error := reached.fails failed
  exact ⟨⟨error, whole, cause⟩, Predicate.not_holds whole⟩

/-- What a pet at rest sees that touches nothing. -/
def restingView (position : Vector2) : View :=
  { position
    velocity := .zero
    size := ⟨128.0, 128.0⟩
    facing := .left
    contact := {}
    isDragging := false
    isThrown := false
    area := .standard }

/-- What such a pet sees infinitely far to the right. -/
def farView : View :=
  restingView ⟨1.0 / 0.0, 386.0⟩

/-- One more than the abscissa. -/
def nextAbscissa : Expr :=
  .arithmetic .add (.attribute .x) (.literal (.number 1.0))

/-- The sum is refused, and the negation around it changes nothing. -/
theorem nonfinite_numbers_falsify_far :
    ∃ p, compile "!(x + 1 > 5)" = .ok p ∧ (Number.widen farView.position.x).isFinite = false ∧
      (p.holds farView ⟨1⟩).1 = false := by
  have compiled : compile "!(x + 1 > 5)" =
      .ok ⟨"!(x + 1 > 5)", .not (.compare .gt nextAbscissa (.literal (.number 5.0)))⟩ := by decide +kernel
  have infinite : (Number.widen farView.position.x).isFinite = false := by decide +kernel
  have reached : Reaches farView (.not (.compare .gt nextAbscissa (.literal (.number 5.0))), ⟨1⟩) (nextAbscissa, ⟨1⟩) :=
    .tail (.single (.first _ rfl)) (.first _ rfl)
  have read : Gives (Expr.eval farView (.attribute .x)) ⟨1⟩ (.number (Number.widen farView.position.x)) ⟨1⟩ :=
    (gives_pure _ _ _ _).mpr ⟨rfl, rfl⟩
  refine ⟨_, compiled, infinite, ?_⟩
  exact (nonfinite_numbers_falsify _ farView ⟨1⟩ ⟨1⟩ ⟨1⟩ nextAbscissa (.attribute .x) _ reached rfl (.first _ rfl)
    (Or.inl ⟨_, read⟩) infinite nofun).2

/-- A comparison takes the coordinate as it is, and infinity is more than a hundred. -/
theorem infinite_coordinate_compared :
    ∃ p, compile "x > 100" = .ok p ∧ p.expr.takesNumbers = true ∧
      Asks farView (p.expr, ⟨1⟩) (.attribute .x, ⟨1⟩) ∧
      ComesTo farView (.attribute .x) ⟨1⟩ (Number.widen farView.position.x) ∧
      (Number.widen farView.position.x).isFinite = false ∧ (p.holds farView ⟨1⟩).1 = true := by
  have compiled : compile "x > 100" = .ok ⟨"x > 100", .compare .gt (.attribute .x) (.literal (.number 100.0))⟩ := by
    decide +kernel
  exact ⟨_, compiled, rfl, .first _ rfl, Or.inl ⟨_, (gives_pure _ _ _ _).mpr ⟨rfl, rfl⟩⟩, by decide +kernel,
    by decide +kernel⟩

end DesktopPet.Condition
