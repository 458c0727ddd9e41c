import DesktopPet.Condition.Predicate
import Mathlib.Logic.Relation

/-!
# Evaluations and their failures

An evaluation gives a value or fails (`gives_or_fails`), and what it does is put together from what its parts do
(`gives_bind`, `fails_bind`). `Asks` says which operands the evaluation of an expression comes to, and with which
generator; whatever fails there fails the whole (`Reaches.fails`), whatever connectives are around it.
-/

namespace DesktopPet.Condition

/-! ## Computations -/

section Computations

variable {α β : Type}

/-- The run of a computation that goes on with the value of another. -/
theorem Draw.run_bind (x : Draw α) (next : α → Draw β) (r : Random) :
    (x >>= next).run r =
      match x.run r with
      | (.ok a, later) => (next a).run later
      | (.error e, later) => (.error e, later) := by
  unfold ExceptT.run
  simp only [Bind.bind, ExceptT.bind, ExceptT.mk, StateT.bind, ExceptT.bindCont]
  cases x r with
  | mk result later =>
    cases result with
    | ok a => rfl
    | error e => rfl

/-- The computation succeeds with a value, and leaves a generator. -/
def Gives (x : Draw α) (r : Random) (a : α) (later : Random) : Prop :=
  x.run r = (.ok a, later)

/-- The computation fails. -/
def Fails (x : Draw α) (r : Random) (error : EvalError) : Prop :=
  (x.run r).1 = .error error

theorem gives_or_fails (x : Draw α) (r : Random) : (∃ a later, Gives x r a later) ∨ ∃ error, Fails x r error := by
  unfold Gives Fails
  cases x.run r with
  | mk result later =>
    cases result with
    | ok a => exact Or.inl ⟨a, later, rfl⟩
    | error e => exact Or.inr ⟨e, rfl⟩

theorem Gives.not_fails {x : Draw α} {r later : Random} {a : α} (gives : Gives x r a later) (error : EvalError) :
    ¬ Fails x r error := by
  intro fails
  rw [Fails, gives] at fails
  cases fails

theorem gives_pure (a b : α) (r later : Random) : Gives (pure a) r b later ↔ a = b ∧ r = later := by
  change ((.ok a, r) : Except EvalError α × Random) = _ ↔ _
  rw [Prod.mk.injEq, Except.ok.injEq]

theorem fails_pure (a : α) (r : Random) (error : EvalError) : ¬ Fails (pure a) r error :=
  Gives.not_fails ((gives_pure a a r r).mpr ⟨rfl, rfl⟩) error

theorem gives_lift (x : Except EvalError α) (a : α) (r later : Random) :
    Gives (Expr.eval.liftExcept x) r a later ↔ x = .ok a ∧ r = later := by
  change (x, r) = _ ↔ _
  rw [Prod.mk.injEq]

theorem fails_lift (x : Except EvalError α) (r : Random) (error : EvalError) :
    Fails (Expr.eval.liftExcept x) r error ↔ x = .error error :=
  Iff.rfl

private theorem gives_modifyGet (draw : Random → α × Random) (a : α) (r later : Random) :
    Gives (modifyGet draw) r a later ↔ draw r = (a, later) := by
  change ((.ok (draw r).1, (draw r).2) : Except EvalError α × Random) = _ ↔ _
  rw [Prod.mk.injEq, Except.ok.injEq, Prod.ext_iff]

theorem fails_modifyGet (draw : Random → α × Random) (r : Random) (error : EvalError) :
    ¬ Fails (modifyGet draw) r error :=
  Gives.not_fails ((gives_modifyGet draw (draw r).1 r (draw r).2).mpr rfl) error

theorem gives_bind (x : Draw α) (next : α → Draw β) (r last : Random) (b : β) :
    Gives (x >>= next) r b last ↔ ∃ a later, Gives x r a later ∧ Gives (next a) later b last := by
  unfold Gives
  rw [Draw.run_bind]
  cases x.run r with
  | mk result later =>
    cases result with
    | ok a => exact ⟨fun given => ⟨a, later, rfl, given⟩, fun ⟨_, _, same, given⟩ => by cases same; exact given⟩
    | error e => exact ⟨nofun, fun ⟨_, _, same, _⟩ => nomatch same⟩

theorem fails_bind (x : Draw α) (next : α → Draw β) (r : Random) (error : EvalError) :
    Fails (x >>= next) r error ↔
      Fails x r error ∨ ∃ a later, Gives x r a later ∧ Fails (next a) later error := by
  unfold Fails Gives
  rw [Draw.run_bind]
  cases x.run r with
  | mk result later =>
    cases result with
    | ok a =>
      refine ⟨fun failed => Or.inr ⟨a, later, rfl, failed⟩, ?_⟩
      rintro (failed | ⟨_, _, same, failed⟩)
      · cases failed
      · cases same
        exact failed
    | error e =>
      refine ⟨fun failed => Or.inl (by cases failed; rfl), ?_⟩
      rintro (failed | ⟨_, _, same, _⟩)
      · cases failed
        rfl
      · cases same

/-- A check fails, or what goes on with its answer does. -/
theorem fails_check (x : Except EvalError α) (next : α → Draw β) (r : Random) (error : EvalError) :
    Fails (Expr.eval.liftExcept x >>= next) r error ↔ x = .error error ∨ ∃ a, x = .ok a ∧ Fails (next a) r error := by
  rw [fails_bind, fails_lift]
  refine or_congr Iff.rfl ⟨?_, ?_⟩
  · rintro ⟨a, later, checked, failed⟩
    obtain ⟨passed, rfl⟩ := (gives_lift _ _ _ _).mp checked
    exact ⟨a, passed, failed⟩
  · rintro ⟨a, passed, failed⟩
    exact ⟨a, r, (gives_lift _ _ _ _).mpr ⟨passed, rfl⟩, failed⟩

theorem Fails.bind {x : Draw α} {r : Random} {error : EvalError} (failed : Fails x r error) (next : α → Draw β) :
    Fails (x >>= next) r error :=
  (fails_bind x next r error).mpr (Or.inl failed)

theorem Gives.bind_fails {x : Draw α} {next : α → Draw β} {r later : Random} {a : α} {error : EvalError}
    (given : Gives x r a later) (failed : Fails (next a) later error) : Fails (x >>= next) r error :=
  (fails_bind x next r error).mpr (Or.inr ⟨a, later, given, failed⟩)

theorem check_bind_fails {x : Except EvalError α} {next : α → Draw β} {r : Random} {a : α} {error : EvalError}
    (passed : x = .ok a) (failed : Fails (next a) r error) : Fails (Expr.eval.liftExcept x >>= next) r error :=
  (fails_check x next r error).mpr (Or.inr ⟨a, passed, failed⟩)

theorem check_refuses {x : Except EvalError α} {error : EvalError} (refused : x = .error error) (next : α → Draw β)
    (r : Random) : Fails (Expr.eval.liftExcept x >>= next) r error :=
  (fails_check x next r error).mpr (Or.inl refused)

/-! ### What all values and all failures have in common -/

/-- All that a computation may give is of one sort, and so are its failures. -/
def Yields (S : α → Prop) (E : EvalError → Prop) (x : Draw α) : Prop :=
  ∀ r, (∀ a later, Gives x r a later → S a) ∧ ∀ error, Fails x r error → E error

variable {S : α → Prop} {T : β → Prop} {E : EvalError → Prop}

theorem Yields.pure {a : α} (sort : S a) : Yields S E (pure a) := by
  refine fun r => ⟨fun b later given => ?_, fun error failed => absurd failed (fails_pure a r error)⟩
  rw [← ((gives_pure a b r later).mp given).1]
  exact sort

theorem Yields.check {x : Except EvalError α} (passes : ∀ a, x = .ok a → S a)
    (fails : ∀ error, x = .error error → E error) : Yields S E (Expr.eval.liftExcept x) :=
  fun r => ⟨fun a later given => passes a ((gives_lift x a r later).mp given).1, fun error failed => fails error failed⟩

theorem Yields.fail {error : EvalError} (sort : E error) : Yields S E (Expr.eval.liftExcept (.error error)) := by
  refine .check (fun a passes => ?_) fun other refuses => ?_
  · cases passes
  · cases refuses
    exact sort

theorem Yields.draw {draw : Random → α × Random} (sort : ∀ r, S (draw r).1) : Yields S E (modifyGet draw) := by
  refine fun r => ⟨fun a later given => ?_, fun error failed => absurd failed (fails_modifyGet draw r error)⟩
  have drawn := sort r
  rw [(gives_modifyGet draw a r later).mp given] at drawn
  exact drawn

theorem Yields.bind {x : Draw α} {next : α → Draw β} (first : Yields S E x) (rest : ∀ a, S a → Yields T E (next a)) :
    Yields T E (x >>= next) := by
  refine fun r => ⟨fun b last given => ?_, fun error failed => ?_⟩
  · obtain ⟨a, later, before, after⟩ := (gives_bind x next r last b).mp given
    exact (rest a ((first r).1 a later before) later).1 b last after
  · rcases (fails_bind x next r error).mp failed with before | ⟨a, later, before, after⟩
    · exact (first r).2 error before
    · exact (rest a ((first r).1 a later before) later).2 error after

end Computations

/-! ## Operands -/

namespace Expr

/-- The operands of an expression, in the order of their evaluation. -/
def operands : Expr → List Expr
  | .compare _ left right => [left, right]
  | .logic _ left right => [left, right]
  | .arithmetic _ left right => [left, right]
  | .min left right => [left, right]
  | .max left right => [left, right]
  | .not operand => [operand]
  | .negate operand => [operand]
  | .random probability => [probability]
  | .abs operand => [operand]
  | .literal _ => []
  | .attribute _ => []
  | .isOn _ => []
  | .mathRandom => []

/-- After this value of the first operand the second one is evaluated: a connective does so if the first leaves the
result open, and a function of numbers if the first is a finite number. -/
def goesOn : Expr → Value → Bool
  | .compare _ _ _, _ => true
  | .logic .and _ _, v => v = .bool true
  | .logic .or _ _, v => v = .bool false
  | .arithmetic _ _ _, v => v.expectNumber.isOk
  | .min _ _, v => v.expectNumber.isOk
  | .max _ _, v => v.expectNumber.isOk
  | _, _ => false

end Expr

/-- Evaluation with one generator comes to an operand with another. -/
inductive Asks (view : View) : Expr × Random → Expr × Random → Prop where
  | first {e operand : Expr} {others : List Expr} (r : Random) (operands : e.operands = operand :: others) :
      Asks view (e, r) (operand, r)
  | second {e left right : Expr} {r later : Random} {v : Value} (operands : e.operands = [left, right])
      (given : Gives (left.eval view) r v later) (on : e.goesOn v = true) : Asks view (e, r) (right, later)

/-- Evaluation comes to a part of the expression, or to the expression itself. -/
def Reaches (view : View) : Expr × Random → Expr × Random → Prop :=
  Relation.ReflTransGen (Asks view)

variable {view : View}

/-- A first operand that fails makes the expression fail. -/
private theorem first_fails {e operand : Expr} {others : List Expr} (operands : e.operands = operand :: others)
    {r : Random} {error : EvalError} (failed : Fails (operand.eval view) r error) : Fails (e.eval view) r error := by
  cases e with
  | logic op left right =>
    cases operands
    cases op with
    | and => exact failed.bind _
    | or => exact failed.bind _
  | _ =>
    cases operands <;> exact failed.bind _

/-- What a function of numbers does after its first operand, if that is a finite number. -/
theorem numbers_fail {left : Expr} {r later : Random} {v : Value} (given : Gives (left.eval view) r v later)
    (on : v.expectNumber.isOk = true) {next : Float → Draw Value} {error : EvalError}
    (failed : ∀ x, Fails (next x) later error) :
    Fails (left.eval view >>= fun v => Expr.eval.liftExcept v.expectNumber >>= next) r error := by
  apply given.bind_fails
  cases passed : v.expectNumber with
  | ok x => exact check_bind_fails rfl (failed x)
  | error e =>
    rw [passed] at on
    cases on

/-- A second operand that fails makes the expression fail, once evaluation comes to it. -/
private theorem second_fails {e left right : Expr} {r later : Random} {v : Value}
    (operands : e.operands = [left, right]) (given : Gives (left.eval view) r v later) (on : e.goesOn v = true)
    {error : EvalError} (failed : Fails (right.eval view) later error) : Fails (e.eval view) r error := by
  -- what stands between the two operands passes the first value, for evaluation has come to the second
  cases e with
  | compare op _ _ =>
    cases operands
    exact given.bind_fails (failed.bind _)
  | logic op _ _ =>
    cases operands
    cases op with
    | and =>
      cases of_decide_eq_true on
      exact given.bind_fails (check_bind_fails rfl (failed.bind _))
    | or =>
      cases of_decide_eq_true on
      exact given.bind_fails (check_bind_fails rfl (failed.bind _))
  | arithmetic op _ _ =>
    cases operands
    exact numbers_fail given on fun _ => failed.bind _
  | min _ _ =>
    cases operands
    exact numbers_fail given on fun _ => failed.bind _
  | max _ _ =>
    cases operands
    exact numbers_fail given on fun _ => failed.bind _
  | _ => cases operands

theorem Asks.fails {whole part : Expr × Random} (asks : Asks view whole part) {error : EvalError}
    (fails : Fails (part.1.eval view) part.2 error) : Fails (whole.1.eval view) whole.2 error := by
  cases asks with
  | first r operands => exact first_fails operands fails
  | second operands given on => exact second_fails operands given on fails

/-- What fails in a part fails the whole. The induction is on the way down to the part. -/
theorem Reaches.fails {whole part : Expr × Random} (reached : Reaches view whole part) {error : EvalError}
    (fails : Fails (part.1.eval view) part.2 error) : Fails (whole.1.eval view) whole.2 error := by
  induction reached using Relation.ReflTransGen.head_induction_on with
  | refl => exact fails
  | head asks _ below => exact asks.fails below

/-- A condition holds as its truth value says. -/
theorem holds_of_gives {e : Expr} {r later : Random} {b : Bool} (given : Gives (e.eval view) r (.bool b) later) :
    e.holds view r = (b, later) := by
  unfold Gives at given
  rw [Expr.holds, given]

/-- A condition that fails does not hold. -/
theorem Predicate.not_holds {p : Predicate} {r : Random} {error : EvalError}
    (fails : Fails (p.expr.eval view) r error) : (p.holds view r).1 = false := by
  change (p.expr.holds view r).1 = false
  unfold Fails at fails
  rw [Expr.holds]
  generalize (p.expr.eval view).run r = ran at fails
  obtain ⟨result, later⟩ := ran
  cases fails
  rfl

end DesktopPet.Condition
