import DesktopPet.Proofs.Condition.Evaluation

/-!
# Conditions without chance

A computation is steady if it neither reads nor changes the state it is given: it is as good as its result. Steady
computations are put together to steady ones (`Steady.bind`, `steady_bind`), and so an expression that asks for no
random number has the same value whatever the generator, and leaves it (`Expr.eval_steady`).
-/

namespace DesktopPet

/-- The computation has the same result in every state, and leaves the state as it is. -/
def Steady {σ α : Type} (x : StateM σ α) : Prop :=
  ∃ a, ∀ s, x s = (a, s)

section

variable {σ α β : Type}

theorem Steady.pure (a : α) : Steady (Pure.pure a : StateM σ α) :=
  ⟨a, fun _ => rfl⟩

theorem Steady.bind {x : StateM σ α} {next : α → StateM σ β} (first : Steady x) (rest : ∀ a, Steady (next a)) :
    Steady (x >>= next) := by
  obtain ⟨a, same⟩ := first
  obtain ⟨b, later⟩ := rest a
  refine ⟨b, fun s => ?_⟩
  change next (x s).1 (x s).2 = (b, s)
  rw [same]
  exact later s

theorem Steady.state {x : StateM σ α} (steady : Steady x) (s : σ) : (x s).2 = s := by
  obtain ⟨a, same⟩ := steady
  rw [same]

end

namespace Condition

/-! ## Evaluations -/

section Draws

variable {α β : Type}

theorem steady_pure (a : α) : Steady (Pure.pure a : Draw α).run :=
  ⟨.ok a, fun _ => rfl⟩

theorem steady_lift (x : Except EvalError α) : Steady (Expr.eval.liftExcept x).run :=
  ⟨x, fun _ => rfl⟩

/-- A failure is as steady as a value. -/
theorem steady_bind {x : Draw α} {next : α → Draw β} (first : Steady x.run) (rest : ∀ a, Steady (next a).run) :
    Steady (x >>= next).run := by
  obtain ⟨result, same⟩ := first
  cases result with
  | ok a =>
    obtain ⟨b, later⟩ := rest a
    refine ⟨b, fun r => ?_⟩
    rw [Draw.run_bind, same]
    exact later r
  | error e =>
    refine ⟨.error e, fun r => ?_⟩
    rw [Draw.run_bind, same]

end Draws

namespace Expr

/-- The expression asks for a random number somewhere. -/
def asksChance : Expr → Bool
  | .random _ | .mathRandom => true
  | .compare _ left right | .logic _ left right | .arithmetic _ left right => left.asksChance || right.asksChance
  | .min left right | .max left right => left.asksChance || right.asksChance
  | .not operand | .negate operand | .abs operand => operand.asksChance
  | .literal _ | .attribute _ | .isOn _ => false

/-- Two operands, one after the other, and what is made of them. -/
theorem steady_operands {x y : Draw Value} {check : Value → Except EvalError Float} {next : Float → Float → Draw Value}
    (left : Steady x.run) (right : Steady y.run) (rest : ∀ a b, Steady (next a b).run) :
    Steady (do
      let a ← x
      let a ← eval.liftExcept (check a)
      let b ← y
      let b ← eval.liftExcept (check b)
      next a b : Draw Value).run :=
  steady_bind left fun _ => steady_bind (steady_lift _) fun a => steady_bind right fun _ =>
    steady_bind (steady_lift _) fun b => rest a b

/-- An expression without chance has one value and leaves the generator. -/
theorem eval_steady (view : View) (e : Expr) (settled : e.asksChance = false) : Steady (e.eval view).run := by
  induction e with
  | literal value => exact steady_pure _
  | «attribute» name => exact steady_pure _
  | isOn border => exact steady_pure _
  | random probability => cases settled
  | mathRandom => cases settled
  | compare op left right ihLeft ihRight =>
    obtain ⟨first, second⟩ := Bool.or_eq_false_iff.mp settled
    rw [eval]
    exact steady_bind (ihLeft first) fun a => steady_bind (ihRight second) fun b =>
      steady_bind (steady_lift _) fun _ => steady_pure _
  | logic op left right ihLeft ihRight =>
    obtain ⟨first, second⟩ := Bool.or_eq_false_iff.mp settled
    have decided : Steady (do
        let b ← right.eval view
        let result ← eval.liftExcept b.expectBool
        Pure.pure (Value.bool result) : Draw Value).run :=
      steady_bind (ihRight second) fun _ => steady_bind (steady_lift _) fun _ => steady_pure _
    cases op with
    | and =>
      rw [eval]
      refine steady_bind (ihLeft first) fun a => steady_bind (steady_lift _) fun holds => ?_
      cases holds with
      | true => exact decided
      | false => exact steady_pure _
    | or =>
      rw [eval]
      refine steady_bind (ihLeft first) fun a => steady_bind (steady_lift _) fun holds => ?_
      cases holds with
      | true => exact steady_pure _
      | false => exact decided
  | not operand ih =>
    rw [eval]
    exact steady_bind (ih settled) fun _ => steady_bind (steady_lift _) fun _ => steady_pure _
  | arithmetic op left right ihLeft ihRight =>
    obtain ⟨first, second⟩ := Bool.or_eq_false_iff.mp settled
    rw [eval]
    exact steady_operands (ihLeft first) (ihRight second) fun _ _ => steady_lift _
  | negate operand ih =>
    rw [eval]
    exact steady_bind (ih settled) fun _ => steady_bind (steady_lift _) fun _ => steady_lift _
  | abs operand ih =>
    rw [eval]
    exact steady_bind (ih settled) fun _ => steady_bind (steady_lift _) fun _ => steady_pure _
  | min left right ihLeft ihRight =>
    obtain ⟨first, second⟩ := Bool.or_eq_false_iff.mp settled
    rw [eval]
    exact steady_operands (ihLeft first) (ihRight second) fun _ _ => steady_pure _
  | max left right ihLeft ihRight =>
    obtain ⟨first, second⟩ := Bool.or_eq_false_iff.mp settled
    rw [eval]
    exact steady_operands (ihLeft first) (ihRight second) fun _ _ => steady_pure _

theorem holds_steady (view : View) (e : Expr) (settled : e.asksChance = false) : Steady (e.holds view) := by
  obtain ⟨result, same⟩ := e.eval_steady view settled
  cases result with
  | error e => exact ⟨false, fun r => by rw [holds, same]⟩
  | ok value =>
    cases value with
    | bool b => exact ⟨b, fun r => by rw [holds, same]⟩
    | number x => exact ⟨false, fun r => by rw [holds, same]⟩

end Expr

end Condition

end DesktopPet
