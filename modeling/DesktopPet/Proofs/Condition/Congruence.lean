import DesktopPet.Proofs.Area.Congruence
import DesktopPet.Proofs.Condition.Evaluation

/-!
# Conditions along a congruence

A condition that is evaluated against the same view draws the same random numbers, fails in the same way, and holds in
both cases or in none (`holds_related`). The induction is on the expression: each constructor is put together from
computations that are `Draws` of one another.
-/

namespace DesktopPet

open Number (Congruence)

/-- Both succeed with related values, or both fail alike. -/
inductive Results {ε α : Type} (S : α → α → Prop) : Except ε α → Except ε α → Prop where
  | ok {a b : α} (related : S a b) : Results S (.ok a) (.ok b)
  | error (e : ε) : Results S (.error e) (.error e)

namespace Condition

/-- The same value. -/
inductive Value.Related (R64 : Float → Float → Prop) : Value → Value → Prop where
  | number {x y : Float} (same : R64 x y) : Value.Related R64 (.number x) (.number y)
  | bool (b : Bool) : Value.Related R64 (.bool b) (.bool b)

/-- The same view of the same area. -/
structure View.Related (R : Float32 → Float32 → Prop) (v w : View) : Prop where
  position : v.position.Related R w.position
  velocity : v.velocity.Related R w.velocity
  size : v.size.Related R w.size
  rest : w = { v with position := w.position, velocity := w.velocity, size := w.size }

/-- Computations with the same draws and related results. -/
def Draws {α : Type} (S : α → α → Prop) (x y : Draw α) : Prop :=
  ∀ r : Random, (x.run r).2 = (y.run r).2 ∧ Results S (x.run r).1 (y.run r).1

section Computations

variable {α β : Type} {S : α → α → Prop} {T : β → β → Prop}

theorem Draws.pure {a b : α} (related : S a b) : Draws S (Pure.pure a) (Pure.pure b) :=
  fun _ => ⟨rfl, .ok related⟩

theorem Draws.lift {x y : Except EvalError α} (results : Results S x y) :
    Draws S (Expr.eval.liftExcept x) (Expr.eval.liftExcept y) :=
  fun _ => ⟨rfl, results⟩

theorem Draws.same (equal : ∀ a, S a a) (x : Draw α) : Draws S x x := by
  intro r
  refine ⟨rfl, ?_⟩
  cases (x.run r).1 with
  | ok a => exact .ok (equal a)
  | error e => exact .error e

theorem Draws.bind {x y : Draw α} {f g : α → Draw β} (first : Draws S x y)
    (next : ∀ a b, S a b → Draws T (f a) (g b)) : Draws T (x >>= f) (y >>= g) := by
  intro r
  obtain ⟨later, results⟩ := first r
  rw [Draw.run_bind, Draw.run_bind]
  generalize x.run r = ran at later results ⊢
  generalize y.run r = ran' at later results ⊢
  obtain ⟨result, after⟩ := ran
  obtain ⟨result', after'⟩ := ran'
  dsimp only at later results ⊢
  subst later
  cases results with
  | ok related => exact next _ _ related _
  | error e => exact ⟨rfl, .error e⟩

end Computations

/-! ## Evaluation -/

section Evaluation

variable {R : Float32 → Float32 → Prop} {R64 : Float → Float → Prop} (cong : Congruence R R64)

include cong

theorem Value.Related.refl (v : Value) : v.Related R64 v := by
  cases v with
  | number x => exact .number (cong.refl64 x)
  | bool b => exact .bool b

theorem View.read_related {v w : View} (views : v.Related R w) (name : Attribute) :
    (v.read name).Related R64 (w.read name) := by
  have number {x y : Float32} (same : R x y) :
      Value.Related R64 (.number (Number.widen x)) (.number (Number.widen y)) :=
    .number (cong.widen same)
  have kept := views.rest
  cases name with
  | x => exact number views.position.x
  | y => exact number views.position.y
  | vx => exact number views.velocity.x
  | vy => exact number views.velocity.y
  | width => exact number views.size.x
  | height => exact number views.size.y
  | anchorX => exact number (cong.add views.position.x (cong.mul views.size.x (cong.refl 0.5)))
  | anchorY => exact number (cong.add views.position.y views.size.y)
  | _ =>
    rw [kept]
    exact Value.Related.refl cong _

theorem Comparison.ofNumbers_related (op : Comparison) {a a' b b' : Float} (left : R64 a a') (right : R64 b b') :
    op.ofNumbers a b = op.ofNumbers a' b' := by
  have distance := cong.abs64 (cong.sub64 left right)
  cases op with
  | lt => exact decide_eq_decide.mpr (cong.lt64 left right)
  | le => exact decide_eq_decide.mpr (cong.le64 left right)
  | gt => exact decide_eq_decide.mpr (cong.lt64 right left)
  | ge => exact decide_eq_decide.mpr (cong.le64 right left)
  | eq => exact decide_eq_decide.mpr (cong.lt64 distance (cong.refl64 _))
  | ne => exact decide_eq_decide.mpr (cong.le64 (cong.refl64 _) distance)

theorem Comparison.apply_related (op : Comparison) {a a' b b' : Value} (left : a.Related R64 a')
    (right : b.Related R64 b') : op.apply a b = op.apply a' b' := by
  cases left with
  | number leftSame =>
    cases right with
    | number rightSame => exact congrArg Except.ok (op.ofNumbers_related cong leftSame rightSame)
    | bool b => rfl
  | bool a =>
    cases right with
    | number rightSame => rfl
    | bool b => rfl

omit cong in
theorem Value.expectBool_related {a a' : Value} (same : a.Related R64 a') : a.expectBool = a'.expectBool := by
  cases same with
  | number same => rfl
  | bool b => rfl

theorem Value.expectNumber_related {a a' : Value} (same : a.Related R64 a') :
    Results R64 a.expectNumber a'.expectNumber := by
  cases same with
  | number same =>
    unfold Value.expectNumber
    dsimp only
    rw [cong.isFinite64 same]
    split
    · exact .ok same
    · exact .error _
  | bool b => exact .error _

theorem finiteResult_related {x y : Float} (same : R64 x y) :
    Results (Value.Related R64) (finiteResult x) (finiteResult y) := by
  unfold finiteResult
  rw [cong.isFinite64 same]
  split
  · exact .ok (.number same)
  · exact .error _

theorem Arithmetic.apply_related (op : Arithmetic) {a a' b b' : Float} (left : R64 a a') (right : R64 b b') :
    Results (Value.Related R64) (op.apply a b) (op.apply a' b') := by
  have divided {x y : Float} (quotients : (b == 0.0) = false → R64 x y) :
      Results (Value.Related R64) (if b == 0.0 then .error .divisionByZero else finiteResult x)
        (if b' == 0.0 then .error .divisionByZero else finiteResult y) := by
    rw [← cong.isZero64 right]
    cases zero : b == 0.0 with
    | true => exact .error _
    | false => exact finiteResult_related cong (quotients zero)
  cases op with
  | add => exact finiteResult_related cong (cong.add64 left right)
  | sub => exact finiteResult_related cong (cong.sub64 left right)
  | mul => exact finiteResult_related cong (cong.mul64 left right)
  | div => exact divided (cong.div64 left right)
  | rem => exact divided fun _ => cong.remainder64 left right

variable {v w : View} (views : v.Related R w)

include views

/-- The same views give the same values, with the same draws. -/
theorem eval_related (e : Expr) : Draws (Value.Related R64) (e.eval v) (e.eval w) := by
  have truth {a a' : Value} (same : a.Related R64 a') :
      Draws Eq (Expr.eval.liftExcept a.expectBool) (Expr.eval.liftExcept a'.expectBool) := by
    rw [Value.expectBool_related same]
    exact .same (fun _ => rfl) _
  have number {a a' : Value} (same : a.Related R64 a') :
      Draws R64 (Expr.eval.liftExcept a.expectNumber) (Expr.eval.liftExcept a'.expectNumber) :=
    .lift (Value.expectNumber_related cong same)
  have unit : Draws Eq drawUnit drawUnit := .same (fun _ => rfl) _
  induction e with
  | literal value => exact .pure (Value.Related.refl cong value)
  | compare op left right first second =>
    refine first.bind fun a a' sameA => second.bind fun b b' sameB => ?_
    rw [Comparison.apply_related cong op sameA sameB]
    refine (Draws.same (S := Eq) (fun _ => rfl) _).bind fun holds _ equal => ?_
    subst equal
    exact .pure (.bool holds)
  | logic op left right first second =>
    cases op with
    | and =>
      refine first.bind fun a a' sameA => (truth sameA).bind fun holds _ equal => ?_
      subst equal
      cases holds with
      | true =>
        refine second.bind fun b b' sameB => (truth sameB).bind fun result _ equal => ?_
        subst equal
        exact .pure (.bool result)
      | false => exact .pure (.bool false)
    | or =>
      refine first.bind fun a a' sameA => (truth sameA).bind fun holds _ equal => ?_
      subst equal
      cases holds with
      | true => exact .pure (.bool true)
      | false =>
        refine second.bind fun b b' sameB => (truth sameB).bind fun result _ equal => ?_
        subst equal
        exact .pure (.bool result)
  | not operand first =>
    refine first.bind fun a a' sameA => (truth sameA).bind fun b _ equal => ?_
    subst equal
    exact .pure (.bool !b)
  | arithmetic op left right first second =>
    exact first.bind fun a a' sameA => (number sameA).bind fun x x' sameX =>
      second.bind fun b b' sameB => (number sameB).bind fun y y' sameY =>
        .lift (Arithmetic.apply_related cong op sameX sameY)
  | negate operand first =>
    exact first.bind fun a a' sameA => (number sameA).bind fun x x' sameX =>
      .lift (finiteResult_related cong (cong.neg64 sameX))
  | isOn border =>
    have kept : w.contact = v.contact := by rw [views.rest]
    rw [Expr.eval, Expr.eval, kept]
    exact .pure (.bool _)
  | random probability first =>
    refine first.bind fun a a' sameA => (number sameA).bind fun x x' sameX => unit.bind fun u _ equal => ?_
    subst equal
    rw [decide_eq_decide.mpr (cong.lt64 (cong.refl64 u) sameX)]
    exact .pure (.bool _)
  | mathRandom =>
    refine unit.bind fun u _ equal => ?_
    subst equal
    exact .pure (.number (cong.refl64 u))
  | abs operand first =>
    exact first.bind fun a a' sameA => (number sameA).bind fun x x' sameX => .pure (.number (cong.abs64 sameX))
  | min left right first second =>
    exact first.bind fun a a' sameA => (number sameA).bind fun x x' sameX =>
      second.bind fun b b' sameB => (number sameB).bind fun y y' sameY => .pure (.number (cong.minimum64 sameX sameY))
  | max left right first second =>
    exact first.bind fun a a' sameA => (number sameA).bind fun x x' sameX =>
      second.bind fun b b' sameB => (number sameB).bind fun y y' sameY => .pure (.number (cong.maximum64 sameX sameY))
  -- what is left is reading from the view
  | _ => exact .pure (View.read_related cong views _)

/-- A condition holds for both views or for neither, and its draws are the same. -/
theorem holds_related (predicate : Predicate) : predicate.holds v = predicate.holds w := by
  funext r
  obtain ⟨later, results⟩ := eval_related cong views predicate.expr r
  unfold Predicate.holds Expr.holds
  generalize (predicate.expr.eval v).run r = ran at later results ⊢
  generalize (predicate.expr.eval w).run r = ran' at later results ⊢
  obtain ⟨result, after⟩ := ran
  obtain ⟨result', after'⟩ := ran'
  dsimp only at later results
  subst later
  cases results with
  | ok related =>
    cases related with
    | number same => rfl
    | bool b => rfl
  | error e => rfl

end Evaluation

end Condition

end DesktopPet
