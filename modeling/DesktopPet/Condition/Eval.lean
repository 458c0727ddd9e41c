import DesktopPet.Body
import DesktopPet.Condition.Expr
import DesktopPet.Contact
import DesktopPet.Number.Binary

/-!
# Evaluating conditions

An expression is evaluated against a `View`, what a pet sees of itself and of the play area, and
draws random numbers only where it asks for them. Evaluation may fail; a condition that fails does
not hold.
-/

namespace DesktopPet.Condition

structure View where
  position : Vector2
  velocity : Vector2
  size : Vector2
  facing : Facing
  contact : Contact
  isDragging : Bool
  isThrown : Bool
  area : Area
  deriving DecidableEq, Repr

/-- The point on which a pet stands: the middle of its lower edge. -/
def anchorPoint (position size : Vector2) : Vector2 :=
  ⟨position.x + size.x * 0.5, position.y + size.y⟩

inductive Kind where
  | number | bool
  deriving DecidableEq, Repr

def Value.kind : Value → Kind
  | .number _ => .number
  | .bool _ => .bool

def Kind.name : Kind → String
  | .number => "number"
  | .bool => "bool"

inductive EvalError where
  | typeMismatch (expected found : Kind)
  | divisionByZero
  | nonFinite
  deriving DecidableEq, Repr

def EvalError.message : EvalError → String
  | .typeMismatch expected found => "type mismatch: expected " ++ expected.name ++ ", found " ++ found.name
  | .divisionByZero => "division by zero"
  | .nonFinite => "non-finite result"

/-- Computations that may fail and draw random numbers; draws made before a failure stay made. -/
abbrev Draw (α : Type) := ExceptT EvalError (StateM Random) α

def View.read (view : View) : Attribute → Value
  | .x => num view.position.x
  | .y => num view.position.y
  | .vx => num view.velocity.x
  | .vy => num view.velocity.y
  | .width => num view.size.x
  | .height => num view.size.y
  | .anchorX => num (anchorPoint view.position view.size).x
  | .anchorY => num (anchorPoint view.position view.size).y
  | .onFloor => .bool view.contact.onFloor
  | .onCeiling => .bool view.contact.onCeiling
  | .onLeftWall => .bool view.contact.onLeftWall
  | .onRightWall => .bool view.contact.onRightWall
  | .closeToLeftWall => .bool view.contact.closeToLeftWall
  | .closeToRightWall => .bool view.contact.closeToRightWall
  | .rightFloor => .bool view.contact.rightFloor
  | .leftFloor => .bool view.contact.leftFloor
  | .rightCeiling => .bool view.contact.rightCeiling
  | .leftCeiling => .bool view.contact.leftCeiling
  | .isDragging => .bool view.isDragging
  | .isThrown => .bool view.isThrown
  | .lookRight => .bool (view.facing = .right)
  | .line border => num (view.area.bounds.line border)
  | .screenWidth => num view.area.width
  | .screenHeight => num view.area.height
  | .workAreaLeft => .number 0.0
  | .workAreaTop => .number 0.0
  | .workAreaRight => num view.area.width
  | .workAreaBottom => num view.area.height
where
  /-- A coordinate as a number of a condition. -/
  num (x : Float32) : Value := .number (Number.widen x)

/-- Two numbers nearer than this are equal. -/
def equalityTolerance : Float := 0.000001

def Comparison.ofNumbers (op : Comparison) (a b : Float) : Bool :=
  match op with
  | .lt => a < b
  | .le => a ≤ b
  | .gt => b < a
  | .ge => b ≤ a
  | .eq => (a - b).abs < equalityTolerance
  | .ne => equalityTolerance ≤ (a - b).abs

/-- The result of comparing two values. Truth values can only be equal or different. -/
def Comparison.apply (op : Comparison) : Value → Value → Except EvalError Bool
  | .number a, .number b => .ok (op.ofNumbers a b)
  | .bool a, .bool b =>
    match op with
    | .eq => .ok (a = b)
    | .ne => .ok (a ≠ b)
    | _ => .error (.typeMismatch .number .bool)
  | .number _, .bool _ => .error (.typeMismatch .number .bool)
  | .bool _, .number _ => .error (.typeMismatch .number .bool)

def Value.expectBool : Value → Except EvalError Bool
  | .bool b => .ok b
  | .number _ => .error (.typeMismatch .bool .number)

def Value.expectNumber : Value → Except EvalError Float
  | .number x => if x.isFinite then .ok x else .error .nonFinite
  | .bool _ => .error (.typeMismatch .number .bool)

def finiteResult (x : Float) : Except EvalError Value :=
  if x.isFinite then .ok (.number x) else .error .nonFinite

/-- The result of an arithmetic operation; a zero of either sign is no divisor. -/
def Arithmetic.apply (op : Arithmetic) (a b : Float) : Except EvalError Value :=
  match op with
  | .add => finiteResult (a + b)
  | .sub => finiteResult (a - b)
  | .mul => finiteResult (a * b)
  | .div => if b == 0.0 then .error .divisionByZero else finiteResult (a / b)
  | .rem => if b == 0.0 then .error .divisionByZero else finiteResult (Number.remainder a b)

/-- A uniform number in `[0, 1)`. -/
def drawUnit : Draw Float :=
  modifyGet Random.unit64

/-- The value of an expression. Operands are evaluated from left to right, and the right operand of
a connective only if the left one leaves the result open. -/
def Expr.eval (view : View) : Expr → Draw Value
  | .literal value => pure value
  | .attribute name => pure (view.read name)
  | .compare op left right => do
    let a ← left.eval view
    let b ← right.eval view
    let result ← liftExcept (op.apply a b)
    pure (.bool result)
  | .logic .and left right => do
    let a ← left.eval view
    if ← liftExcept a.expectBool then
      let b ← right.eval view
      let result ← liftExcept b.expectBool
      pure (.bool result)
    else pure (.bool false)
  | .logic .or left right => do
    let a ← left.eval view
    if ← liftExcept a.expectBool then pure (.bool true)
    else
      let b ← right.eval view
      let result ← liftExcept b.expectBool
      pure (.bool result)
  | .not operand => do
    let a ← operand.eval view
    let b ← liftExcept a.expectBool
    pure (.bool !b)
  | .arithmetic op left right => do
    let a ← left.eval view
    let a ← liftExcept a.expectNumber
    let b ← right.eval view
    let b ← liftExcept b.expectNumber
    liftExcept (op.apply a b)
  | .negate operand => do
    let a ← operand.eval view
    let a ← liftExcept a.expectNumber
    liftExcept (finiteResult (-a))
  | .isOn border => pure (.bool (view.contact.isOn border))
  | .random probability => do
    let p ← probability.eval view
    let p ← liftExcept p.expectNumber
    let u ← drawUnit
    pure (.bool (u < p))
  | .mathRandom => do
    let u ← drawUnit
    pure (.number u)
  | .abs operand => do
    let a ← operand.eval view
    let a ← liftExcept a.expectNumber
    pure (.number a.abs)
  | .min left right => do
    let a ← left.eval view
    let a ← liftExcept a.expectNumber
    let b ← right.eval view
    let b ← liftExcept b.expectNumber
    pure (.number (Number.minimum64 a b))
  | .max left right => do
    let a ← left.eval view
    let a ← liftExcept a.expectNumber
    let b ← right.eval view
    let b ← liftExcept b.expectNumber
    pure (.number (Number.maximum64 a b))
where
  /-- A failure without a draw. -/
  liftExcept {α : Type} (x : Except EvalError α) : Draw α := ExceptT.mk (pure x)

/-- A condition holds if it evaluates to true; failures count as false. -/
def Expr.holds (e : Expr) (view : View) (r : Random) : Bool × Random :=
  match (e.eval view).run r with
  | (.ok (.bool b), r) => (b, r)
  | (_, r) => (false, r)

end DesktopPet.Condition
