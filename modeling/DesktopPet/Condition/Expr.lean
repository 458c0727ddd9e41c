import DesktopPet.Area

/-!
# Condition expressions

Packs gate behaviors and animation blocks by conditions over the pet and its surroundings. This
module holds their abstract syntax; names are already resolved in it.
-/

namespace DesktopPet.Condition

inductive Value where
  | number (x : Float)
  | bool (b : Bool)
  deriving DecidableEq, Repr

/-- What a condition can read of the pet and of the screen. -/
inductive Attribute where
  | x | y | vx | vy | width | height | anchorX | anchorY
  | onFloor | onCeiling | onLeftWall | onRightWall
  | closeToLeftWall | closeToRightWall
  | rightFloor | leftFloor | rightCeiling | leftCeiling
  | isDragging | isThrown | lookRight
  | line (border : Border)
  | screenWidth | screenHeight
  | workAreaLeft | workAreaRight | workAreaTop | workAreaBottom
  deriving DecidableEq, Repr

inductive Comparison where
  | lt | le | gt | ge | eq | ne
  deriving DecidableEq, Repr

inductive Connective where
  | and | or
  deriving DecidableEq, Repr

inductive Arithmetic where
  | add | sub | mul | div | rem
  deriving DecidableEq, Repr

/-- Functions of numbers: a biased coin, a uniform draw, and the usual three. -/
inductive Function where
  | random | mathRandom | abs | min | max
  deriving DecidableEq, Repr

inductive Expr where
  | literal (value : Value)
  | attribute (name : Attribute)
  | compare (op : Comparison) (left right : Expr)
  | logic (op : Connective) (left right : Expr)
  | not (operand : Expr)
  | arithmetic (op : Arithmetic) (left right : Expr)
  | negate (operand : Expr)
  /-- Contact with a line. -/
  | isOn (border : Border)
  /-- True with the given probability, drawn anew each time. -/
  | random (probability : Expr)
  /-- A number in `[0, 1)`, drawn anew each time. -/
  | mathRandom
  | abs (operand : Expr)
  | min (left right : Expr)
  | max (left right : Expr)
  deriving DecidableEq, Repr

end DesktopPet.Condition
