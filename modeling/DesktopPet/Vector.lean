/-!
# Planar vectors

Screen positions, sizes and velocities: `x` grows to the right and `y` grows downward. All
operations work componentwise in binary32.
-/

namespace DesktopPet

structure Vector2 where
  x : Float32
  y : Float32
  deriving DecidableEq, Repr

namespace Vector2

def zero : Vector2 := ⟨0.0, 0.0⟩

instance : Inhabited Vector2 := ⟨zero⟩

instance : Add Vector2 := ⟨fun v w => ⟨v.x + w.x, v.y + w.y⟩⟩

instance : Sub Vector2 := ⟨fun v w => ⟨v.x - w.x, v.y - w.y⟩⟩

def scale (v : Vector2) (factor : Float32) : Vector2 :=
  ⟨v.x * factor, v.y * factor⟩

def divide (v : Vector2) (divisor : Float32) : Vector2 :=
  ⟨v.x / divisor, v.y / divisor⟩

def isFinite (v : Vector2) : Bool :=
  v.x.isFinite && v.y.isFinite

/-- Componentwise numeric equality: zeros of both signs agree, NaN agrees with nothing. -/
def agrees (v w : Vector2) : Bool :=
  v.x == w.x && v.y == w.y

def lengthSquared (v : Vector2) : Float32 :=
  v.x * v.x + v.y * v.y

def length (v : Vector2) : Float32 :=
  v.lengthSquared.sqrt

/-- The vector shortened to `limit` if it is longer: its direction first, then the limit times it. -/
def clampLength (v : Vector2) (limit : Float32) : Vector2 :=
  if limit * limit < v.lengthSquared then
    let direction := v.divide v.lengthSquared.sqrt
    ⟨limit * direction.x, limit * direction.y⟩
  else v

end Vector2

end DesktopPet
