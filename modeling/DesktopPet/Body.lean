import DesktopPet.Vector

/-!
# Bodies

A pet's body is a rectangle with a velocity, and its sprite faces left or right. Frames are authored
facing left; a pet that faces right shows them mirrored.
-/

namespace DesktopPet

inductive Facing where
  | left | right
  deriving DecidableEq, Repr

namespace Facing

/-- The side of a horizontal motion; none without motion. -/
def ofMotion? (dx : Float32) : Option Facing :=
  if 0.0 < dx then some .right
  else if dx < 0.0 then some .left
  else none

/-- An authored velocity as it appears on the screen. -/
def orient : Facing → Vector2 → Vector2
  | .left, v => v
  | .right, v => ⟨-v.x, v.y⟩

/-- The anchor of a frame as seen on the screen: mirrored within the frame's width. -/
def orientAnchor (facing : Facing) (anchor : Vector2) (width : Float32) : Vector2 :=
  match facing with
  | .left => anchor
  | .right => ⟨width - anchor.x, anchor.y⟩

end Facing

/-- Rectangle and motion of a pet; `position` is the top left corner. -/
structure Body where
  position : Vector2
  velocity : Vector2
  size : Vector2
  deriving DecidableEq, Repr

end DesktopPet
