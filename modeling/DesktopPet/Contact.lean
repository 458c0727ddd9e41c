import DesktopPet.Area

/-!
# Contact with the borders

Which lines a pet touches and which walls it is close to. Conditions read these flags, and an action
may demand that its pet touch the floor, a wall or the ceiling.
-/

namespace DesktopPet

/-- What an action may demand its pet to touch. -/
inductive Footing where
  | floor | wall | ceiling
  deriving DecidableEq, Repr

/-- Contact flags; the last four name corners, where two contacts meet. -/
structure Contact where
  onFloor : Bool := false
  onCeiling : Bool := false
  onLeftWall : Bool := false
  onRightWall : Bool := false
  closeToLeftWall : Bool := false
  closeToRightWall : Bool := false
  rightFloor : Bool := false
  leftFloor : Bool := false
  rightCeiling : Bool := false
  leftCeiling : Bool := false
  deriving DecidableEq, Repr

namespace Contact

/-- Pixels by which a pet may miss a line and still touch it. -/
def slack : Float32 := 0.5

/-- The flags with their corners derived from the contacts. -/
def withCorners (c : Contact) : Contact :=
  { c with
    rightFloor := c.onFloor && c.onRightWall
    leftFloor := c.onFloor && c.onLeftWall
    rightCeiling := c.onCeiling && c.onRightWall
    leftCeiling := c.onCeiling && c.onLeftWall }

/-- The flags of a pet. Contact is judged at the edge of the pet that faces the line, closeness to
both walls at its top left corner. -/
def ofRect (position size : Vector2) (area : Area) (closeFraction : Float32) : Contact :=
  let b := area.bounds
  withCorners
    { onFloor := b.floor - slack ≤ position.y + size.y
      onCeiling := position.y ≤ b.ceiling + slack
      onLeftWall := position.x ≤ b.left + slack
      onRightWall := b.right - slack ≤ position.x + size.x
      closeToLeftWall := area.isClose position .leftWall closeFraction
      closeToRightWall := area.isClose position .rightWall closeFraction }

def isOn (c : Contact) : Border → Bool
  | .floor => c.onFloor
  | .ceiling => c.onCeiling
  | .leftWall => c.onLeftWall
  | .rightWall => c.onRightWall

/-- The demand of an action is met; either wall will do for a wall. -/
def satisfies (c : Contact) : Option Footing → Bool
  | none => true
  | some .floor => c.onFloor
  | some .ceiling => c.onCeiling
  | some .wall => c.onLeftWall || c.onRightWall

/-- Abbreviations joined by a slash, or `n` for none. -/
def abbreviate (marks : List (Bool × String)) : String :=
  match (marks.filter (·.1)).map (·.2) with
  | [] => "n"
  | set => "/".intercalate set

/-- A one-line account: what the pet is on and what it is close to. -/
def summary (c : Contact) : String :=
  let on := abbreviate [(c.onFloor, "F"), (c.onCeiling, "C"), (c.onLeftWall, "LW"), (c.onRightWall, "RW")]
  let close := abbreviate [(c.closeToLeftWall, "LW"), (c.closeToRightWall, "RW")]
  "on:" ++ on ++ " , close:" ++ close

end Contact

end DesktopPet
