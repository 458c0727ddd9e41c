import DesktopPet.Vector

/-!
# Interaction

A pet is idle, dragged by the pointer, or thrown. A drag may start only when the pet is idle, a throw
only out of a drag, and both end in idleness.
-/

namespace DesktopPet

/-- An action of the pointer at a time in seconds. -/
inductive PointerEvent where
  | down (position : Vector2) (time : Float)
  | move (position : Vector2) (time : Float)
  | up (position : Vector2) (time : Float)
  deriving DecidableEq, Repr

structure Drag where
  /-- The pointer's place within the pet. -/
  grabOffset : Vector2
  pointer : Vector2
  startPosition : Vector2
  startTime : Float
  deriving DecidableEq, Repr

inductive Mode where
  | idle | dragging | thrown
  deriving DecidableEq, Repr

def Mode.canMove : Mode → Mode → Bool
  | .idle, .dragging => true
  | .dragging, .thrown => true
  | .dragging, .idle => true
  | .thrown, .idle => true
  | _, _ => false

/-- The state of the interaction with a pet; a throw counts the seconds it has taken. -/
inductive Interaction where
  | idle
  | dragging (drag : Drag)
  | thrown (timer : Float32)
  deriving DecidableEq, Repr

namespace Interaction

def mode : Interaction → Mode
  | .idle => .idle
  | .dragging _ => .dragging
  | .thrown _ => .thrown

def isIdle (i : Interaction) : Bool := i.mode = .idle

def isDragging (i : Interaction) : Bool := i.mode = .dragging

def isThrown (i : Interaction) : Bool := i.mode = .thrown

/-- Moves to another state; a move that is not allowed changes nothing. -/
def moveTo (i next : Interaction) : Interaction :=
  if i.mode.canMove next.mode then next else i

end Interaction

end DesktopPet
