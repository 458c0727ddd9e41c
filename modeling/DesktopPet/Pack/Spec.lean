import DesktopPet.Vector

/-!
# Packs as authored

The records of a pack before compilation: everything is a name, and nothing has been checked.
-/

namespace DesktopPet

namespace Pack

/-- Seconds for which a frame is shown unless it says otherwise. -/
def defaultFrameDuration : Float32 := 0.1

structure FrameSpec where
  image : Option String := none
  duration : Float32 := defaultFrameDuration
  velocity : Vector2 := .zero
  anchor : Vector2 := .zero
  sound : Option String := none
  /-- Decibels. -/
  volume : Float32 := 0.0
  deriving DecidableEq, Repr

structure AnimationSpec where
  condition : Option String := none
  priority : Int := 0
  frames : List FrameSpec := []
  deriving DecidableEq, Repr

structure ActionSpec where
  name : String
  kind : String
  borderType : Option String := none
  looping : Option Bool := none
  draggable : Bool := true
  duration : Option Float32 := none
  animations : List AnimationSpec := []
  defaultAnimation : Option AnimationSpec := none
  references : List String := []
  embedded : List (String × String) := []
  deriving DecidableEq, Repr

structure BehaviorSpec where
  name : String
  frequency : UInt32 := 1
  condition : Option String := none
  hidden : Bool := false
  /-- The action of the behavior's own name unless given. -/
  action : Option String := none
  next : List String := []
  deriving DecidableEq, Repr

end Pack

structure PackSpec where
  name : String := ""
  defaultBehavior : String := ""
  draggedBehavior : Option String := none
  thrownBehavior : Option String := none
  actions : List Pack.ActionSpec := []
  behaviors : List Pack.BehaviorSpec := []
  deriving DecidableEq, Repr

end DesktopPet
