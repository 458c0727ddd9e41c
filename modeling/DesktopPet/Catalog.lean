import DesktopPet.Condition.Predicate
import DesktopPet.Contact

/-!
# Catalogs

A catalog is the compiled form of a pack: tables of actions and behaviors that refer to each other
by index. Actions say what is shown, behaviors say when an action is chosen.
-/

namespace DesktopPet

open Condition (Predicate)

inductive ActionKind where
  /-- Frames in place. -/
  | stay
  /-- Frames that move the pet. -/
  | move
  /-- Frames in place, usually with sounds. -/
  | animate
  /-- Other actions one after another. -/
  | sequence
  /-- A call of the host, over at once. -/
  | embedded
  deriving DecidableEq, Repr

/-- The kind that a pack names; the case of ASCII letters does not count. -/
def ActionKind.ofName? (name : String) : Option ActionKind :=
  match Text.lowerAscii name with
  | "stay" => some .stay
  | "move" => some .move
  | "animate" => some .animate
  | "sequence" => some .sequence
  | "embedded" => some .embedded
  | _ => none

def ActionKind.loopsByDefault : ActionKind → Bool
  | .stay | .move | .animate => true
  | .sequence | .embedded => false

/-- The footing that a pack names; the case of ASCII letters does not count. -/
def Footing.ofName? (name : String) : Option Footing :=
  match Text.lowerAscii name with
  | "floor" => some .floor
  | "wall" => some .wall
  | "ceiling" => some .ceiling
  | _ => none

structure Frame where
  image : Option String
  /-- Seconds for which the frame is shown. -/
  duration : Float32
  /-- Pixels per tick, authored facing left. -/
  velocity : Vector2
  anchor : Vector2
  sound : Option String
  /-- Linear gain of the sound. -/
  volume : Float32
  deriving DecidableEq, Repr

/-- Frames that play while a condition holds. -/
structure Block where
  condition : Option Predicate
  priority : Int
  frames : List Frame
  deriving DecidableEq, Repr

inductive BlockRef where
  | block (index : Nat)
  | default
  deriving DecidableEq, Repr

structure Action where
  name : String
  kind : ActionKind
  /-- What the pet has to touch. -/
  footing : Option Footing
  blocks : List Block
  /-- Plays while no other block does. -/
  defaultBlock : Option Block
  /-- The children of a sequence. -/
  references : List Nat
  looping : Bool
  draggable : Bool
  /-- Seconds after which the action is over in any case. -/
  duration : Option Float32
  /-- Data for the host. -/
  embedded : List (String × String)
  deriving DecidableEq, Repr

namespace Action

def block? (a : Action) : BlockRef → Option Block
  | .block index => a.blocks[index]?
  | .default => a.defaultBlock

def isEligible (a : Action) (contact : Contact) : Bool :=
  contact.satisfies a.footing

/-- A block without a condition holds; otherwise its condition is asked. -/
def blockHolds {σ : Type} (ask : Predicate → StateM σ Bool) (b : Block) : StateM σ Bool :=
  match b.condition with
  | none => pure true
  | some condition => ask condition

/-- The best of the blocks from `index` on and of the best one so far. A block is asked only if its
priority exceeds that of the best one. -/
def bestBlock {σ : Type} (ask : Predicate → StateM σ Bool) :
    List Block → Nat → Option (Nat × Int) → StateM σ (Option (Nat × Int))
  | [], _, best => pure best
  | b :: rest, index, best =>
    if best.any (fun found => b.priority ≤ found.2) then bestBlock ask rest (index + 1) best
    else do
      let holds ← blockHolds ask b
      bestBlock ask rest (index + 1) (if holds then some (index, b.priority) else best)

/-- The block to play: the first of highest priority among those that hold, else the default
block. -/
def selectBlock {σ : Type} (a : Action) (ask : Predicate → StateM σ Bool) : StateM σ (Option BlockRef) := do
  match ← bestBlock ask a.blocks 0 none with
  | some (index, _) => pure (some (.block index))
  | none => pure (if a.defaultBlock.isSome then some .default else none)

end Action

/-- When an action is chosen. -/
structure Behavior where
  name : String
  /-- Weight in a draw; zero makes a candidate mandatory. -/
  frequency : UInt32
  condition : Option Predicate
  /-- Left out of menus. -/
  hidden : Bool
  action : Nat
  /-- Behaviors that may follow. -/
  next : List Nat
  deriving DecidableEq, Repr

/-- A behavior of frequency zero wins over all others. -/
def Behavior.isMandatory (b : Behavior) : Bool :=
  b.frequency = 0

/-- The tables of one pack. -/
structure Catalog where
  name : String
  actions : List Action
  behaviors : List Behavior
  defaultBehavior : Nat
  /-- Plays while the pet is dragged. -/
  draggedBehavior : Option Nat
  /-- Plays while the pet is thrown. -/
  thrownBehavior : Option Nat
  deriving DecidableEq, Repr

/-- The last index at which a name stands. -/
def lastIndexOf? (name : String) (names : List String) : Option Nat :=
  (names.reverse.findIdx? (· = name)).map fun i => names.length - 1 - i

namespace Catalog

def action? (c : Catalog) (index : Nat) : Option Action :=
  c.actions[index]?

def behavior? (c : Catalog) (index : Nat) : Option Behavior :=
  c.behaviors[index]?

def findAction? (c : Catalog) (name : String) : Option Nat :=
  lastIndexOf? name (c.actions.map (·.name))

def findBehavior? (c : Catalog) (name : String) : Option Nat :=
  lastIndexOf? name (c.behaviors.map (·.name))

def actionOf? (c : Catalog) (behavior : Nat) : Option Action :=
  (c.behavior? behavior).bind fun b => c.action? b.action

def visibleBehaviors (c : Catalog) : List String :=
  (c.behaviors.filter fun b => !b.hidden).map (·.name)

end Catalog

end DesktopPet
