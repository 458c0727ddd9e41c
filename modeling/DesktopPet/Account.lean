import DesktopPet.Json.Printer
import DesktopPet.Manager

/-!
# Accounts as JSON

The account of a pet as a JSON object, with the names by which other programs know its parts.
-/

namespace DesktopPet

def Vector2.toJson (v : Vector2) : Json :=
  .array [.ofFloat32 v.x, .ofFloat32 v.y]

def Facing.toJson : Facing → Json
  | .left => .ofString "Left"
  | .right => .ofString "Right"

def Mode.toJson : Mode → Json
  | .idle => .ofString "Idle"
  | .dragging => .ofString "Dragging"
  | .thrown => .ofString "Thrown"

def Contact.toJson (c : Contact) : Json :=
  .ofMembers
    [("onFloor", .bool c.onFloor),
     ("onCeiling", .bool c.onCeiling),
     ("onLeftWall", .bool c.onLeftWall),
     ("onRightWall", .bool c.onRightWall),
     ("closeToLeftWall", .bool c.closeToLeftWall),
     ("closeToRightWall", .bool c.closeToRightWall),
     ("rightFloor", .bool c.rightFloor),
     ("leftFloor", .bool c.leftFloor),
     ("rightCeiling", .bool c.rightCeiling),
     ("leftCeiling", .bool c.leftCeiling)]

def Bounds.toJson (b : Bounds) : Json :=
  .ofMembers
    [("left_wall", .ofFloat32 b.left),
     ("right_wall", .ofFloat32 b.right),
     ("ceiling", .ofFloat32 b.ceiling),
     ("floor", .ofFloat32 b.floor)]

def Diagnostics.toJson (d : Diagnostics) : Json :=
  .ofMembers
    [("pet", .ofNat d.pet.number),
     ("pack", .ofString d.pack),
     ("behavior", .ofOption .ofString d.behavior),
     ("action", .ofOption .ofString d.action),
     ("playing", .ofOption .ofString d.playing),
     ("frameIndex", .ofOption .ofNat d.frameIndex),
     ("mode", d.mode.toJson),
     ("facing", d.facing.toJson),
     ("position", d.position.toJson),
     ("velocity", d.velocity.toJson),
     ("flags", d.contact.toJson),
     ("bounds", d.bounds.toJson),
     ("selections", .ofNat d.selections)]

end DesktopPet
