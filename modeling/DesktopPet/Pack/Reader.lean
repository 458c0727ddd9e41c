import DesktopPet.Json.Value
import DesktopPet.Pack.Spec

/-!
# Reading packs

A pack is a JSON text. Each record is an object with known keys, or an array of its fields in order.
Keys that are not known are skipped; a known key that occurs twice, a value of the wrong kind and a
missing field without default make the text no pack.
-/

namespace DesktopPet

namespace Pack

abbrev Reader (α : Type) := Json → Option α

namespace Reader

def text : Reader String
  | .string s => s
  | _ => none

def bool : Reader Bool
  | .bool b => some b
  | _ => none

/-- A binary32 number; whole numbers will do. -/
def float : Reader Float32
  | .number n => n.toFloat32?
  | _ => none

def intBetween (lo hi : Int) : Reader Int
  | .number n => n.toInt?.filter fun i => lo ≤ i && i ≤ hi
  | _ => none

/-- A whole number of 32 bits with sign. -/
def int32 : Reader Int :=
  intBetween (-Int.pow 2 31) (Int.pow 2 31 - 1)

/-- A whole number of 32 bits without sign. -/
def word32 (j : Json) : Option UInt32 :=
  (intBetween 0 (Int.pow 2 32 - 1) j).map fun i => i.toNat.toUInt32

def optional {α : Type} (read : Reader α) : Reader (Option α)
  | .null => some none
  | j => (read j).map some

def list {α : Type} (read : Reader α) : Reader (List α)
  | .array items => items.mapM read
  | _ => none

def vector : Reader Vector2
  | .array [x, y] => do return ⟨← float x, ← float y⟩
  | _ => none

/-- A key with its text put into a table; a later value takes the place of an earlier one. -/
def put (table : List (String × String)) (key value : String) : List (String × String) :=
  if table.any (·.1 = key) then table.map fun entry => if entry.1 = key then (key, value) else entry
  else table ++ [(key, value)]

def table : Reader (List (String × String))
  | .object members => members.foldlM (fun table member => do
      let key ← member.1
      let value ← text member.2
      return put table key value) []
  | _ => none

/-- The fields of a record, in the order of `names`: from an object by their keys, none of which may
occur twice, or from an array by their places. -/
def fields? (names : List String) : Json → Option (List (Option Json))
  | .object members => do
    let keys ← members.mapM (·.1)
    if names.all fun name => keys.count name ≤ 1 then
      return names.map fun name => (members.find? fun member => member.1 = some name).map (·.2)
    else none
  | .array items =>
    if items.length ≤ names.length then
      some ((List.range names.length).map fun i => items[i]?)
    else none
  | _ => none

def required {α : Type} (read : Reader α) : Option Json → Option α
  | none => none
  | some j => read j

def withDefault {α : Type} (default : α) (read : Reader α) : Option Json → Option α
  | none => some default
  | some j => read j

end Reader

open Reader

def FrameSpec.ofJson? (j : Json) : Option FrameSpec := do
  match ← fields? ["image", "duration", "velocity", "anchor", "sound", "volume"] j with
  | [image, duration, velocity, anchor, sound, volume] =>
    return { image := ← withDefault none (optional text) image
             duration := ← withDefault defaultFrameDuration float duration
             velocity := ← withDefault .zero vector velocity
             anchor := ← withDefault .zero vector anchor
             sound := ← withDefault none (optional text) sound
             volume := ← withDefault 0.0 float volume }
  | _ => none

def AnimationSpec.ofJson? (j : Json) : Option AnimationSpec := do
  match ← fields? ["condition", "priority", "frames"] j with
  | [condition, priority, frames] =>
    return { condition := ← withDefault none (optional text) condition
             priority := ← withDefault 0 int32 priority
             frames := ← withDefault [] (list FrameSpec.ofJson?) frames }
  | _ => none

def ActionSpec.ofJson? (j : Json) : Option ActionSpec := do
  match ← fields? ["name", "type", "borderType", "loop", "draggable", "duration", "animations",
      "defaultAnimation", "references", "embedded"] j with
  | [name, kind, borderType, looping, draggable, duration, animations, defaultAnimation, references,
      embedded] =>
    return { name := ← required text name
             kind := ← required text kind
             borderType := ← withDefault none (optional text) borderType
             looping := ← withDefault none (optional bool) looping
             draggable := ← withDefault true bool draggable
             duration := ← withDefault none (optional float) duration
             animations := ← withDefault [] (list AnimationSpec.ofJson?) animations
             defaultAnimation := ← withDefault none (optional AnimationSpec.ofJson?) defaultAnimation
             references := ← withDefault [] (list text) references
             embedded := ← withDefault [] table embedded }
  | _ => none

def BehaviorSpec.ofJson? (j : Json) : Option BehaviorSpec := do
  match ← fields? ["name", "frequency", "condition", "hidden", "action", "next"] j with
  | [name, frequency, condition, hidden, action, next] =>
    return { name := ← required text name
             frequency := ← withDefault 1 word32 frequency
             condition := ← withDefault none (optional text) condition
             hidden := ← withDefault false bool hidden
             action := ← withDefault none (optional text) action
             next := ← withDefault [] (list text) next }
  | _ => none

end Pack

def PackSpec.ofJson? (j : Json) : Option PackSpec := do
  match ← Pack.Reader.fields? ["name", "defaultBehavior", "draggedBehavior", "thrownBehavior", "actions",
      "behaviors"] j with
  | [name, defaultBehavior, draggedBehavior, thrownBehavior, actions, behaviors] =>
    return { name := ← Pack.Reader.withDefault "" Pack.Reader.text name
             defaultBehavior := ← Pack.Reader.withDefault "" Pack.Reader.text defaultBehavior
             draggedBehavior := ← Pack.Reader.withDefault none (Pack.Reader.optional Pack.Reader.text) draggedBehavior
             thrownBehavior := ← Pack.Reader.withDefault none (Pack.Reader.optional Pack.Reader.text) thrownBehavior
             actions := ← Pack.Reader.withDefault [] (Pack.Reader.list Pack.ActionSpec.ofJson?) actions
             behaviors := ← Pack.Reader.withDefault [] (Pack.Reader.list Pack.BehaviorSpec.ofJson?) behaviors }
  | _ => none

def PackSpec.parse? (text : String) : Option PackSpec :=
  (Json.parse? text).bind PackSpec.ofJson?

end DesktopPet
