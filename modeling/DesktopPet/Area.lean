import DesktopPet.Number.Binary
import DesktopPet.Random
import DesktopPet.Vector

/-!
# The play area

Four lines bound the part of the screen in which pets live: floor, ceiling, left wall and right
wall. They follow from the screen size and from margins in percent, each measured inward from its
own edge. Margins that cross leave a span of zero, so walls and floor never change sides.
-/

namespace DesktopPet

open Number

inductive Border where
  | floor | ceiling | leftWall | rightWall
  deriving DecidableEq, Repr

/-- The names by which conditions call a line. -/
def Border.ofName? : String → Option Border
  | "floor" | "Floor" | "bottom" => some .floor
  | "ceiling" | "Ceiling" | "top" => some .ceiling
  | "leftWall" | "left_wall" | "LeftWall" | "left" => some .leftWall
  | "rightWall" | "right_wall" | "RightWall" | "right" => some .rightWall
  | _ => none

/-- Distances of the lines from their screen edges, in percent of the screen size. -/
structure Margins where
  floor : Float32 := 10.0
  ceiling : Float32 := 10.0
  left : Float32 := 10.0
  right : Float32 := 10.0
  deriving DecidableEq, Repr

def Margins.agrees (m n : Margins) : Bool :=
  m.floor == n.floor && m.ceiling == n.ceiling && m.left == n.left && m.right == n.right

/-- The lines in pixels: an abscissa for each wall, an ordinate for floor and ceiling. -/
structure Bounds where
  left : Float32
  right : Float32
  ceiling : Float32
  floor : Float32
  deriving DecidableEq, Repr

namespace Bounds

def width (b : Bounds) : Float32 :=
  positivePart (b.right - b.left)

def height (b : Bounds) : Float32 :=
  positivePart (b.floor - b.ceiling)

def line (b : Bounds) : Border → Float32
  | .floor => b.floor
  | .ceiling => b.ceiling
  | .leftWall => b.left
  | .rightWall => b.right

/-- The largest abscissa at which a pet of this size keeps off the right wall; the left wall wins
when the pet is too wide. -/
def maxX (b : Bounds) (size : Vector2) : Float32 :=
  maximum (b.right - size.x) b.left

/-- The largest ordinate at which a pet of this size stays above the floor; the ceiling wins when
the pet is too tall. -/
def maxY (b : Bounds) (size : Vector2) : Float32 :=
  maximum (b.floor - size.y) b.ceiling

/-- The top left corner moved so that the rectangle stays inside. There is no answer when the left
wall or the ceiling is NaN, for then there is no interval to move it to. -/
def clampRect? (b : Bounds) (corner size : Vector2) : Option Vector2 :=
  if b.left ≤ b.maxX size ∧ b.ceiling ≤ b.maxY size then
    some ⟨clamp b.left (b.maxX size) corner.x, clamp b.ceiling (b.maxY size) corner.y⟩
  else none

end Bounds

/-- The lines of a screen. A margin outside `0 … 100` counts as the nearer end. -/
def Margins.bounds (m : Margins) (width height : Float32) : Bounds :=
  let part (percent : Float32) : Float32 := clamp 0.0 100.0 percent / 100.0
  let left := width * part m.left
  let ceiling := height * part m.ceiling
  { left, right := maximum (width * (1.0 - part m.right)) left
    ceiling, floor := maximum (height * (1.0 - part m.floor)) ceiling }

/-- A screen with its margins and the lines that follow from them. -/
structure Area where
  width : Float32
  height : Float32
  margins : Margins
  bounds : Bounds
  deriving DecidableEq, Repr

namespace Area

def ofScreen (width height : Float32) (margins : Margins) : Area :=
  { width, height, margins, bounds := margins.bounds width height }

/-- A screen of 1920 by 1080 pixels with margins of ten percent. -/
def standard : Area :=
  ofScreen 1920.0 1080.0 {}

/-- The same screen with other margins. -/
def withMargins (a : Area) (margins : Margins) : Area :=
  { a with margins, bounds := margins.bounds a.width a.height }

def resize (a : Area) (width height : Float32) : Area :=
  { a with width, height, bounds := a.margins.bounds width height }

/-- The point lies on the inner side of a line or on it. -/
def isWithin (a : Area) (p : Vector2) : Border → Bool
  | .floor => p.y ≤ a.bounds.floor
  | .ceiling => a.bounds.ceiling ≤ p.y
  | .leftWall => a.bounds.left ≤ p.x
  | .rightWall => p.x ≤ a.bounds.right

def contains (a : Area) (p : Vector2) : Bool :=
  a.isWithin p .floor && a.isWithin p .ceiling && a.isWithin p .leftWall && a.isWithin p .rightWall

/-- The point is beyond a line, or nearer to it than `fraction` of the span across it. A negative
fraction counts as zero. -/
def isClose (a : Area) (p : Vector2) (border : Border) (fraction : Float32) : Bool :=
  let reach := positivePart fraction
  let b := a.bounds
  match border with
  | .leftWall => p.x ≤ b.left + b.width * reach
  | .rightWall => b.right - b.width * reach ≤ p.x
  | .ceiling => p.y ≤ b.ceiling + b.height * reach
  | .floor => b.floor - b.height * reach ≤ p.y

/-- A random coordinate between two ends, or `otherwise`, without a draw, when they leave no room. -/
def drawBetween (lo hi otherwise : Float32) (r : Random) : Float32 × Random :=
  if lo < hi then
    let (u, r) := r.unit32
    (lo + u * (hi - lo), r)
  else (otherwise, r)

/-- A random corner for a new pet, `inset` pixels away from every line. Where the area is too small
for that, the corner of the area takes the place of the draw. -/
def spawnPosition (a : Area) (size : Vector2) (inset : Float32) (r : Random) : Vector2 × Random :=
  let b := a.bounds
  let (x, r) := drawBetween (b.left + inset) (b.right - size.x - inset) b.left r
  let (y, r) := drawBetween (b.ceiling + inset) (b.floor - size.y - inset) b.ceiling r
  (⟨x, y⟩, r)

end Area

end DesktopPet
