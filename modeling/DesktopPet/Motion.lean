import DesktopPet.Body
import DesktopPet.Interaction
import DesktopPet.Settings

/-!
# Motion

How pets move: walking by the velocity of the frame that is shown, and flying after a throw, with
gravity, bounces that lose energy, and a landing.
-/

namespace DesktopPet

/-- The velocity of a release: its speed as it was, and the velocity within the limit. -/
structure Release where
  rawSpeed : Float32
  velocity : Vector2
  deriving DecidableEq, Repr

/-- The velocity of a drag over a displacement within some seconds. A drag without a usable duration
is judged by its displacement alone. -/
def Release.ofDrag (displacement : Vector2) (elapsed : Float) (t : ThrowSettings) : Release :=
  let timed :=
    if 0.0 < elapsed ∧ elapsed.isFinite then
      let v := (displacement.divide (Number.narrow elapsed)).scale t.timeMultiplier
      if v.isFinite then some v else none
    else none
  let raw := timed.getD (displacement.scale t.fallbackMultiplier)
  let raw := if raw.isFinite then raw else .zero
  { rawSpeed := raw.length, velocity := raw.clampLength (Number.positivePart t.maxVelocity) }

/-- The way a frame velocity moves a pet in `dt` seconds; frame velocities are per tick. -/
def walk (frameVelocity : Vector2) (facing : Facing) (dt tickRate : Float32) : Vector2 :=
  ((facing.orient frameVelocity).scale dt).scale tickRate

inductive FlightOutcome where
  | flying
  /-- At rest on the floor. -/
  | settled
  /-- At the end of the time for a throw. -/
  | timedOut
  deriving DecidableEq, Repr

structure Flight where
  body : Body
  timer : Float32
  deriving DecidableEq, Repr

namespace Flight

def bounceLeft (b : Body) (bounds : Bounds) (loss : Float32) : Body :=
  if b.position.x < bounds.left then
    { b with position.x := bounds.left, velocity.x := b.velocity.x.abs * loss }
  else b

def bounceRight (b : Body) (bounds : Bounds) (loss : Float32) : Body :=
  if bounds.right < b.position.x + b.size.x then
    { b with position.x := bounds.right - b.size.x, velocity.x := -b.velocity.x.abs * loss }
  else b

def bounceCeiling (b : Body) (bounds : Bounds) (loss : Float32) : Body :=
  if b.position.y < bounds.ceiling then
    { b with position.y := bounds.ceiling, velocity.y := b.velocity.y.abs * loss }
  else b

def reachesFloor (b : Body) (bounds : Bounds) : Bool :=
  bounds.floor ≤ b.position.y + b.size.y

/-- Bounces off the floor. A bounce weaker than one step of gravity is none. -/
def bounceFloor (b : Body) (bounds : Bounds) (loss gravityStep : Float32) : Body :=
  if reachesFloor b bounds then
    let rebound := b.velocity.y.abs * loss
    { b with
      position.y := bounds.floor - b.size.y
      velocity.x := b.velocity.x * loss
      velocity.y := if rebound ≤ gravityStep.abs then 0.0 else -rebound }
  else b

/-- Flies on for `dt` seconds. There is no answer when the bounds leave no interval. -/
def step? (f : Flight) (bounds : Bounds) (t : ThrowSettings) (gravity dt : Float32) :
    Option (FlightOutcome × Flight) := do
  let gravityStep := gravity * t.gravityMultiplier * dt
  let velocity : Vector2 := ⟨f.body.velocity.x, f.body.velocity.y + gravityStep⟩
  let moved := { f.body with velocity, position := f.body.position + velocity.scale dt }
  let timer := f.timer + dt
  let loss := t.bounceEnergyLoss
  let aloft := bounceCeiling (bounceRight (bounceLeft moved bounds loss) bounds loss) bounds loss
  let landed := reachesFloor aloft bounds
  let body := bounceFloor aloft bounds loss gravityStep
  let position ← bounds.clampRect? body.position body.size
  let body := { body with position }
  let outcome :=
    if t.throwDuration ≤ timer then .timedOut
    else if landed && body.velocity.length < t.settleVelocity then .settled
    else .flying
  return (outcome, { body, timer })

end Flight

end DesktopPet
