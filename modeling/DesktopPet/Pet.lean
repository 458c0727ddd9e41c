import DesktopPet.Motion
import DesktopPet.Selection

/-!
# Pets

A pet brings together its catalog, body, contact, interaction, behavior, playback, random numbers and
what is to be drawn of it. The functions here are the parts of one tick for one pet; each sees the
shared surroundings, and none sees another pet.
-/

namespace DesktopPet

open Condition (View)

/-- The number by which a pet is known; numbers are never given twice. -/
structure PetId where
  number : Nat
  deriving DecidableEq, Repr

def PetId.display (id : PetId) : String :=
  "pet#" ++ toString id.number

structure Picture where
  image : Option String
  anchor : Vector2
  flip : Bool
  position : Vector2
  size : Vector2
  deriving DecidableEq, Repr

def Picture.agrees (p q : Picture) : Bool :=
  p.image = q.image && p.anchor.agrees q.anchor && p.flip = q.flip && p.position.agrees q.position &&
    p.size.agrees q.size

inductive Request where
  | pointer (event : PointerEvent)
  | trigger (behavior : String)
  deriving DecidableEq, Repr

/-- A request with its address. -/
structure Command where
  pet : PetId
  request : Request
  deriving DecidableEq, Repr

/-- The surroundings that all pets of a tick share. -/
structure Scene where
  area : Area
  settings : Settings
  /-- Seconds since the last tick. -/
  delta : Float32
  deriving DecidableEq, Repr

structure SoundCue where
  pet : PetId
  sound : String
  volume : Float32
  deriving DecidableEq, Repr

/-- A call of the host, with the data of its action. -/
structure HostCall where
  pet : PetId
  action : String
  data : List (String × String)
  deriving DecidableEq, Repr

structure Pet where
  id : PetId
  catalog : Catalog
  body : Body
  facing : Facing
  contact : Contact
  interaction : Interaction
  /-- Pointer events that wait for the next tick, oldest first. -/
  events : List PointerEvent
  behavior : BehaviorState
  player : Player
  random : Random
  picture : Picture
  deriving DecidableEq, Repr

namespace Pet

def view (p : Pet) (area : Area) : View :=
  { position := p.body.position
    velocity := p.body.velocity
    size := p.body.size
    facing := p.facing
    contact := p.contact
    isDragging := p.interaction.isDragging
    isThrown := p.interaction.isThrown
    area }

/-! ## Commands and the pointer -/

/-- Takes in a command if it is for this pet. Pointer events queue up, and of triggers the last one
counts. -/
def receive (p : Pet) (command : Command) : Pet :=
  if command.pet = p.id then
    match command.request with
    | .pointer event => { p with events := p.events ++ [event] }
    | .trigger name => { p with behavior.trigger := some name }
  else p

def receiveAll (p : Pet) (commands : List Command) : Pet :=
  commands.foldl receive p

/-- Takes up the behavior of an interaction, if the catalog has one. -/
def lockBehavior (p : Pet) (behavior : Option Nat) : Pet :=
  match behavior with
  | none => p
  | some index =>
    match p.catalog.behavior? index with
    | none => p
    | some found =>
      { p with behavior := p.behavior.set index, player := Player.start found.action p.catalog }

def isDraggable (p : Pet) : Bool :=
  (p.player.action.bind p.catalog.action?).all (·.draggable)

/-- A press of the pointer grabs an idle pet. -/
def pointerDown (p : Pet) (position : Vector2) (time : Float) : Pet :=
  if p.interaction.isIdle && p.isDraggable then
    let drag : Drag :=
      { grabOffset := position - p.body.position
        pointer := position
        startPosition := p.body.position
        startTime := time }
    let grabbed := { p with interaction := p.interaction.moveTo (.dragging drag), body.velocity := .zero }
    grabbed.lockBehavior p.catalog.draggedBehavior
  else p

/-- A move of the pointer takes a dragged pet along. -/
def pointerMove (p : Pet) (position : Vector2) : Pet :=
  match p.interaction with
  | .dragging drag =>
    { p with
      interaction := .dragging { drag with pointer := position }
      body.position := position - drag.grabOffset }
  | _ => p

/-- Lets a pet go where it is, within the bounds. -/
def drop? (p : Pet) (bounds : Bounds) : Option Pet := do
  let position ← bounds.clampRect? p.body.position p.body.size
  return { p with
    interaction := p.interaction.moveTo .idle
    body := { p.body with position, velocity := .zero }
    behavior := p.behavior.request .interaction }

def throw (p : Pet) (velocity : Vector2) : Pet :=
  let thrown := { p with
    interaction := p.interaction.moveTo (.thrown 0.0)
    body.velocity := velocity
    facing := (Facing.ofMotion? velocity.x).getD p.facing }
  thrown.lockBehavior p.catalog.thrownBehavior

/-- A release of the pointer throws a dragged pet if the drag was fast, and drops it otherwise. -/
def pointerUp? (p : Pet) (scene : Scene) (position : Vector2) (time : Float) : Option Pet :=
  match p.interaction with
  | .dragging drag =>
    let p := { p with body.position := position - drag.grabOffset }
    let release := Release.ofDrag (p.body.position - drag.startPosition) (time - drag.startTime)
      scene.settings.throwing
    if scene.settings.throwing.minThrowVelocity < release.rawSpeed then some (p.throw release.velocity)
    else p.drop? scene.area.bounds
  | _ => some p

def applyEvent? (p : Pet) (scene : Scene) : PointerEvent → Option Pet
  | .down position time => some (p.pointerDown position time)
  | .move position _ => some (p.pointerMove position)
  | .up position time => p.pointerUp? scene position time

def applyPointer? (p : Pet) (scene : Scene) : Option Pet :=
  p.events.foldlM (fun p event => p.applyEvent? scene event) { p with events := [] }

/-! ## Contact, behavior and playback -/

def refreshContact (p : Pet) (scene : Scene) : Pet :=
  { p with
    contact := Contact.ofRect p.body.position p.body.size scene.area scene.settings.closeThreshold }

/-- Starts a behavior, or the default one if there is no such behavior. -/
def startBehavior (p : Pet) (index : Nat) : Pet :=
  let index := p.catalog.orDefault index
  { p with behavior := p.behavior.set index, player := p.catalog.playerOf index }

/-- The contact does not suit the action, or the child of a sequence that is playing. -/
def isMisplaced (p : Pet) : Bool :=
  [p.player.action, p.player.leafAction?].any fun index =>
    (index.bind p.catalog.action?).any fun action => !action.isEligible p.contact

/-- Why the pet wants a new behavior, if it does. -/
def wants? (p : Pet) : Option Reselect :=
  match p.behavior.current, p.behavior.reselect with
  | none, _ => some .initial
  | some _, some reason => some reason
  | some _, none => if p.isMisplaced then some .borderIneligible else none

/-- The behavior chosen for a reason, with the generator after the choice: a follower if the last
behavior has run its course and a follower will do, else one of all. -/
def choose? (p : Pet) (area : Area) (reason : Reselect) : Option (Nat × Random) :=
  let view := p.view area
  let (follower, random) :=
    match reason, p.behavior.current with
    | .terminal, some current => p.catalog.selectChained view current p.random
    | _, _ => (none, p.random)
  match follower with
  | some index => some (index, random)
  | none => p.catalog.selectNext? view random

/-- Gives the pet a new behavior if it is idle and one is triggered or wanted. A trigger is used up in
any case. A pet that is only misplaced, and for which nothing else is chosen, goes on. -/
def selectBehavior? (p : Pet) (area : Area) : Option Pet :=
  let q := { p with behavior.trigger := none }
  if !p.interaction.isIdle then some q
  else
    match p.behavior.trigger with
    | some name => some (q.startBehavior ((p.catalog.findBehavior? name).getD p.catalog.defaultBehavior))
    | none =>
      match p.wants? with
      | none => some q
      | some reason => do
        let (chosen, random) ← p.choose? area reason
        let q := { q with random }
        if reason = .borderIneligible ∧ p.behavior.current = some chosen then
          return { q with behavior.reselect := none }
        else return q.startBehavior chosen

def soundCues (p : Pet) (settings : Settings) (events : PlayEvents) : List SoundCue :=
  if settings.soundEnabled then
    events.sounds.map fun (sound, volume) => ⟨p.id, sound, volume * settings.soundVolume⟩
  else []

def hostCalls (p : Pet) (events : PlayEvents) : List HostCall :=
  events.embedded.filterMap fun index =>
    (p.catalog.action? index).map fun action => ⟨p.id, action.name, action.embedded⟩

/-- Plays on. The end of an action asks for a new behavior, but only of an idle pet. -/
def play (p : Pet) (scene : Scene) : Pet × PlayEvents :=
  let view := p.view scene.area
  let ((result, events, player), random) :=
    p.player.advance p.catalog (fun predicate => predicate.holds view) scene.delta p.random
  let behavior :=
    if result = .completedTerminal ∧ p.interaction.isIdle then p.behavior.request .terminal else p.behavior
  ({ p with player, random, behavior }, events)

/-! ## Motion and drawing -/

/-- The side to which a pet looks after a step: it turns around at a wall that cut the step short. -/
def turn (facing : Facing) (delta target reached : Vector2) : Facing :=
  if delta.x < 0.0 ∧ target.x < reached.x then .right
  else if 0.0 < delta.x ∧ reached.x < target.x then .left
  else facing

/-- Walks an idle pet by the velocity of its frame, within the bounds. -/
def walk? (p : Pet) (scene : Scene) : Option Pet := do
  let delta := walk (p.player.frameVelocity p.catalog) p.facing scene.delta scene.settings.tickRate
  let target := p.body.position + delta
  let reached ← scene.area.bounds.clampRect? target p.body.size
  let velocity :=
    if 0.0 < scene.delta then (reached - p.body.position).divide scene.delta else .zero
  return { p with
    facing := turn p.facing delta target reached
    body := { p.body with position := reached, velocity } }

/-- Lets a thrown pet fly on. The end of the flight asks for a new behavior. -/
def fly? (p : Pet) (scene : Scene) (timer : Float32) : Option Pet := do
  let (outcome, flight) ← Flight.step? { body := p.body, timer } scene.area.bounds scene.settings.throwing
    scene.settings.gravity scene.delta
  let facing := (Facing.ofMotion? flight.body.velocity.x).getD p.facing
  if outcome = .flying then
    return { p with body := flight.body, facing, interaction := .thrown flight.timer }
  else
    return { p with
      body := { flight.body with velocity := .zero }
      facing
      interaction := p.interaction.moveTo .idle
      behavior := p.behavior.request .interaction }

/-- Moves the pet by its mode. The pointer moves a dragged pet, and nothing else does. -/
def move? (p : Pet) (scene : Scene) : Option Pet :=
  match p.interaction with
  | .idle => p.walk? scene
  | .dragging _ => some p
  | .thrown timer => p.fly? scene timer

/-- Renews the picture. Without a frame, or with a frame without an image, the last image stays; a
picture that would only change in the sign of a zero stays as it is. -/
def draw (p : Pet) : Pet :=
  let shown := p.player.currentFrame? p.catalog
  let next : Picture :=
    { image := (shown.bind (·.image)).or p.picture.image
      anchor := (shown.map fun frame => p.facing.orientAnchor frame.anchor p.body.size.x).getD p.picture.anchor
      flip := p.facing = .right
      position := p.body.position
      size := p.body.size }
  if next.agrees p.picture then p else { p with picture := next }

/-- What a pet contributes to the report of a tick. -/
structure Output where
  sounds : List SoundCue
  calls : List HostCall
  deriving DecidableEq, Repr

/-- One tick of a pet that has taken in its commands: pointer, contact, behavior, playback, motion,
contact again, and the picture. There is no answer when the bounds leave no interval, or when weights
that a choice adds up overflow. -/
def step? (p : Pet) (scene : Scene) : Option (Pet × Output) := do
  let p ← p.applyPointer? scene
  let p ← (p.refreshContact scene).selectBehavior? scene.area
  let (p, events) := p.play scene
  let output : Output := ⟨p.soundCues scene.settings events, p.hostCalls events⟩
  let p ← p.move? scene
  return ((p.refreshContact scene).draw, output)

end Pet

end DesktopPet
