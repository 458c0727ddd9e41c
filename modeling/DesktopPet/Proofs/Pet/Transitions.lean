import DesktopPet.Pet

/-!
# No transition is refused

`Interaction.moveTo` ignores a move that is not allowed, and none of its callers looks. Here is a step in
which a refusal is a fault that ends everything, and it never happens: `stepStrict_eq`.
-/

namespace DesktopPet

/-- Why a strict tick has no answer. -/
inductive Fault where
  /-- The mode may not change like that. -/
  | refused
  /-- The step that runs has no answer either. -/
  | missing
  deriving DecidableEq, Repr

/-- An answer, or the fault that it is missing. -/
def orMissing {α : Type} : Option α → Except Fault α
  | none => .error .missing
  | some a => .ok a

theorem orMissing_bind {α β : Type} (answer : Option α) (next : α → Option β) :
    orMissing (answer.bind next) = orMissing answer >>= fun a => orMissing (next a) := by
  cases answer with
  | none => rfl
  | some a => rfl

/-- Moves to another state; a move that is not allowed is a fault. -/
def Interaction.moveToStrict (i next : Interaction) : Except Fault Interaction :=
  if i.mode.canMove next.mode then .ok next else .error .refused

namespace Pet

/-! ## The strict pipeline

Each function here is the one of its name in the pipeline that runs, with `moveToStrict` for `moveTo`. -/

def pointerDownStrict (p : Pet) (position : Vector2) (time : Float) : Except Fault Pet :=
  if p.interaction.isIdle && p.isDraggable then do
    let interaction ← p.interaction.moveToStrict (.dragging
      { grabOffset := position - p.body.position
        pointer := position
        startPosition := p.body.position
        startTime := time })
    let grabbed := { p with interaction, body.velocity := .zero }
    return grabbed.lockBehavior p.catalog.draggedBehavior
  else return p

def dropStrict (p : Pet) (bounds : Bounds) : Except Fault Pet := do
  let interaction ← p.interaction.moveToStrict .idle
  let position ← orMissing (bounds.clampRect? p.body.position p.body.size)
  return { p with
    interaction
    body := { p.body with position, velocity := .zero }
    behavior := p.behavior.request .interaction }

def throwStrict (p : Pet) (velocity : Vector2) : Except Fault Pet := do
  let interaction ← p.interaction.moveToStrict (.thrown 0.0)
  let thrown := { p with
    interaction
    body.velocity := velocity
    facing := (Facing.ofMotion? velocity.x).getD p.facing }
  return thrown.lockBehavior p.catalog.thrownBehavior

def pointerUpStrict (p : Pet) (scene : Scene) (position : Vector2) (time : Float) : Except Fault Pet :=
  match p.interaction with
  | .dragging drag =>
    let p := { p with body.position := position - drag.grabOffset }
    let release := Release.ofDrag (p.body.position - drag.startPosition) (time - drag.startTime)
      scene.settings.throwing
    if scene.settings.throwing.minThrowVelocity < release.rawSpeed then p.throwStrict release.velocity
    else p.dropStrict scene.area.bounds
  | _ => .ok p

def applyEventStrict (p : Pet) (scene : Scene) : PointerEvent → Except Fault Pet
  | .down position time => p.pointerDownStrict position time
  | .move position _ => .ok (p.pointerMove position)
  | .up position time => p.pointerUpStrict scene position time

def applyPointerStrict (p : Pet) (scene : Scene) : Except Fault Pet :=
  p.events.foldlM (fun p event => p.applyEventStrict scene event) { p with events := [] }

def flyStrict (p : Pet) (scene : Scene) (timer : Float32) : Except Fault Pet := do
  let (outcome, flight) ← orMissing (Flight.step? { body := p.body, timer } scene.area.bounds
    scene.settings.throwing scene.settings.gravity scene.delta)
  let facing := (Facing.ofMotion? flight.body.velocity.x).getD p.facing
  if outcome = .flying then
    return { p with body := flight.body, facing, interaction := .thrown flight.timer }
  else
    let interaction ← p.interaction.moveToStrict .idle
    return { p with
      body := { flight.body with velocity := .zero }
      facing
      interaction
      behavior := p.behavior.request .interaction }

def moveStrict (p : Pet) (scene : Scene) : Except Fault Pet :=
  match p.interaction with
  | .idle => orMissing (p.walk? scene)
  | .dragging _ => .ok p
  | .thrown timer => p.flyStrict scene timer

/-- One tick of a pet, strictly. -/
def stepStrict (p : Pet) (scene : Scene) : Except Fault (Pet × Output) := do
  let p ← p.applyPointerStrict scene
  let p ← orMissing ((p.refreshContact scene).selectBehavior? scene.area)
  let (p, events) := p.play scene
  let output : Output := ⟨p.soundCues scene.settings events, p.hostCalls events⟩
  let p ← p.moveStrict scene
  return ((p.refreshContact scene).draw, output)

/-! ## It agrees with the pipeline that runs -/

theorem pointerDownStrict_eq (p : Pet) (position : Vector2) (time : Float) :
    p.pointerDownStrict position time = .ok (p.pointerDown position time) := by
  unfold pointerDownStrict pointerDown
  cases mode : p.interaction with
  | idle =>
    cases p.isDraggable with
    | false => rfl
    | true => rfl
  | dragging drag => rfl
  | thrown timer => rfl

theorem dropStrict_eq (p : Pet) (drag : Drag) (bounds : Bounds) (dragged : p.interaction = .dragging drag) :
    p.dropStrict bounds = orMissing (p.drop? bounds) := by
  unfold dropStrict drop?
  rw [dragged]
  cases bounds.clampRect? p.body.position p.body.size with
  | none => rfl
  | some position => rfl

theorem throwStrict_eq (p : Pet) (drag : Drag) (velocity : Vector2) (dragged : p.interaction = .dragging drag) :
    p.throwStrict velocity = .ok (p.throw velocity) := by
  unfold throwStrict throw
  rw [dragged]
  rfl

theorem pointerUpStrict_eq (p : Pet) (scene : Scene) (position : Vector2) (time : Float) :
    p.pointerUpStrict scene position time = orMissing (p.pointerUp? scene position time) := by
  unfold pointerUpStrict pointerUp?
  cases mode : p.interaction with
  | idle => rfl
  | thrown timer => rfl
  | dragging drag =>
    dsimp only
    split
    · exact throwStrict_eq _ drag _ rfl
    · exact dropStrict_eq _ drag _ rfl

theorem applyEventStrict_eq (p : Pet) (scene : Scene) (event : PointerEvent) :
    p.applyEventStrict scene event = orMissing (p.applyEvent? scene event) := by
  cases event with
  | down position time => exact pointerDownStrict_eq p position time
  | move position time => rfl
  | up position time => exact pointerUpStrict_eq p scene position time

theorem applyPointerStrict_eq (p : Pet) (scene : Scene) :
    p.applyPointerStrict scene = orMissing (p.applyPointer? scene) := by
  unfold applyPointerStrict applyPointer?
  -- the pet changes with every event, the events that wait do not
  generalize { p with events := [] } = q
  induction p.events generalizing q with
  | nil => rfl
  | cons event rest ih =>
    rw [List.foldlM_cons, List.foldlM_cons, Option.bind_eq_bind, orMissing_bind, applyEventStrict_eq]
    congr 1
    funext next
    exact ih next

theorem flyStrict_eq (p : Pet) (scene : Scene) (timer since : Float32) (thrown : p.interaction = .thrown since) :
    p.flyStrict scene timer = orMissing (p.fly? scene timer) := by
  unfold flyStrict fly?
  cases Flight.step? { body := p.body, timer } scene.area.bounds scene.settings.throwing scene.settings.gravity
      scene.delta with
  | none => rfl
  | some flown =>
    obtain ⟨outcome, flight⟩ := flown
    rw [thrown]
    cases outcome with
    | flying => rfl
    | settled => rfl
    | timedOut => rfl

theorem moveStrict_eq (p : Pet) (scene : Scene) : p.moveStrict scene = orMissing (p.move? scene) := by
  unfold moveStrict move?
  cases mode : p.interaction with
  | idle => rfl
  | dragging drag => rfl
  | thrown timer => exact flyStrict_eq p scene timer timer mode

theorem stepStrict_eq (p : Pet) (scene : Scene) : p.stepStrict scene = orMissing (p.step? scene) := by
  unfold stepStrict step?
  rw [applyPointerStrict_eq, Option.bind_eq_bind, orMissing_bind]
  congr 1
  funext handled
  rw [orMissing_bind]
  congr 1
  funext chosen
  cases chosen.play scene with
  | mk played events =>
    dsimp only
    rw [orMissing_bind, moveStrict_eq]
    rfl

end Pet

end DesktopPet
