import DesktopPet.Proofs.Manager.Delivery
import DesktopPet.Proofs.Pet.Phases

/-!
# Drags

A tick in its parts, as things that happen to one pet (`step_happenings`). Of all that happens to a pet between the
press that grabs it and its release only the moves of the pointer move it (`Grab.Holds.happening`), and none of it has
a part in what the release comes to: that is `Grab.release?`, of the grab, the release and the surroundings then
(`Grab.Holds.release`).
-/

namespace DesktopPet

/-- One thing that happens to a pet: commands reach it, or it goes through a part of a tick. -/
inductive Happening where
  | share (commands : List Command)
  | event (scene : Scene) (event : PointerEvent)
  | contact (scene : Scene)
  | selection (scene : Scene)
  | playback (scene : Scene)
  | motion (scene : Scene)
  | picture
  deriving DecidableEq, Repr

namespace Happening

/-- The release of the pointer. -/
def isRelease : Happening → Bool
  | .event _ (.up _ _) => true
  | _ => false

/-- The pointer or motion; nothing else changes where a pet is, how it moves and what is done with it. -/
def stirs : Happening → Bool
  | .event _ _ => true
  | .motion _ => true
  | _ => false

/-- The parts of a tick behind its pointer events. -/
def parts (scene : Scene) : List Happening :=
  [.contact scene, .selection scene, .playback scene, .motion scene, .contact scene, .picture]

end Happening

namespace Pet

/-- The pet after something has happened to it. -/
def meet? (p : Pet) : Happening → Option Pet
  | .share commands => some { p.withShare commands with events := [] }
  | .event scene event => p.applyEvent? scene event
  | .contact scene => some (p.refreshContact scene)
  | .selection scene => p.selectBehavior? scene.area
  | .playback scene => some (p.play scene).1
  | .motion scene => p.move? scene
  | .picture => some p.draw

/-- All that happens to a pet in a tick for which commands wait. -/
def happenings (p : Pet) (commands : List Command) (scene : Scene) : List Happening :=
  .share commands :: (p.withShare commands).events.map (.event scene) ++ Happening.parts scene

/-- What does not stir a pet leaves interaction, body and facing. -/
theorem meet_calm {p q : Pet} {h : Happening} (met : p.meet? h = some q) (calm : h.stirs = false) :
    q.interaction = p.interaction ∧ q.body = p.body ∧ q.facing = p.facing := by
  cases h with
  | event scene event => cases calm
  | motion scene => cases calm
  | selection scene =>
    obtain ⟨_, _, _, rfl⟩ := selectBehavior?_effect p q scene.area met
    exact ⟨rfl, rfl, rfl⟩
  | picture =>
    obtain ⟨_, drawn⟩ := draw_effect p
    cases Option.some.inj met
    rw [drawn]
    exact ⟨rfl, rfl, rfl⟩
  | _ =>
    cases Option.some.inj met
    exact ⟨rfl, rfl, rfl⟩

theorem parts_happen (p : Pet) (scene : Scene) :
    (Happening.parts scene).foldlM meet? p = (p.selected? scene).bind fun chosen =>
      ((chosen.play scene).1.move? scene).map fun moved => (moved.refreshContact scene).draw := by
  simp only [Happening.parts, List.foldlM_cons, List.foldlM_nil, meet?, Option.bind_eq_bind, Option.bind_some,
    selected?]
  congr 1
  funext chosen
  cases (chosen.play scene).1.move? scene with
  | none => rfl
  | some moved => rfl

private theorem events_happen (p : Pet) (scene : Scene) (events : List PointerEvent) :
    (events.map (.event scene)).foldlM meet? p = events.foldlM (fun p event => p.applyEvent? scene event) p := by
  rw [List.foldlM_map]
  rfl

/-- A step leads to where all that happens in it leads. -/
theorem step_happenings (p q : Pet) (commands : List Command) (scene : Scene) (output : Output)
    (stepped : (p.withShare commands).step? scene = some (q, output)) :
    (p.happenings commands scene).foldlM meet? p = some q := by
  obtain ⟨handled, chosen, moved, pointed, selection, motion, rfl, _⟩ := step_phases _ q scene output stepped
  have first : p.meet? (.share commands) = some { p.withShare commands with events := [] } := rfl
  have parts := parts_happen handled scene
  rw [selection, Option.bind_some, motion, Option.map_some] at parts
  rw [applyPointer?, ← events_happen] at pointed
  rw [happenings, List.foldlM_append, List.foldlM_cons, first]
  simp only [Option.bind_eq_bind, Option.bind_some]
  rw [pointed, Option.bind_some, parts]

end Pet

/-! ## Grabs and releases -/

/-- A grab: where and when the pointer was pressed, and where and what the pet was then. -/
structure Grab where
  pointer : Vector2
  time : Float
  position : Vector2
  size : Vector2
  facing : Facing
  deriving DecidableEq, Repr

/-- What is seen of a pet right after its release. -/
structure Released where
  mode : Mode
  velocity : Vector2
  facing : Facing
  position : Vector2
  deriving DecidableEq, Repr

/-- The grab of a pet by the pointer. -/
def Pet.grab (p : Pet) (pointer : Vector2) (time : Float) : Grab :=
  { pointer, time, position := p.body.position, size := p.body.size, facing := p.facing }

def Pet.released (p : Pet) : Released :=
  { mode := p.interaction.mode, velocity := p.body.velocity, facing := p.facing, position := p.body.position }

namespace Grab

/-- The place of the pointer within the pet. -/
def offset (g : Grab) : Vector2 :=
  g.pointer - g.position

/-- What a release comes to: a fast drag throws the pet, any other lets it go within the bounds. -/
def release? (g : Grab) (pointer : Vector2) (time : Float) (throwing : ThrowSettings) (bounds : Bounds) :
    Option Released :=
  let position := pointer - g.offset
  let release := Release.ofDrag (position - g.position) (time - g.time) throwing
  if throwing.minThrowVelocity < release.rawSpeed then
    some { mode := .thrown
           velocity := release.velocity
           facing := (Facing.ofMotion? release.velocity.x).getD g.facing
           position }
  else
    (bounds.clampRect? position g.size).map fun position =>
      { mode := .idle, velocity := .zero, facing := g.facing, position }

/-- The body of a grabbed pet after something has happened to it: the moves of the pointer move it, and nothing else
does. -/
def carry (g : Grab) (body : Body) : Happening → Body
  | .event _ (.move pointer _) => { body with position := pointer - g.offset }
  | _ => body

/-- The pet is held by a grab. -/
structure Holds (g : Grab) (p : Pet) : Prop where
  dragged : ∃ pointer, p.interaction =
    .dragging { grabOffset := g.offset, pointer, startPosition := g.position, startTime := g.time }
  size : p.body.size = g.size
  facing : p.facing = g.facing

variable {g : Grab} {p : Pet}

theorem Holds.mode (held : g.Holds p) : p.interaction.mode = .dragging := by
  obtain ⟨_, dragged⟩ := held.dragged
  rw [dragged]
  rfl

/-- What leaves interaction, body and facing leaves the grab. -/
theorem Holds.keep (held : g.Holds p) {q : Pet} (interaction : q.interaction = p.interaction)
    (body : q.body = p.body) (facing : q.facing = p.facing) : g.Holds q where
  dragged := by rw [interaction]; exact held.dragged
  size := by rw [body, held.size]
  facing := by rw [facing, held.facing]

/-- A pet that accepts the press is held. -/
theorem holds_of_press (idle : p.interaction = .idle) (draggable : p.isDraggable = true) (pointer : Vector2)
    (time : Float) :
    (p.grab pointer time).Holds (p.pointerDown pointer time) ∧
      (p.pointerDown pointer time).body = { p.body with velocity := .zero } := by
  have accepted : p.interaction.isIdle = true := by rw [idle]; rfl
  rw [Pet.pointerDown]
  simp only [accepted, draggable, Bool.and_self, ↓reduceIte]
  obtain ⟨_, _, locked⟩ := Pet.lockBehavior_effect _ p.catalog.draggedBehavior
  rw [locked, idle]
  exact ⟨⟨⟨pointer, rfl⟩, rfl, rfl⟩, rfl⟩

/-- One case for each thing that can happen: as long as the pet is held, all but a release leaves it so. -/
theorem Holds.happening (held : g.Holds p) (h : Happening) (kept : h.isRelease = false) :
    ∃ q, p.meet? h = some q ∧ g.Holds q ∧ q.body = g.carry p.body h := by
  obtain ⟨pointer, dragged⟩ := held.dragged
  have busy : p.interaction.isIdle = false := by rw [dragged]; rfl
  have calmly {q : Pet} (met : p.meet? h = some q) (calm : h.stirs = false) (uncarried : g.carry p.body h = p.body) :
      ∃ q, p.meet? h = some q ∧ g.Holds q ∧ q.body = g.carry p.body h := by
    obtain ⟨interaction, body, facing⟩ := Pet.meet_calm met calm
    exact ⟨q, met, held.keep interaction body facing, body.trans uncarried.symm⟩
  cases h with
  | event scene event =>
    cases event with
    | down position time =>
      have ignored : p.pointerDown position time = p := by simp [Pet.pointerDown, busy]
      exact ⟨p, congrArg some ignored, held, rfl⟩
    | move position time =>
      have moved : p.pointerMove position = { p with
          interaction := .dragging
            { grabOffset := g.offset, pointer := position, startPosition := g.position, startTime := g.time }
          body.position := position - g.offset } := by
        rw [Pet.pointerMove, dragged]
      exact ⟨_, congrArg some moved, ⟨⟨position, rfl⟩, held.size, held.facing⟩, rfl⟩
    | up position time => cases kept
  | motion scene =>
    have still : p.move? scene = some p := by rw [Pet.move?, dragged]
    exact ⟨p, still, held, rfl⟩
  | selection scene => exact calmly (Pet.selectBehavior?_barred busy scene.area) rfl rfl
  | _ => exact calmly rfl rfl rfl

/-- By induction, the pet is held through all that happens before its release. -/
theorem Holds.happenings (held : g.Holds p) (events : List Happening) (kept : ∀ h ∈ events, h.isRelease = false) :
    ∃ q, events.foldlM Pet.meet? p = some q ∧ g.Holds q := by
  induction events generalizing p with
  | nil => exact ⟨p, rfl, held⟩
  | cons h rest ih =>
    obtain ⟨middle, first, holds, _⟩ := held.happening h (kept h List.mem_cons_self)
    obtain ⟨q, later, lasting⟩ := ih holds fun other member => kept other (List.mem_cons_of_mem _ member)
    exact ⟨q, by rw [List.foldlM_cons, first]; exact later, lasting⟩

private theorem throw_released (drag : Drag) (velocity : Vector2) (dragged : p.interaction = .dragging drag) :
    (p.throw velocity).released =
      { mode := .thrown
        velocity
        facing := (Facing.ofMotion? velocity.x).getD p.facing
        position := p.body.position } := by
  rw [Pet.throw_dragged p drag velocity dragged]
  obtain ⟨_, _, locked⟩ := Pet.lockBehavior_effect { p with
    interaction := .thrown 0.0
    body := { p.body with velocity }
    facing := (Facing.ofMotion? velocity.x).getD p.facing } p.catalog.thrownBehavior
  rw [locked]
  rfl

private theorem drop_released (drag : Drag) (bounds : Bounds) (dragged : p.interaction = .dragging drag) :
    (p.drop? bounds).map Pet.released =
      (bounds.clampRect? p.body.position p.body.size).map fun position =>
        { mode := .idle, velocity := .zero, facing := p.facing, position } := by
  rw [Pet.drop?, dragged]
  cases bounds.clampRect? p.body.position p.body.size with
  | none => rfl
  | some position => rfl

/-- Of a pet that is held a release sees the grab and nothing else. -/
theorem Holds.release (held : g.Holds p) (scene : Scene) (pointer : Vector2) (time : Float) :
    (p.applyEvent? scene (.up pointer time)).map Pet.released =
      g.release? pointer time scene.settings.throwing scene.area.bounds := by
  obtain ⟨_, dragged⟩ := held.dragged
  rw [Pet.applyEvent?, Pet.pointerUp?, dragged, release?]
  dsimp only
  split
  · rw [Option.map_some, throw_released _ _ rfl, held.facing]
  · rw [drop_released _ _ rfl, held.size, held.facing]

end Grab

end DesktopPet
