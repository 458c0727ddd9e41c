import DesktopPet.Pet

/-!
# What the parts of a tick change

Each part of a tick changes some fields of a pet and leaves the others. `step_effect` puts the parts
together: a pet keeps its number and its catalog, and no pointer event waits any more.
-/

namespace DesktopPet.Pet

/-! ## Locks, selection, playback and drawing -/

theorem lockBehavior_effect (p : Pet) (index : Option Nat) :
    ∃ behavior player, p.lockBehavior index = { p with behavior, player } := by
  unfold lockBehavior
  split
  · exact ⟨p.behavior, p.player, rfl⟩
  · split
    · exact ⟨p.behavior, p.player, rfl⟩
    · exact ⟨_, _, rfl⟩

theorem lockBehavior_interaction (p : Pet) (index : Option Nat) :
    (p.lockBehavior index).interaction = p.interaction := by
  obtain ⟨_, _, locked⟩ := lockBehavior_effect p index
  rw [locked]

theorem selectBehavior?_effect (p q : Pet) (area : Area) (selected : p.selectBehavior? area = some q) :
    ∃ behavior player random, q = { p with behavior, player, random } := by
  unfold selectBehavior? at selected
  split at selected
  · cases Option.some.inj selected
    exact ⟨_, p.player, p.random, rfl⟩
  · split at selected
    · cases Option.some.inj selected
      exact ⟨_, _, p.random, rfl⟩
    · split at selected
      · cases Option.some.inj selected
        exact ⟨_, p.player, p.random, rfl⟩
      · obtain ⟨chosen, _, selected⟩ := Option.bind_eq_some_iff.mp selected
        dsimp only at selected
        split at selected
        · cases Option.some.inj selected
          exact ⟨_, p.player, _, rfl⟩
        · cases Option.some.inj selected
          exact ⟨_, _, _, rfl⟩

theorem play_effect (p : Pet) (scene : Scene) :
    ∃ behavior player random, (p.play scene).1 = { p with behavior, player, random } :=
  ⟨_, _, _, rfl⟩

theorem draw_effect (p : Pet) : ∃ picture, p.draw = { p with picture } := by
  unfold draw
  dsimp only
  split
  · exact ⟨p.picture, rfl⟩
  · exact ⟨_, rfl⟩

/-! ## The pointer -/

theorem pointerDown_effect (p : Pet) (position : Vector2) (time : Float) :
    ∃ interaction body behavior player,
      p.pointerDown position time = { p with interaction, body, behavior, player } := by
  unfold pointerDown
  dsimp only
  split
  · obtain ⟨behavior, player, locked⟩ := lockBehavior_effect { p with
      interaction := p.interaction.moveTo (.dragging ⟨position - p.body.position, position, p.body.position, time⟩)
      body.velocity := .zero } p.catalog.draggedBehavior
    exact ⟨_, _, behavior, player, locked⟩
  · exact ⟨p.interaction, p.body, p.behavior, p.player, rfl⟩

theorem pointerMove_effect (p : Pet) (position : Vector2) :
    ∃ interaction body, p.pointerMove position = { p with interaction, body } := by
  unfold pointerMove
  split
  · exact ⟨_, _, rfl⟩
  · exact ⟨p.interaction, p.body, rfl⟩

theorem drop_effect (p q : Pet) (bounds : Bounds) (dropped : p.drop? bounds = some q) :
    ∃ position, bounds.clampRect? p.body.position p.body.size = some position ∧
      q = { p with
        interaction := p.interaction.moveTo .idle
        body := { p.body with position, velocity := .zero }
        behavior := p.behavior.request .interaction } := by
  obtain ⟨position, clamped, same⟩ := Option.bind_eq_some_iff.mp dropped
  exact ⟨position, clamped, (Option.some.inj same).symm⟩

theorem throw_effect (p : Pet) (velocity : Vector2) :
    ∃ body facing behavior player, p.throw velocity =
      { p with interaction := p.interaction.moveTo (.thrown 0.0), body, facing, behavior, player } := by
  obtain ⟨behavior, player, locked⟩ := lockBehavior_effect { p with
    interaction := p.interaction.moveTo (.thrown 0.0)
    body.velocity := velocity
    facing := (Facing.ofMotion? velocity.x).getD p.facing } p.catalog.thrownBehavior
  exact ⟨_, _, behavior, player, locked⟩

theorem pointerUp_effect (p q : Pet) (scene : Scene) (position : Vector2) (time : Float)
    (released : p.pointerUp? scene position time = some q) :
    ∃ interaction body facing behavior player, q = { p with interaction, body, facing, behavior, player } := by
  unfold pointerUp? at released
  split at released
  · dsimp only at released
    split at released
    · cases Option.some.inj released
      obtain ⟨body, facing, behavior, player, thrown⟩ := throw_effect _ _
      exact ⟨_, body, facing, behavior, player, thrown⟩
    · obtain ⟨_, _, rfl⟩ := drop_effect _ _ _ released
      exact ⟨_, _, p.facing, _, p.player, rfl⟩
  · cases Option.some.inj released
    exact ⟨p.interaction, p.body, p.facing, p.behavior, p.player, rfl⟩

/-- A pointer event leaves number, catalog, queue, contact, generator and picture. -/
theorem applyEvent_effect (p q : Pet) (scene : Scene) (event : PointerEvent)
    (applied : p.applyEvent? scene event = some q) :
    ∃ interaction body facing behavior player, q = { p with interaction, body, facing, behavior, player } := by
  cases event with
  | down position time =>
    cases Option.some.inj applied
    obtain ⟨interaction, body, behavior, player, same⟩ := pointerDown_effect p position time
    exact ⟨interaction, body, p.facing, behavior, player, same⟩
  | move position time =>
    cases Option.some.inj applied
    obtain ⟨interaction, body, same⟩ := pointerMove_effect p position
    exact ⟨interaction, body, p.facing, p.behavior, p.player, same⟩
  | up position time => exact pointerUp_effect p q scene position time applied

theorem applyEvents_effect (p q : Pet) (scene : Scene) (events : List PointerEvent)
    (applied : events.foldlM (fun p event => p.applyEvent? scene event) p = some q) :
    ∃ interaction body facing behavior player, q = { p with interaction, body, facing, behavior, player } := by
  induction events generalizing p with
  | nil =>
    cases Option.some.inj applied
    exact ⟨q.interaction, q.body, q.facing, q.behavior, q.player, rfl⟩
  | cons event rest ih =>
    rw [List.foldlM_cons] at applied
    obtain ⟨middle, first, later⟩ := Option.bind_eq_some_iff.mp applied
    obtain ⟨_, _, _, _, _, rfl⟩ := applyEvent_effect p middle scene event first
    obtain ⟨interaction, body, facing, behavior, player, same⟩ := ih _ later
    exact ⟨interaction, body, facing, behavior, player, same⟩

/-! ## Motion -/

theorem move_effect (p q : Pet) (scene : Scene) (moved : p.move? scene = some q) :
    ∃ facing body interaction behavior, q = { p with facing, body, interaction, behavior } := by
  unfold move? at moved
  split at moved
  · obtain ⟨_, _, same⟩ := Option.bind_eq_some_iff.mp moved
    cases Option.some.inj same
    exact ⟨_, _, p.interaction, p.behavior, rfl⟩
  · cases Option.some.inj moved
    exact ⟨p.facing, p.body, p.interaction, p.behavior, rfl⟩
  · obtain ⟨flown, _, same⟩ := Option.bind_eq_some_iff.mp moved
    dsimp only at same
    split at same
    · cases Option.some.inj same
      exact ⟨_, _, _, p.behavior, rfl⟩
    · cases Option.some.inj same
      exact ⟨_, _, _, _, rfl⟩

/-! ## Whole steps -/

/-- The parts of a step: the pointer first, then selection and playback, which leave the mode, and motion
last. -/
theorem step_parts (p q : Pet) (scene : Scene) (output : Output) (stepped : p.step? scene = some (q, output)) :
    ∃ handled played moved, p.applyPointer? scene = some handled ∧
      (∃ contact behavior player random, played = { handled with contact, behavior, player, random }) ∧
      played.move? scene = some moved ∧ ∃ contact picture, q = { moved with contact, picture } := by
  obtain ⟨handled, pointed, stepped⟩ := Option.bind_eq_some_iff.mp stepped
  obtain ⟨chosen, selected, stepped⟩ := Option.bind_eq_some_iff.mp stepped
  obtain ⟨moved, motion, stepped⟩ := Option.bind_eq_some_iff.mp stepped
  have result := (Prod.mk.inj (Option.some.inj stepped)).1
  obtain ⟨_, _, _, picked⟩ := selectBehavior?_effect (handled.refreshContact scene) chosen scene.area selected
  obtain ⟨_, _, _, played⟩ := play_effect chosen scene
  obtain ⟨picture, drawn⟩ := draw_effect (moved.refreshContact scene)
  refine ⟨handled, (chosen.play scene).1, moved, pointed, ?_, motion, ?_⟩
  · rw [played, picked]
    exact ⟨_, _, _, _, rfl⟩
  · rw [← result, drawn]
    exact ⟨_, picture, rfl⟩

/-- A step keeps number and catalog, and it empties the queue. -/
theorem step_effect (p q : Pet) (scene : Scene) (output : Output) (stepped : p.step? scene = some (q, output)) :
    q.id = p.id ∧ q.catalog = p.catalog ∧ q.events = [] := by
  obtain ⟨handled, played, moved, pointed, ⟨_, _, _, _, rfl⟩, motion, _, _, rfl⟩ :=
    step_parts p q scene output stepped
  obtain ⟨_, _, _, _, _, rfl⟩ := applyEvents_effect _ handled scene p.events pointed
  obtain ⟨_, _, _, _, rfl⟩ := move_effect _ moved scene motion
  exact ⟨rfl, rfl, rfl⟩

end DesktopPet.Pet
