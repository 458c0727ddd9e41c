import DesktopPet.Proofs.Pet.Effects

/-!
# The phases of a step

A step with each of its phases in the open: pointer events, selection, playback, motion. For each phase one
statement says all that it can do to a pet (`applyEvent_cases`, `selectBehavior?_cases`, `play_cases`,
`move_cases`). What all phases keep the step keeps (`Lasting.step`), and what it puts out bears the number of
its pet (`step_output`).
-/

namespace DesktopPet.Pet

/-! ## The pointer -/

/-- A lock is in vain, or it starts the behavior. -/
theorem lockBehavior_cases (p : Pet) (role : Option Nat) :
    ((∀ index, role = some index → p.catalog.behavior? index = none) ∧ p.lockBehavior role = p) ∨
      ∃ index found, role = some index ∧ p.catalog.behavior? index = some found ∧
        p.lockBehavior role =
          { p with behavior := p.behavior.set index, player := Player.start found.action p.catalog } := by
  unfold lockBehavior
  cases role with
  | none => exact Or.inl ⟨nofun, rfl⟩
  | some index =>
    cases there : p.catalog.behavior? index with
    | none =>
      refine Or.inl ⟨fun other same => ?_, by simp only [there]⟩
      rw [← Option.some.inj same]
      exact there
    | some found => exact Or.inr ⟨index, found, rfl, there, by simp only [there]⟩

theorem lockBehavior_catalog (p : Pet) (role : Option Nat) : (p.lockBehavior role).catalog = p.catalog := by
  obtain ⟨_, _, locked⟩ := lockBehavior_effect p role
  rw [locked]

/-- All that a pointer event can do to a pet. -/
inductive EventEffect (p : Pet) (event : PointerEvent) : Pet → Prop where
  | ignored : EventEffect p event p
  | grabbed (drag : Drag) (body : Body) (idle : p.interaction = .idle)
      (pressed : ∃ position time, event = .down position time) :
      EventEffect p event (lockBehavior { p with interaction := .dragging drag, body } p.catalog.draggedBehavior)
  | carried (before drag : Drag) (body : Body) (dragged : p.interaction = .dragging before) :
      EventEffect p event { p with interaction := .dragging drag, body }
  | thrown (drag : Drag) (body : Body) (facing : Facing) (dragged : p.interaction = .dragging drag)
      (released : ∃ position time, event = .up position time) :
      EventEffect p event (lockBehavior { p with interaction := .thrown 0.0, body, facing } p.catalog.thrownBehavior)
  | dropped (drag : Drag) (body : Body) (dragged : p.interaction = .dragging drag)
      (released : ∃ position time, event = .up position time) :
      EventEffect p event { p with interaction := .idle, body, behavior := p.behavior.request .interaction }

theorem EventEffect.catalog {p q : Pet} {event : PointerEvent} (effect : p.EventEffect event q) :
    q.catalog = p.catalog := by
  cases effect with
  | grabbed _ _ _ _ => exact lockBehavior_catalog _ _
  | thrown _ _ _ _ _ => exact lockBehavior_catalog _ _
  | _ => rfl

theorem pointerDown_cases (p : Pet) (position : Vector2) (time : Float) :
    p.EventEffect (.down position time) (p.pointerDown position time) := by
  unfold pointerDown
  split
  next grabs =>
    cases mode : p.interaction with
    | idle => exact .grabbed _ _ mode ⟨position, time, rfl⟩
    | dragging drag => simp [mode, Interaction.isIdle, Interaction.mode] at grabs
    | thrown timer => simp [mode, Interaction.isIdle, Interaction.mode] at grabs
  · exact .ignored

theorem pointerMove_cases (p : Pet) (position : Vector2) (time : Float) :
    p.EventEffect (.move position time) (p.pointerMove position) := by
  unfold pointerMove
  split
  next drag dragged => exact .carried drag _ _ dragged
  · exact .ignored

theorem throw_dragged (p : Pet) (drag : Drag) (velocity : Vector2) (dragged : p.interaction = .dragging drag) :
    p.throw velocity = lockBehavior { p with
      interaction := .thrown 0.0
      body := { p.body with velocity }
      facing := (Facing.ofMotion? velocity.x).getD p.facing } p.catalog.thrownBehavior := by
  unfold throw
  simp only [dragged]
  rfl

theorem pointerUp_cases (p q : Pet) (scene : Scene) (position : Vector2) (time : Float)
    (released : p.pointerUp? scene position time = some q) : p.EventEffect (.up position time) q := by
  unfold pointerUp? at released
  split at released
  next drag dragged =>
    dsimp only at released
    split at released
    · cases Option.some.inj released
      rw [throw_dragged { p with body.position := position - drag.grabOffset } drag _ dragged]
      exact .thrown drag _ _ dragged ⟨position, time, rfl⟩
    · obtain ⟨place, _, rfl⟩ := drop_effect _ _ _ released
      simp only [dragged]
      exact .dropped drag _ dragged ⟨position, time, rfl⟩
  · cases Option.some.inj released
    exact .ignored

theorem applyEvent_cases (p q : Pet) (scene : Scene) (event : PointerEvent)
    (applied : p.applyEvent? scene event = some q) : p.EventEffect event q := by
  cases event with
  | down position time =>
    cases Option.some.inj applied
    exact pointerDown_cases p position time
  | move position time =>
    cases Option.some.inj applied
    exact pointerMove_cases p position time
  | up position time => exact pointerUp_cases p q scene position time applied

/-- What becomes of a pet that is not dragged: nothing, unless the press of the pointer finds it idle. -/
theorem EventEffect.undragged {p q : Pet} {event : PointerEvent} (effect : p.EventEffect event q)
    (free : p.interaction.mode ≠ .dragging) :
    q = p ∨ p.interaction.mode = .idle ∧ q.interaction.mode = .dragging := by
  cases effect with
  | ignored => exact Or.inl rfl
  | grabbed drag body idle pressed =>
    refine Or.inr ⟨congrArg Interaction.mode idle, ?_⟩
    rw [lockBehavior_interaction]
    rfl
  | carried before drag body dragged => exact absurd (congrArg Interaction.mode dragged) free
  | thrown drag body facing dragged released => exact absurd (congrArg Interaction.mode dragged) free
  | dropped drag body dragged released => exact absurd (congrArg Interaction.mode dragged) free

/-! ## Selection -/

/-- All that selection can do to a pet. -/
inductive Selection (p : Pet) (area : Area) : Pet → Prop where
  | barred (busy : p.interaction.isIdle = false) : Selection p area { p with behavior.trigger := none }
  | triggered (name : String) (idle : p.interaction.isIdle = true) (asked : p.behavior.trigger = some name) :
      Selection p area
        ({ p with behavior.trigger := none }.startBehavior
          ((p.catalog.findBehavior? name).getD p.catalog.defaultBehavior))
  | content (idle : p.interaction.isIdle = true) (unasked : p.behavior.trigger = none) (wants : p.wants? = none) :
      Selection p area { p with behavior.trigger := none }
  | confirmed (index : Nat) (random : Random) (idle : p.interaction.isIdle = true)
      (unasked : p.behavior.trigger = none) (wants : p.wants? = some .borderIneligible)
      (choice : p.choose? area .borderIneligible = some (index, random)) (same : p.behavior.current = some index) :
      Selection p area { p with random, behavior := { p.behavior with trigger := none, reselect := none } }
  | chosen (reason : Reselect) (index : Nat) (random : Random) (idle : p.interaction.isIdle = true)
      (unasked : p.behavior.trigger = none) (wants : p.wants? = some reason)
      (choice : p.choose? area reason = some (index, random))
      (another : ¬ (reason = .borderIneligible ∧ p.behavior.current = some index)) :
      Selection p area ({ p with random, behavior.trigger := none }.startBehavior index)

theorem Selection.catalog {p q : Pet} {area : Area} (selection : p.Selection area q) : q.catalog = p.catalog := by
  cases selection with
  | _ => rfl

theorem selectBehavior?_cases (p q : Pet) (area : Area) (selected : p.selectBehavior? area = some q) :
    p.Selection area q := by
  unfold selectBehavior? at selected
  cases idle : p.interaction.isIdle with
  | false =>
    simp only [idle, Bool.not_false, ↓reduceIte] at selected
    cases Option.some.inj selected
    exact .barred idle
  | true =>
    simp only [idle, Bool.not_true, Bool.false_eq_true, ↓reduceIte] at selected
    cases asked : p.behavior.trigger with
    | some name =>
      simp only [asked] at selected
      cases Option.some.inj selected
      exact .triggered name idle asked
    | none =>
      simp only [asked] at selected
      cases wants : p.wants? with
      | none =>
        simp only [wants] at selected
        cases Option.some.inj selected
        exact .content idle asked wants
      | some reason =>
        simp only [wants] at selected
        obtain ⟨⟨index, random⟩, choice, selected⟩ := Option.bind_eq_some_iff.mp selected
        dsimp only at selected
        split at selected
        next same =>
          cases Option.some.inj selected
          obtain ⟨rfl, same⟩ := same
          exact .confirmed index random idle asked wants choice same
        next another =>
          cases Option.some.inj selected
          exact .chosen reason index random idle asked wants choice another

/-- A pet that is not idle only loses its trigger. -/
theorem selectBehavior?_barred {p : Pet} (busy : p.interaction.isIdle = false) (area : Area) :
    p.selectBehavior? area = some { p with behavior.trigger := none } := by
  unfold selectBehavior?
  simp only [busy, Bool.not_false, ↓reduceIte]

/-- Selection has no answer exactly if it has to choose and the choice has none. -/
theorem selectBehavior?_eq_none_iff (p : Pet) (area : Area) :
    p.selectBehavior? area = none ↔ p.interaction.isIdle = true ∧ p.behavior.trigger = none ∧
      ∃ reason, p.wants? = some reason ∧ p.choose? area reason = none := by
  unfold selectBehavior?
  cases idle : p.interaction.isIdle with
  | false => simp
  | true =>
    cases asked : p.behavior.trigger with
    | some name => simp
    | none =>
      cases wants : p.wants? with
      | none => simp
      | some reason =>
        cases choice : p.choose? area reason with
        | none => simp [choice]
        | some chosen =>
          simp only [Bool.not_true, Bool.false_eq_true, ↓reduceIte, Option.bind_eq_bind, Option.bind_some, choice]
          split <;> simp [choice]

/-! ## Playback -/

/-- What playback comes to. -/
def playResult (p : Pet) (scene : Scene) : PlayResult :=
  (p.player.advance p.catalog (fun predicate => predicate.holds (p.view scene.area)) scene.delta p.random).1.1

/-- Playback leaves the behavior, and at the end of the action asks for another one if the pet is idle. -/
theorem play_cases (p : Pet) (scene : Scene) :
    ∃ player random, (p.play scene).1 = { p with
        player
        random
        behavior := if p.playResult scene = .completedTerminal ∧ p.interaction.isIdle then
          p.behavior.request .terminal else p.behavior } ∧
      player = (p.player.advance p.catalog (fun predicate => predicate.holds (p.view scene.area)) scene.delta
        p.random).1.2.2 :=
  ⟨_, _, rfl, rfl⟩

/-! ## Motion -/

/-- All that motion can do to a pet. -/
inductive Motion (p : Pet) : Pet → Prop where
  | walked (facing : Facing) (body : Body) (idle : p.interaction = .idle) : Motion p { p with facing, body }
  | held (drag : Drag) (dragged : p.interaction = .dragging drag) : Motion p p
  | flown (timer later : Float32) (facing : Facing) (body : Body) (flying : p.interaction = .thrown timer) :
      Motion p { p with facing, body, interaction := .thrown later }
  | landed (timer : Float32) (facing : Facing) (body : Body) (flying : p.interaction = .thrown timer) :
      Motion p { p with facing, body, interaction := .idle, behavior := p.behavior.request .interaction }

theorem Motion.catalog {p q : Pet} (motion : p.Motion q) : q.catalog = p.catalog := by
  cases motion with
  | _ => rfl

theorem move_cases (p q : Pet) (scene : Scene) (moved : p.move? scene = some q) : p.Motion q := by
  unfold move? at moved
  split at moved
  next idle =>
    obtain ⟨reached, _, same⟩ := Option.bind_eq_some_iff.mp moved
    cases Option.some.inj same
    exact .walked _ _ idle
  next drag dragged =>
    cases Option.some.inj moved
    exact .held drag dragged
  next timer flying =>
    obtain ⟨flown, _, same⟩ := Option.bind_eq_some_iff.mp moved
    dsimp only at same
    split at same
    · cases Option.some.inj same
      exact .flown timer _ _ _ flying
    · cases Option.some.inj same
      simp only [flying]
      exact .landed timer _ _ flying

/-! ## The whole step -/

/-- The pet after selection, when its pointer events have been handled. -/
def selected? (handled : Pet) (scene : Scene) : Option Pet :=
  (handled.refreshContact scene).selectBehavior? scene.area

/-- The phases of a step, and what comes of them. -/
theorem step_phases (p q : Pet) (scene : Scene) (output : Output) (stepped : p.step? scene = some (q, output)) :
    ∃ handled chosen moved, p.applyPointer? scene = some handled ∧ handled.selected? scene = some chosen ∧
      (chosen.play scene).1.move? scene = some moved ∧ q = (moved.refreshContact scene).draw ∧
      output = ⟨(chosen.play scene).1.soundCues scene.settings (chosen.play scene).2,
        (chosen.play scene).1.hostCalls (chosen.play scene).2⟩ := by
  obtain ⟨handled, pointed, stepped⟩ := Option.bind_eq_some_iff.mp stepped
  obtain ⟨chosen, selection, stepped⟩ := Option.bind_eq_some_iff.mp stepped
  obtain ⟨moved, motion, stepped⟩ := Option.bind_eq_some_iff.mp stepped
  have result := Prod.mk.inj (Option.some.inj stepped)
  exact ⟨handled, chosen, moved, pointed, selection, motion, result.1.symm, result.2.symm⟩

/-- Behind selection no behavior starts. -/
theorem step_behavior (p q handled : Pet) (scene : Scene) (output : Output)
    (stepped : p.step? scene = some (q, output)) (pointed : p.applyPointer? scene = some handled) :
    ∃ chosen, handled.selected? scene = some chosen ∧ q.behavior.current = chosen.behavior.current ∧
      q.behavior.selections = chosen.behavior.selections := by
  obtain ⟨handled', chosen, moved, pointed', selection, motion, rfl, _⟩ := step_phases p q scene output stepped
  cases Option.some.inj (pointed.symm.trans pointed')
  obtain ⟨player, random, played, _⟩ := chosen.play_cases scene
  have start : (chosen.play scene).1.behavior.current = chosen.behavior.current ∧
      (chosen.play scene).1.behavior.selections = chosen.behavior.selections := by
    rw [played]
    dsimp only
    split
    · exact ⟨rfl, rfl⟩
    · exact ⟨rfl, rfl⟩
  obtain ⟨picture, drawn⟩ := draw_effect (moved.refreshContact scene)
  rw [drawn]
  refine ⟨chosen, selection, ?_⟩
  cases move_cases _ moved scene motion with
  | walked facing body idle => exact start
  | held drag dragged => exact start
  | flown timer later facing body flying => exact start
  | landed timer facing body flying => exact start

/-- What every phase of a step keeps, and what does not hang on events, trigger, contact and picture. -/
structure Lasting (Holds : Pet → Prop) : Prop where
  frame : ∀ (p : Pet) events trigger contact picture, Holds p →
    Holds { p with events, contact, picture, behavior.trigger := trigger }
  event : ∀ (p q : Pet) event, p.EventEffect event q → Holds p → Holds q
  selection : ∀ (p q : Pet) area, p.Selection area q → Holds p → Holds q
  playback : ∀ (p : Pet) scene, Holds p → Holds (p.play scene).1
  motion : ∀ (p q : Pet), p.Motion q → Holds p → Holds q

theorem Lasting.events {Holds : Pet → Prop} (lasting : Lasting Holds) {p q : Pet} (scene : Scene)
    (events : List PointerEvent) (applied : events.foldlM (fun p event => p.applyEvent? scene event) p = some q)
    (before : Holds p) : Holds q := by
  induction events generalizing p with
  | nil =>
    cases Option.some.inj applied
    exact before
  | cons event rest ih =>
    rw [List.foldlM_cons] at applied
    obtain ⟨middle, first, later⟩ := Option.bind_eq_some_iff.mp applied
    exact ih later (lasting.event p middle event (applyEvent_cases p middle scene event first) before)

/-- What the phases keep a step keeps. -/
theorem Lasting.step {Holds : Pet → Prop} (lasting : Lasting Holds) {p q : Pet} {scene : Scene} {output : Output}
    (stepped : p.step? scene = some (q, output)) (before : Holds p) : Holds q := by
  obtain ⟨handled, chosen, moved, pointed, selection, motion, rfl, _⟩ := step_phases p q scene output stepped
  have emptied : Holds { p with events := [] } := lasting.frame p [] p.behavior.trigger p.contact p.picture before
  have pointer : Holds handled := lasting.events scene p.events pointed emptied
  have touching : Holds (handled.refreshContact scene) :=
    lasting.frame handled handled.events handled.behavior.trigger _ handled.picture pointer
  have choosing : Holds chosen :=
    lasting.selection _ chosen scene.area (selectBehavior?_cases _ chosen scene.area selection) touching
  have moving : Holds moved :=
    lasting.motion _ moved (move_cases _ moved scene motion) (lasting.playback _ scene choosing)
  obtain ⟨picture, drawn⟩ := draw_effect (moved.refreshContact scene)
  rw [drawn]
  exact lasting.frame moved moved.events moved.behavior.trigger _ picture moving

private theorem played_id {handled chosen : Pet} {scene : Scene} (selection : handled.selected? scene = some chosen) :
    (chosen.play scene).1.id = handled.id := by
  obtain ⟨_, _, _, picked⟩ := selectBehavior?_effect (handled.refreshContact scene) chosen scene.area selection
  obtain ⟨_, _, _, played⟩ := play_effect chosen scene
  rw [played, picked]
  rfl

private theorem applyPointer_id (p handled : Pet) (scene : Scene) (pointed : p.applyPointer? scene = some handled) :
    handled.id = p.id := by
  obtain ⟨_, _, _, _, _, rfl⟩ := applyEvents_effect _ handled scene p.events pointed
  rfl

theorem soundCues_pet (p : Pet) (settings : Settings) (events : PlayEvents) :
    ∀ cue ∈ p.soundCues settings events, cue.pet = p.id := by
  intro cue member
  unfold soundCues at member
  split at member
  · obtain ⟨_, _, rfl⟩ := List.mem_map.mp member
    rfl
  · cases member

theorem hostCalls_pet (p : Pet) (events : PlayEvents) : ∀ call ∈ p.hostCalls events, call.pet = p.id := by
  intro call member
  obtain ⟨_, _, found⟩ := List.mem_filterMap.mp member
  obtain ⟨_, _, rfl⟩ := Option.map_eq_some_iff.mp found
  rfl

/-- All that a step puts out bears the number of its pet. -/
theorem step_output (p q : Pet) (scene : Scene) (output : Output) (stepped : p.step? scene = some (q, output)) :
    (∀ cue ∈ output.sounds, cue.pet = p.id) ∧ ∀ call ∈ output.calls, call.pet = p.id := by
  obtain ⟨handled, chosen, _, pointed, selection, _, _, rfl⟩ := step_phases p q scene output stepped
  have same := (played_id selection).trans (applyPointer_id p handled scene pointed)
  rw [← same]
  exact ⟨soundCues_pet _ _ _, hostCalls_pet _ _⟩

end DesktopPet.Pet
