import DesktopPet.Proofs.Pack.Compiled
import DesktopPet.Proofs.Pet.Phases
import DesktopPet.Proofs.Playback.Step

/-!
# Behavior and playback agree

A pet's behavior and its player are written together, so that the player always plays the action of the
behavior; and while the pointer or a throw has the pet, its behavior is the one that the catalog keeps for
that. All phases of a step keep this (`agrees_lasting`), and `step_locked` says that no phase but the pointer's
gives another behavior to a pet that is not idle.
-/

namespace DesktopPet

/-- The behaviors that a catalog falls back on and those for interactions are there. -/
structure Catalog.EntriesPresent (c : Catalog) : Prop where
  default : (c.behavior? c.defaultBehavior).isSome = true
  dragged : ∀ index, c.draggedBehavior = some index → (c.behavior? index).isSome = true
  thrown : ∀ index, c.thrownBehavior = some index → (c.behavior? index).isSome = true

theorem compiled_entriesPresent {p : PackSpec} {c : Catalog} {issues : List Pack.Issue}
    (compiled : p.compile = .ok (c, issues)) : c.EntriesPresent := by
  obtain ⟨default, dragged, thrown⟩ := Pack.compiled_entries compiled
  have present (index : Nat) (bound : index < c.behaviors.length) : (c.behavior? index).isSome = true := by
    simpa [Catalog.behavior?] using bound
  exact ⟨present _ default, fun index role => present index (dragged index role),
    fun index role => present index (thrown index role)⟩

namespace Pet

/-- The behavior is there, and its action is the one that plays. -/
def Performs (p : Pet) (index : Nat) : Prop :=
  ∃ found, p.catalog.behavior? index = some found ∧ p.player.action = some found.action

/-- Behavior, playback and interaction agree. -/
structure Agrees (p : Pet) : Prop where
  performs : ∀ index, p.behavior.current = some index → p.Performs index
  dragged : p.interaction.mode = .dragging →
    ∀ index, p.catalog.draggedBehavior = some index → p.behavior.current = some index
  thrown : p.interaction.mode = .thrown →
    ∀ index, p.catalog.thrownBehavior = some index → p.behavior.current = some index

section Agreement

variable {p q : Pet}

theorem Performs.of_same {index : Nat} (performs : p.Performs index) (catalog : q.catalog = p.catalog)
    (action : q.player.action = p.player.action) : q.Performs index := by
  obtain ⟨found, there, playing⟩ := performs
  exact ⟨found, by rw [catalog]; exact there, by rw [action]; exact playing⟩

/-- Nothing is lost where behavior and action stay and the mode stays or becomes idle. -/
theorem Agrees.of_same (agrees : p.Agrees) (catalog : q.catalog = p.catalog)
    (current : q.behavior.current = p.behavior.current) (action : q.player.action = p.player.action)
    (mode : q.interaction.mode = p.interaction.mode ∨ q.interaction.mode = .idle) : q.Agrees := by
  refine ⟨fun index there => ?_, fun dragging index role => ?_, fun flying index role => ?_⟩
  · rw [current] at there
    exact (agrees.performs index there).of_same catalog action
  · rcases mode with kept | idle
    · rw [current]
      exact agrees.dragged (kept.symm.trans dragging) index (by rw [← catalog]; exact role)
    · exact nomatch idle.symm.trans dragging
  · rcases mode with kept | idle
    · rw [current]
      exact agrees.thrown (kept.symm.trans flying) index (by rw [← catalog]; exact role)
    · exact nomatch idle.symm.trans flying

/-- A pet that is idle only has to perform its behavior. -/
theorem Agrees.of_idle (idle : p.interaction.mode = .idle)
    (performs : ∀ index, p.behavior.current = some index → p.Performs index) : p.Agrees :=
  ⟨performs, fun dragging => (nomatch idle.symm.trans dragging), fun flying => (nomatch idle.symm.trans flying)⟩

/-! ## The pointer -/

theorem lockBehavior_performs (role : Option Nat)
    (performs : ∀ index, p.behavior.current = some index → p.Performs index) (index : Nat)
    (current : (p.lockBehavior role).behavior.current = some index) : (p.lockBehavior role).Performs index := by
  rcases p.lockBehavior_cases role with ⟨_, same⟩ | ⟨chosen, found, _, there, same⟩
  · rw [same] at current ⊢
    exact performs index current
  · rw [same] at current ⊢
    cases Option.some.inj current
    exact ⟨found, there, start_action found.action p.catalog⟩

private theorem lockBehavior_current (role : Option Nat) (index : Nat)
    (present : (p.catalog.behavior? index).isSome = true) (chosen : role = some index) :
    (p.lockBehavior role).behavior.current = some index := by
  rcases p.lockBehavior_cases role with ⟨absent, _⟩ | ⟨other, found, same, _, locked⟩
  · rw [absent index chosen] at present
    cases present
  · rw [locked, ← chosen, same]
    rfl

theorem EventEffect.agrees {event : PointerEvent} (effect : p.EventEffect event q) (agrees : p.Agrees)
    (entries : p.catalog.EntriesPresent) : q.Agrees := by
  cases effect with
  | ignored => exact agrees
  | grabbed drag body idle pressed =>
    refine ⟨lockBehavior_performs _ agrees.performs, fun _ index role => ?_, fun flying => ?_⟩
    · rw [lockBehavior_catalog] at role
      exact lockBehavior_current _ index (entries.dragged index role) role
    · rw [lockBehavior_interaction] at flying
      cases flying
  | carried before drag body dragged =>
    exact agrees.of_same rfl rfl rfl (Or.inl (congrArg Interaction.mode dragged).symm)
  | thrown drag body facing dragged released =>
    refine ⟨lockBehavior_performs _ agrees.performs, fun dragging => ?_, fun _ index role => ?_⟩
    · rw [lockBehavior_interaction] at dragging
      cases dragging
    · rw [lockBehavior_catalog] at role
      exact lockBehavior_current _ index (entries.thrown index role) role
  | dropped drag body dragged released => exact agrees.of_same rfl rfl rfl (Or.inr rfl)

/-! ## Selection and playback -/

/-- A behavior that starts is performed: there is one, if only the default one. -/
theorem startBehavior_performs (p : Pet) (entries : p.catalog.EntriesPresent) (chosen index : Nat)
    (current : (p.startBehavior chosen).behavior.current = some index) : (p.startBehavior chosen).Performs index := by
  have present : (p.catalog.behavior? (p.catalog.orDefault chosen)).isSome = true := by
    unfold Catalog.orDefault
    split
    next there => exact there
    · exact entries.default
  obtain ⟨found, there⟩ := Option.isSome_iff_exists.mp present
  cases Option.some.inj current
  refine ⟨found, there, ?_⟩
  simp only [startBehavior, Catalog.playerOf, there]
  exact start_action found.action p.catalog

theorem Selection.agrees {area : Area} (selection : p.Selection area q) (agrees : p.Agrees)
    (entries : p.catalog.EntriesPresent) : q.Agrees := by
  have mode_idle (idle : p.interaction.isIdle = true) : p.interaction.mode = .idle := by
    simpa [Interaction.isIdle] using idle
  cases selection with
  | barred busy => exact agrees.of_same rfl rfl rfl (Or.inl rfl)
  | triggered name idle asked =>
    refine Agrees.of_idle (mode_idle idle) ?_
    exact startBehavior_performs { p with behavior.trigger := none } entries _
  | content idle unasked wants => exact agrees.of_same rfl rfl rfl (Or.inl rfl)
  | confirmed index random idle unasked wants choice same => exact agrees.of_same rfl rfl rfl (Or.inl rfl)
  | chosen reason index random idle unasked wants choice another =>
    refine Agrees.of_idle (mode_idle idle) ?_
    exact startBehavior_performs { p with random, behavior.trigger := none } entries _

theorem play_agrees (agrees : p.Agrees) (scene : Scene) : (p.play scene).1.Agrees := by
  obtain ⟨player, random, played, advanced⟩ := p.play_cases scene
  rw [played]
  refine agrees.of_same rfl ?_ ?_ (Or.inl rfl)
  · dsimp only
    split
    · rfl
    · rfl
  · rw [advanced]
    exact advance_action _ _ _ _ _

/-! ## Motion and whole steps -/

theorem Motion.agrees (motion : p.Motion q) (agrees : p.Agrees) : q.Agrees := by
  cases motion with
  | walked facing body idle => exact agrees.of_same rfl rfl rfl (Or.inl rfl)
  | held drag dragged => exact agrees
  | flown timer later facing body flying =>
    exact agrees.of_same rfl rfl rfl (Or.inl (congrArg Interaction.mode flying).symm)
  | landed timer facing body flying => exact agrees.of_same rfl rfl rfl (Or.inr rfl)

/-- All phases keep behavior, playback and interaction in agreement, where the catalog has its entries. -/
theorem agrees_lasting : Lasting fun p => p.catalog.EntriesPresent ∧ p.Agrees where
  frame := fun _ _ _ _ _ ⟨entries, agrees⟩ => ⟨entries, agrees.of_same rfl rfl rfl (Or.inl rfl)⟩
  event := fun p q _ effect ⟨entries, agrees⟩ => ⟨by rw [effect.catalog]; exact entries, effect.agrees agrees entries⟩
  selection := fun p q _ selection ⟨entries, agrees⟩ =>
    ⟨by rw [selection.catalog]; exact entries, selection.agrees agrees entries⟩
  playback := fun p scene ⟨entries, agrees⟩ => ⟨entries, play_agrees agrees scene⟩
  motion := fun p q motion ⟨entries, agrees⟩ => ⟨by rw [motion.catalog]; exact entries, motion.agrees agrees⟩

/-! ## The lock -/

/-- While a pet is not idle, its behavior changes with the mode or not at all. -/
theorem EventEffect.locked {event : PointerEvent} (effect : p.EventEffect event q) (busy : p.interaction.mode ≠ .idle)
    (kept : q.interaction.mode = p.interaction.mode) : q.behavior = p.behavior := by
  cases effect with
  | ignored => rfl
  | grabbed drag body idle pressed => exact absurd (congrArg Interaction.mode idle) busy
  | carried before drag body dragged => rfl
  | thrown drag body facing dragged released =>
    rw [lockBehavior_interaction, dragged] at kept
    cases kept
  | dropped drag body dragged released =>
    rw [dragged] at kept
    cases kept

/-- A pet that is not idle after its pointer events keeps through the step the behavior that it has then, and
none is started anew. -/
theorem step_locked (handled : Pet) (scene : Scene) (output : Output) (stepped : p.step? scene = some (q, output))
    (pointed : p.applyPointer? scene = some handled) (busy : handled.interaction.mode ≠ .idle) :
    q.behavior.current = handled.behavior.current ∧ q.behavior.selections = handled.behavior.selections := by
  obtain ⟨chosen, selection, current, selections⟩ := step_behavior p q handled scene output stepped pointed
  have barred : (handled.refreshContact scene).interaction.isIdle = false := by
    rw [Interaction.isIdle, decide_eq_false_iff_not]
    exact busy
  have selected : handled.selected? scene = some { handled.refreshContact scene with behavior.trigger := none } :=
    selectBehavior?_barred barred scene.area
  cases Option.some.inj (selected.symm.trans selection)
  rw [current, selections]
  exact ⟨rfl, rfl⟩

end Agreement

end Pet

end DesktopPet
