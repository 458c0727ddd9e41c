import DesktopPet.Proofs.Pet.Phases
import DesktopPet.Proofs.Playback.Step

/-!
# Requests for a new behavior

Three phases may leave a pet idle with an action that is over: playback, a release, and the end of a
flight. Each of them asks for a new behavior (`step_requests`), and an idle pet that has asked and is left
alone by the pointer gets one in its next step (`step_starts`).
-/

namespace DesktopPet

open Condition (Predicate)

/-- An advance that leaves the player finished says that the action is over. -/
theorem advance_finished {σ : Type} (p : Player) (c : Catalog) (ask : Predicate → StateM σ Bool) (dt : Float32)
    (s : σ) (finished : (p.advance c ask dt s).1.2.2.finished = true) :
    (p.advance c ask dt s).1.1 = .completedTerminal := by
  rcases advance_cases p c ask dt s with ⟨_, same⟩ | ⟨_, _, _, _, same⟩ | ⟨_, action, _, going, _, same⟩
  · rw [same]
  · rw [same]
  · rw [same] at finished ⊢
    cases placed : p.cursor with
    | stopped => rw [advanceAction_stopped p c action ask dt s placed]
    | single leaf =>
      rw [advanceAction_single p c action ask dt s leaf placed] at finished ⊢
      exact conclude_finished _ _ _ going finished
    | sequence leaves position leaf =>
      rw [advanceAction_sequence p c action ask dt s leaves position leaf placed] at finished ⊢
      exact conclude_finished _ _ _ going finished

namespace BehaviorState

theorem request_isSome (s : BehaviorState) (reason : Reselect) : (s.request reason).reselect.isSome = true := by
  unfold request
  cases s.reselect with
  | none => rfl
  | some earlier => rfl

end BehaviorState

namespace Pet

section Requests

variable {p q : Pet}

/-! ## What leaves a pet idle asks for a behavior -/

theorem play_requests (scene : Scene) (idle : p.interaction.isIdle = true)
    (finished : (p.play scene).1.player.finished = true) : (p.play scene).1.behavior.reselect.isSome = true := by
  obtain ⟨player, random, played, advanced⟩ := p.play_cases scene
  rw [played] at finished ⊢
  have ended : p.playResult scene = .completedTerminal := by
    apply advance_finished
    rw [← advanced]
    exact finished
  simp only [ended, idle, and_self, ↓reduceIte]
  exact BehaviorState.request_isSome _ _

/-- A pet that is idle after a step, with an action that is over, has asked for a new behavior. -/
theorem step_requests (scene : Scene) (output : Output) (stepped : p.step? scene = some (q, output))
    (idle : q.interaction.isIdle = true) (finished : q.player.finished = true) :
    q.behavior.reselect.isSome = true := by
  obtain ⟨handled, chosen, moved, pointed, selection, motion, rfl, _⟩ := step_phases p q scene output stepped
  obtain ⟨picture, drawn⟩ := draw_effect (moved.refreshContact scene)
  rw [drawn] at idle finished ⊢
  obtain ⟨player, random, played, _⟩ := chosen.play_cases scene
  cases move_cases _ moved scene motion with
  | walked facing body resting =>
    -- who walks was idle in playback already
    have resting : chosen.interaction.isIdle = true := by
      rw [played] at resting
      simp [Interaction.isIdle, show chosen.interaction = .idle from resting, Interaction.mode]
    exact play_requests scene resting finished
  | held drag dragged => simp [refreshContact, dragged, Interaction.isIdle, Interaction.mode] at idle
  | flown timer later facing body flying => simp [refreshContact, Interaction.isIdle, Interaction.mode] at idle
  | landed timer facing body flying => exact BehaviorState.request_isSome _ _

/-! ## What is never asked -/

/-- A contact that does not suit is judged anew each time and never noted down. -/
def NotesNoBorder (p : Pet) : Prop :=
  p.behavior.reselect ≠ some .borderIneligible

theorem request_notesNoBorder (s : BehaviorState) (reason : Reselect) (other : reason ≠ .borderIneligible)
    (before : s.reselect ≠ some .borderIneligible) : (s.request reason).reselect ≠ some .borderIneligible := by
  unfold BehaviorState.request
  cases earlier : s.reselect with
  | none => simpa using other
  | some noted =>
    rw [earlier] at before
    exact before

theorem lockBehavior_notesNoBorder (role : Option Nat) (before : p.NotesNoBorder) :
    (p.lockBehavior role).NotesNoBorder := by
  rcases p.lockBehavior_cases role with ⟨_, same⟩ | ⟨_, _, _, _, same⟩
  · rw [same]
    exact before
  · rw [same]
    exact nofun

theorem EventEffect.notesNoBorder {event : PointerEvent} (effect : p.EventEffect event q)
    (before : p.NotesNoBorder) : q.NotesNoBorder := by
  cases effect with
  | ignored => exact before
  | grabbed drag body idle pressed => exact lockBehavior_notesNoBorder _ before
  | carried earlier drag body dragged => exact before
  | thrown drag body facing dragged released => exact lockBehavior_notesNoBorder _ before
  | dropped drag body dragged released => exact request_notesNoBorder _ _ nofun before

theorem Selection.notesNoBorder {area : Area} (selection : p.Selection area q) (before : p.NotesNoBorder) :
    q.NotesNoBorder := by
  cases selection with
  | barred busy => exact before
  | triggered name idle asked => exact nofun
  | content idle unasked wants => exact before
  | confirmed index random idle unasked wants choice same => exact nofun
  | chosen reason index random idle unasked wants choice another => exact nofun

theorem play_notesNoBorder (scene : Scene) (before : p.NotesNoBorder) : (p.play scene).1.NotesNoBorder := by
  obtain ⟨player, random, played, _⟩ := p.play_cases scene
  rw [played]
  unfold NotesNoBorder
  dsimp only
  split
  · exact request_notesNoBorder _ _ nofun before
  · exact before

theorem Motion.notesNoBorder (motion : p.Motion q) (before : p.NotesNoBorder) : q.NotesNoBorder := by
  cases motion with
  | walked facing body idle => exact before
  | held drag dragged => exact before
  | flown timer later facing body flying => exact before
  | landed timer facing body flying => exact request_notesNoBorder _ _ nofun before

theorem notesNoBorder_lasting : Lasting NotesNoBorder where
  frame := fun _ _ _ _ _ before => before
  event := fun _ _ _ effect before => effect.notesNoBorder before
  selection := fun _ _ _ selection before => selection.notesNoBorder before
  playback := fun _ scene before => play_notesNoBorder scene before
  motion := fun _ _ motion before => motion.notesNoBorder before

/-! ## What is asked is done -/

/-- Selection starts a behavior for an idle pet that has asked for one. -/
theorem Selection.starts {area : Area} (selection : p.Selection area q) (idle : p.interaction.isIdle = true)
    (asked : p.behavior.reselect.isSome = true) (before : p.NotesNoBorder) :
    q.behavior.selections = p.behavior.selections + 1 := by
  obtain ⟨noted, there⟩ := Option.isSome_iff_exists.mp asked
  have wanting : ∃ reason, p.wants? = some reason ∧ reason ≠ .borderIneligible := by
    unfold wants?
    rw [there]
    cases p.behavior.current with
    | none => exact ⟨.initial, rfl, nofun⟩
    | some current => exact ⟨noted, rfl, fun border => before (by rw [there, border])⟩
  obtain ⟨reason, wants, other⟩ := wanting
  cases selection with
  | barred busy =>
    rw [idle] at busy
    cases busy
  | triggered name resting trigger => rfl
  | content resting unasked content =>
    rw [wants] at content
    cases content
  | confirmed index random resting unasked border choice same =>
    rw [wants] at border
    exact absurd (Option.some.inj border) other
  | chosen reason index random resting unasked wants choice another => rfl

/-- An idle pet that has asked for a behavior and is left alone by the pointer gets one in its next step. -/
theorem step_starts (scene : Scene) (output : Output) (stepped : p.step? scene = some (q, output))
    (alone : p.applyPointer? scene = some { p with events := [] }) (idle : p.interaction.mode = .idle)
    (asked : p.behavior.reselect.isSome = true) (before : p.NotesNoBorder) :
    q.behavior.selections = p.behavior.selections + 1 := by
  obtain ⟨chosen, selection, _, selections⟩ := step_behavior p q _ scene output stepped alone
  rw [selections]
  have resting : p.interaction.isIdle = true := by
    rw [Interaction.isIdle, decide_eq_true_iff]
    exact idle
  exact (selectBehavior?_cases _ chosen scene.area selection).starts resting asked before

end Requests

end Pet

end DesktopPet
