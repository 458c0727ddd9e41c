import DesktopPet.Pet
import DesktopPet.Proofs.Pack.Hidden

/-!
# Pets and the menus of their catalog

Nothing that a pet does looks at what menus show. Each phase of a step is therefore the same for the catalog with
all behaviors shown, up to that very change of the catalog that the pet carries along (`step?_reveal`).
-/

namespace DesktopPet

open Condition (Predicate View)

namespace Catalog

variable (c : Catalog)

/-! ## Playback -/

theorem action?_reveal (index : Nat) : c.reveal.action? index = c.action? index :=
  rfl

theorem behavior?_reveal (index : Nat) : c.reveal.behavior? index = (c.behavior? index).map Behavior.reveal := by
  simp [behavior?, reveal]

theorem leaves_reveal (depth index : Nat) : c.reveal.leaves depth index = c.leaves depth index := by
  induction depth generalizing index with
  | zero =>
    unfold leaves
    rw [action?_reveal]
  | succ depth ih =>
    have children : c.reveal.leaves depth = c.leaves depth := funext ih
    unfold leaves
    dsimp only
    rw [action?_reveal, children]

theorem stepSequence_reveal {σ : Type} (ask : Predicate → StateM σ Bool) (leaves : List Nat) (looping : Bool)
    (passes position : Nat) (leaf : LeafCursor) (inGap : Bool) (dt : Float32) :
    c.reveal.stepSequence ask leaves looping passes position leaf inGap dt =
      c.stepSequence ask leaves looping passes position leaf inGap dt := by
  induction passes generalizing position leaf inGap dt with
  | zero => rfl
  | succ passes ih =>
    unfold stepSequence
    simp only [ih]
    rfl

end Catalog

namespace Player

variable (c : Catalog)

theorem start_reveal (action : Nat) : start action c.reveal = start action c := by
  unfold start
  rw [Catalog.action?_reveal, Catalog.leaves_reveal]

theorem advance_reveal {σ : Type} (p : Player) (ask : Predicate → StateM σ Bool) (dt : Float32) :
    p.advance c.reveal ask dt = p.advance c ask dt := by
  have going (action : Action) : p.advanceAction c.reveal action ask dt = p.advanceAction c action ask dt := by
    unfold advanceAction
    simp only [Catalog.stepSequence_reveal]
    rfl
  unfold advance
  simp only [Catalog.action?_reveal, going]

end Player

/-! ## Selection -/

namespace Catalog

variable (c : Catalog)

theorem isCandidate_reveal (view : View) (index : Nat) :
    c.reveal.isCandidate view index = c.isCandidate view index := by
  unfold isCandidate
  rw [behavior?_reveal]
  cases c.behavior? index with
  | none => rfl
  | some b => rfl

theorem candidates_reveal (view : View) (indices : List Nat) :
    c.reveal.candidates view indices = c.candidates view indices := by
  induction indices with
  | nil => rfl
  | cons index rest ih => rw [candidates, candidates, isCandidate_reveal, ih]

theorem weight_reveal (index : Nat) : c.reveal.weight index = c.weight index := by
  rw [weight, weight, behavior?_reveal, Option.map_map]
  rfl

theorem pick?_reveal (indices : List Nat) (roll : Nat) : c.reveal.pick? indices roll = c.pick? indices roll := by
  induction indices generalizing roll with
  | nil => rfl
  | cons index rest ih => simp only [pick?, weight_reveal, ih]

theorem selectNext?_reveal (view : View) (r : Random) : c.reveal.selectNext? view r = c.selectNext? view r := by
  have count : c.reveal.behaviors.length = c.behaviors.length := List.length_map _
  have weights : c.reveal.weight = c.weight := funext c.weight_reveal
  have mandatory (index : Nat) :
      (c.reveal.behavior? index).any (·.isMandatory) = (c.behavior? index).any (·.isMandatory) := by
    rw [behavior?_reveal]
    cases c.behavior? index with
    | none => rfl
    | some b => rfl
  unfold selectNext?
  simp only [count, candidates_reveal, mandatory, totalWeight?, weights, pick?_reveal]
  rfl

theorem selectChained_reveal (view : View) (source : Nat) :
    c.reveal.selectChained view source = c.selectChained view source := by
  unfold selectChained
  rw [behavior?_reveal]
  cases c.behavior? source with
  | none => rfl
  | some b =>
    simp only [Option.map_some, candidates_reveal]
    rfl

theorem findBehavior?_reveal (name : String) : c.reveal.findBehavior? name = c.findBehavior? name := by
  simp [findBehavior?, reveal, Function.comp_def, Behavior.reveal]

theorem orDefault_reveal (index : Nat) : c.reveal.orDefault index = c.orDefault index := by
  unfold orDefault
  rw [behavior?_reveal, Option.isSome_map]
  rfl

theorem playerOf_reveal (behavior : Nat) : c.reveal.playerOf behavior = c.playerOf behavior := by
  unfold playerOf
  rw [behavior?_reveal]
  cases c.behavior? behavior with
  | none => rfl
  | some b => exact Player.start_reveal c b.action

end Catalog

/-! ## The phases of a step -/

/-- The pet under its catalog with all behaviors shown in menus. -/
def Pet.reveal (p : Pet) : Pet :=
  { p with catalog := p.catalog.reveal }

namespace Pet

variable (p : Pet) (scene : Scene)

theorem reveal_interaction : p.reveal.interaction = p.interaction :=
  rfl

theorem reveal_behavior : p.reveal.behavior = p.behavior :=
  rfl

theorem lockBehavior_reveal (behavior : Option Nat) :
    p.reveal.lockBehavior behavior = (p.lockBehavior behavior).reveal := by
  cases behavior with
  | none => rfl
  | some index =>
    unfold lockBehavior reveal
    simp only [Catalog.behavior?_reveal]
    cases p.catalog.behavior? index with
    | none => rfl
    | some found => simp only [Option.map_some, Behavior.reveal, Player.start_reveal]

/-! ### The pointer -/

theorem pointerDown_reveal (position : Vector2) (time : Float) :
    p.reveal.pointerDown position time = (p.pointerDown position time).reveal := by
  unfold pointerDown
  rw [apply_ite Pet.reveal]
  dsimp only
  rw [← lockBehavior_reveal]
  rfl

theorem pointerMove_reveal (position : Vector2) : p.reveal.pointerMove position = (p.pointerMove position).reveal := by
  unfold pointerMove
  rw [reveal_interaction]
  cases p.interaction with
  | dragging drag => rfl
  | _ => rfl

theorem throw_reveal (velocity : Vector2) : p.reveal.throw velocity = (p.throw velocity).reveal := by
  unfold throw
  dsimp only
  rw [← lockBehavior_reveal]
  rfl

theorem drop?_reveal (bounds : Bounds) : p.reveal.drop? bounds = (p.drop? bounds).map Pet.reveal := by
  unfold drop?
  change (bounds.clampRect? p.body.position p.body.size).bind _ = _
  cases bounds.clampRect? p.body.position p.body.size with
  | none => rfl
  | some position => rfl

theorem pointerUp?_reveal (position : Vector2) (time : Float) :
    p.reveal.pointerUp? scene position time = (p.pointerUp? scene position time).map Pet.reveal := by
  unfold pointerUp?
  rw [reveal_interaction]
  cases p.interaction with
  | dragging drag =>
    dsimp only
    rw [apply_ite (Option.map Pet.reveal), Option.map_some, ← throw_reveal, ← drop?_reveal]
    rfl
  | _ => rfl

theorem applyEvent?_reveal (event : PointerEvent) :
    p.reveal.applyEvent? scene event = (p.applyEvent? scene event).map Pet.reveal := by
  cases event with
  | down position time => exact congrArg some (pointerDown_reveal p position time)
  | move position time => exact congrArg some (pointerMove_reveal p position)
  | up position time => exact pointerUp?_reveal p scene position time

theorem applyPointer?_reveal : p.reveal.applyPointer? scene = (p.applyPointer? scene).map Pet.reveal := by
  have events (queue : List PointerEvent) (q : Pet) :
      queue.foldlM (fun (p : Pet) event => p.applyEvent? scene event) q.reveal =
        (queue.foldlM (fun (p : Pet) event => p.applyEvent? scene event) q).map Pet.reveal := by
    induction queue generalizing q with
    | nil => rfl
    | cons event rest ih =>
      rw [List.foldlM_cons, List.foldlM_cons, applyEvent?_reveal]
      cases q.applyEvent? scene event with
      | none => rfl
      | some next => exact ih next
  exact events p.events { p with events := [] }

/-! ### Selection and playback -/

theorem refreshContact_reveal : p.reveal.refreshContact scene = (p.refreshContact scene).reveal :=
  rfl

theorem startBehavior_reveal (index : Nat) : p.reveal.startBehavior index = (p.startBehavior index).reveal := by
  simp only [startBehavior, reveal, Catalog.orDefault_reveal, Catalog.playerOf_reveal]

theorem choose?_reveal (area : Area) (reason : Reselect) : p.reveal.choose? area reason = p.choose? area reason := by
  unfold choose?
  simp only [reveal, Catalog.selectChained_reveal, Catalog.selectNext?_reveal]
  rfl

theorem selectBehavior?_reveal (area : Area) :
    p.reveal.selectBehavior? area = (p.selectBehavior? area).map Pet.reveal := by
  unfold selectBehavior?
  dsimp only
  rw [reveal_interaction, reveal_behavior]
  split
  · rfl
  · cases p.behavior.trigger with
    | some name =>
      have found : p.reveal.catalog.findBehavior? name = p.catalog.findBehavior? name :=
        p.catalog.findBehavior?_reveal name
      dsimp only
      rw [found, Option.map_some, ← startBehavior_reveal]
      rfl
    | none =>
      have wanted : p.reveal.wants? = p.wants? := rfl
      dsimp only
      rw [wanted]
      cases p.wants? with
      | none => rfl
      | some reason =>
        dsimp only
        rw [choose?_reveal]
        cases p.choose? area reason with
        | none => rfl
        | some choice =>
          simp only [bind, Option.bind_some]
          by_cases same : reason = .borderIneligible ∧ p.behavior.current = some choice.1
          · rw [if_pos same, if_pos same]
            rfl
          · rw [if_neg same, if_neg same]
            exact congrArg some (startBehavior_reveal { p with random := choice.2, behavior.trigger := none } choice.1)

theorem play_reveal : p.reveal.play scene = ((p.play scene).1.reveal, (p.play scene).2) := by
  unfold play
  simp only [reveal, Player.advance_reveal]
  rfl

/-! ### Motion and drawing -/

theorem walk?_reveal : p.reveal.walk? scene = (p.walk? scene).map Pet.reveal := by
  unfold walk?
  simp only [bind, Option.map_bind]
  rfl

theorem fly?_reveal (timer : Float32) : p.reveal.fly? scene timer = (p.fly? scene timer).map Pet.reveal := by
  unfold fly?
  simp only [bind, Option.map_bind]
  change (Flight.step? { body := p.body, timer } scene.area.bounds scene.settings.throwing scene.settings.gravity
    scene.delta).bind _ = _
  cases Flight.step? { body := p.body, timer } scene.area.bounds scene.settings.throwing scene.settings.gravity
    scene.delta with
  | none => rfl
  | some stepped =>
    simp only [Option.bind_some, Function.comp_apply]
    rw [apply_ite (Option.map Pet.reveal)]
    rfl

theorem move?_reveal : p.reveal.move? scene = (p.move? scene).map Pet.reveal := by
  unfold move?
  rw [reveal_interaction]
  cases p.interaction with
  | idle => exact walk?_reveal p scene
  | dragging drag => rfl
  | thrown timer => exact fly?_reveal p scene timer

theorem draw_reveal : p.reveal.draw = p.draw.reveal := by
  unfold draw
  dsimp only
  rw [apply_ite Pet.reveal]
  rfl

/-- A step does not look at what menus show. -/
theorem step?_reveal : p.reveal.step? scene = (p.step? scene).map fun (q, output) => (q.reveal, output) := by
  unfold step?
  rw [applyPointer?_reveal]
  cases p.applyPointer? scene with
  | none => rfl
  | some handled =>
    simp only [bind, Option.map_some, Option.bind_some, refreshContact_reveal, selectBehavior?_reveal]
    cases (handled.refreshContact scene).selectBehavior? scene.area with
    | none => rfl
    | some chosen =>
      simp only [Option.map_some, Option.bind_some, play_reveal, move?_reveal]
      cases (chosen.play scene).1.move? scene with
      | none => rfl
      | some moved =>
        simp only [Option.map_some, Option.bind_some, refreshContact_reveal, draw_reveal]
        rfl

end Pet

end DesktopPet
