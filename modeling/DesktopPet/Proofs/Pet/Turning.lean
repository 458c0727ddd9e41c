import DesktopPet.Proofs.Number.Order
import DesktopPet.Proofs.Number.Sign
import DesktopPet.Proofs.Pet.Reasons

/-!
# Turning around at walls

A walking pet that a wall stops turns around if it went to the side to which it looks, and the frames that led it to
the wall lead it away from there (`walls_turn_pets_around`). Whether it goes forward hangs on the velocity of its frame
alone: frames are drawn for a pet that looks to the left, so those with a negative velocity go forward, whichever way
the pet looks. A pet that goes backward keeps its side, and stays at the wall.
-/

namespace DesktopPet

/-- The other side. -/
def Facing.opposite : Facing → Facing
  | .left => .right
  | .right => .left

theorem Facing.orient_opposite (facing : Facing) (v : Vector2) :
    (facing.opposite.orient v).x = -(facing.orient v).x := by
  cases facing with
  | left => rfl
  | right => exact (Number.neg_neg_eq v.x).symm

theorem Facing.ofMotion?_neg {dx : Float32} (below : dx < 0.0) : ofMotion? dx = some .left := by
  have notAbove : ¬ 0.0 < dx := Number.not_lt_of_le dx 0.0 (Number.le_of_lt dx 0.0 below)
  rw [ofMotion?, if_neg notAbove, if_pos below]

theorem Facing.ofMotion?_pos {dx : Float32} (above : 0.0 < dx) : ofMotion? dx = some .right := by
  rw [ofMotion?, if_pos above]

/-- The way of a pet that looks to the other side is the opposite one, whatever seconds it takes. -/
theorem walk_opposite (v : Vector2) (facing : Facing) (dt tickRate : Float32) :
    (walk v facing.opposite dt tickRate).x = -(walk v facing dt tickRate).x := by
  change (facing.opposite.orient v).x * dt * tickRate = -((facing.orient v).x * dt * tickRate)
  rw [Facing.orient_opposite, Number.neg_mul_eq, Number.neg_mul_eq]

/-- A negative velocity leads no pet backward. -/
theorem walk_ahead {v : Vector2} {dt tickRate : Float32} (authored : v.x < 0.0) (goes : 0.0 < dt)
    (ticks : 0.0 < tickRate) : ¬ 0.0 < (walk v .left dt tickRate).x :=
  (Number.mul_not_pos (Number.mul_not_pos (Number.signed_of_neg authored) goes) ticks).not_pos

namespace Pet

/-- The way of the next step, before the walls have a say. -/
def stride (p : Pet) (scene : Scene) : Vector2 :=
  walk (p.player.frameVelocity p.catalog) p.facing scene.delta scene.settings.tickRate

/-- The pet goes to the side to which it looks. -/
def GoesForward (p : Pet) (scene : Scene) : Prop :=
  Facing.ofMotion? (p.stride scene).x = some p.facing

/-- The wall that the pet goes to cuts its step short: it does not come as far as its way leads. -/
inductive IsStopped (p : Pet) (scene : Scene) (reached : Vector2) : Prop where
  | left (towards : (p.stride scene).x < 0.0) (short : (p.body.position + p.stride scene).x < reached.x)
  | right (towards : 0.0 < (p.stride scene).x) (short : reached.x < (p.body.position + p.stride scene).x)

/-- Where a pet stands that is at the wall to which it goes. -/
def wallAhead (p : Pet) (scene : Scene) : Float32 :=
  if (p.stride scene).x < 0.0 then scene.area.bounds.left else scene.area.bounds.maxX p.body.size

/-- What a step on foot makes of a pet, and of its steps from there. -/
structure Walks (p : Pet) (scene : Scene) (reached : Vector2) (q : Pet) : Prop where
  position : q.body.position = reached
  /-- A step that is not cut short leaves the side. -/
  kept : ¬ p.IsStopped scene reached → q.facing = p.facing
  /-- A pet that is stopped is at the wall. -/
  wall : p.IsStopped scene reached → reached.x = p.wallAhead scene
  /-- It turns around if it went forward, -/
  turned : p.IsStopped scene reached → p.GoesForward scene → q.facing = p.facing.opposite
  /-- and goes forward from there, too, each of its next steps the opposite of what it would have been. -/
  away : p.IsStopped scene reached → p.GoesForward scene →
    q.GoesForward scene ∧ ∀ later, (q.stride later).x = -(p.stride later).x
  /-- Frames whose velocity leads to the left go forward. -/
  forward : p.IsStopped scene reached → (p.player.frameVelocity p.catalog).x < 0.0 → 0.0 < scene.delta →
    0.0 < scene.settings.tickRate → p.GoesForward scene

variable {p : Pet} {scene : Scene} {reached : Vector2}

/-- Motion of an idle pet moves it, and it may turn it around. -/
theorem move_walks (idle : p.interaction = .idle)
    (clamped : scene.area.bounds.clampRect? (p.body.position + p.stride scene) p.body.size = some reached) :
    ∃ velocity, p.move? scene = some { p with
      facing := turn p.facing (p.stride scene) (p.body.position + p.stride scene) reached
      body := { p.body with position := reached, velocity } } := by
  have moved : p.move? scene = p.walk? scene := by rw [move?, idle]
  rw [moved]
  exact ⟨_, Option.bind_eq_some_iff.mpr ⟨reached, clamped, rfl⟩⟩

/-! ## The wall -/

theorem IsStopped.at_wall (stopped : p.IsStopped scene reached)
    (clamped : scene.area.bounds.clampRect? (p.body.position + p.stride scene) p.body.size = some reached) :
    reached.x = p.wallAhead scene := by
  unfold Bounds.clampRect? at clamped
  split at clamped
  next room =>
    have place := congrArg Vector2.x (Option.some.inj clamped)
    dsimp only at place
    cases stopped with
    | left towards short =>
      rw [← place] at short ⊢
      rw [wallAhead, if_pos towards]
      exact Number.clamp_raised _ _ _ room.1 short
    | right towards short =>
      have notLeft := Number.not_lt_of_le _ _ (Number.le_of_lt _ _ towards)
      rw [← place] at short ⊢
      rw [wallAhead, if_neg notLeft]
      exact Number.clamp_lowered _ _ _ short
  · cases clamped

/-! ## The side -/

theorem turn_unstopped (free : ¬ p.IsStopped scene reached) :
    turn p.facing (p.stride scene) (p.body.position + p.stride scene) reached = p.facing := by
  rw [turn, if_neg fun both => free (.left both.1 both.2), if_neg fun both => free (.right both.1 both.2)]

private theorem turn_forward (stopped : p.IsStopped scene reached) (forward : p.GoesForward scene) :
    turn p.facing (p.stride scene) (p.body.position + p.stride scene) reached = p.facing.opposite := by
  cases stopped with
  | left towards short =>
    have looks : p.facing = .left := Option.some.inj (forward.symm.trans (Facing.ofMotion?_neg towards))
    rw [turn, if_pos ⟨towards, short⟩, looks]
    rfl
  | right towards short =>
    have looks : p.facing = .right := Option.some.inj (forward.symm.trans (Facing.ofMotion?_pos towards))
    have notLeft := Number.not_lt_of_le _ _ (Number.le_of_lt _ _ towards)
    rw [turn, if_neg fun both => notLeft both.1, if_pos ⟨towards, short⟩, looks]
    rfl

/-- A pet that looks to the other side goes the opposite way, and forward if it went forward. -/
theorem away_of_opposite {q : Pet} (forward : p.GoesForward scene) (player : q.player = p.player)
    (catalog : q.catalog = p.catalog) (facing : q.facing = p.facing.opposite) :
    q.GoesForward scene ∧ ∀ later, (q.stride later).x = -(p.stride later).x := by
  have strides (later : Scene) : (q.stride later).x = -(p.stride later).x := by
    rw [stride, player, catalog, facing]
    exact walk_opposite _ _ _ _
  refine ⟨?_, strides⟩
  unfold GoesForward at forward ⊢
  rw [strides, facing]
  by_cases above : 0.0 < (p.stride scene).x
  · have looks : p.facing = .right := Option.some.inj (forward.symm.trans (Facing.ofMotion?_pos above))
    rw [looks]
    exact Facing.ofMotion?_neg ((Number.neg_lt_zero _).mpr above)
  · by_cases below : (p.stride scene).x < 0.0
    · have looks : p.facing = .left := Option.some.inj (forward.symm.trans (Facing.ofMotion?_neg below))
      rw [looks]
      exact Facing.ofMotion?_pos ((Number.zero_lt_neg _).mpr below)
    · rw [Facing.ofMotion?, if_neg above, if_neg below] at forward
      cases forward

/-- A pet that is stopped goes one way or the other, so it goes forward unless its frame leads backward. -/
theorem IsStopped.forward (stopped : p.IsStopped scene reached)
    (authored : (p.player.frameVelocity p.catalog).x < 0.0) (goes : 0.0 < scene.delta)
    (ticks : 0.0 < scene.settings.tickRate) : p.GoesForward scene := by
  -- the way of a pet that looks to the left; one that looks to the right goes the opposite way
  let ahead := walk (p.player.frameVelocity p.catalog) .left scene.delta scene.settings.tickRate
  have notBack : ¬ 0.0 < ahead.x := walk_ahead authored goes ticks
  rw [GoesForward]
  cases looks : p.facing with
  | left =>
    have way : (p.stride scene).x = ahead.x := by rw [stride, looks]
    cases stopped with
    | left towards short => exact Facing.ofMotion?_neg towards
    | right towards short => exact absurd (way ▸ towards) notBack
  | right =>
    have way : (p.stride scene).x = -ahead.x := by
      rw [stride, looks]
      exact walk_opposite _ .left _ _
    cases stopped with
    | left towards short => exact absurd ((Number.neg_lt_zero _).mp (way ▸ towards)) notBack
    | right towards short => exact Facing.ofMotion?_pos towards

end Pet

/-- A walking pet that is stopped by the wall to which it goes turns around and walks away from there, and any other
keeps its side. A pet is exempt if its frame leads it backward. -/
theorem walls_turn_pets_around (p : Pet) (scene : Scene) (reached : Vector2) (idle : p.interaction = .idle)
    (clamped : scene.area.bounds.clampRect? (p.body.position + p.stride scene) p.body.size = some reached) :
    ∃ q, p.move? scene = some q ∧ p.Walks scene reached q := by
  obtain ⟨velocity, moved⟩ := Pet.move_walks idle clamped
  refine ⟨_, moved, ?_⟩
  exact
    { position := rfl
      kept := Pet.turn_unstopped
      wall := fun stopped => stopped.at_wall clamped
      turned := Pet.turn_forward
      away := fun stopped forward => Pet.away_of_opposite forward rfl rfl (Pet.turn_forward stopped forward)
      forward := Pet.IsStopped.forward }

/-- A single behavior that walks with this velocity. -/
def promenadePack (speed : Float32) : PackSpec :=
  { name := "promenade"
    defaultBehavior := "stroll"
    actions := [{ name := "stroll", kind := "Move", animations := [{ frames := [{ velocity := ⟨speed, 0.0⟩ }] }] }]
    behaviors := [{ name := "stroll" }] }

def promenadeScene : Scene :=
  { area := .standard, settings := {}, delta := 0.05 }

/-- A pet in the midst of its walk that looks to the left, with its left edge here. -/
def stroller (c : Catalog) (left : Float32) : Pet :=
  { ((groundedPet c { current := some 0, selections := 1 } (Player.start 0 c) 1).play promenadeScene).1 with
    body := { position := ⟨left, 400.0⟩, velocity := .zero, size := ⟨128.0, 128.0⟩ } }

/-- At the left wall it turns to the right. -/
theorem walls_turn_pets_around_promenade :
    ∃ c issues, (promenadePack (-5.0)).compile = .ok (c, issues) ∧ (stroller c 192.0).interaction = .idle ∧
      (stroller c 192.0).IsStopped promenadeScene ⟨192.0, 400.0⟩ ∧ (stroller c 192.0).facing = .left ∧
      ∃ q, (stroller c 192.0).move? promenadeScene = some q ∧
        (stroller c 192.0).Walks promenadeScene ⟨192.0, 400.0⟩ q ∧ q.facing = .right := by
  have compiles : ∃ c issues, (promenadePack (-5.0)).compile = .ok (c, issues) ∧
      ((stroller c 192.0).stride promenadeScene).x < 0.0 ∧
      ((stroller c 192.0).body.position + (stroller c 192.0).stride promenadeScene).x < 192.0 ∧
      promenadeScene.area.bounds.clampRect? ((stroller c 192.0).body.position +
        (stroller c 192.0).stride promenadeScene) (stroller c 192.0).body.size = some ⟨192.0, 400.0⟩ :=
    ⟨_, _, rfl, by decide +kernel, by decide +kernel, by decide +kernel⟩
  obtain ⟨c, issues, compiled, towards, short, clamped⟩ := compiles
  have stopped : (stroller c 192.0).IsStopped promenadeScene ⟨192.0, 400.0⟩ := .left towards short
  obtain ⟨q, moved, walks⟩ := walls_turn_pets_around (stroller c 192.0) promenadeScene ⟨192.0, 400.0⟩ rfl clamped
  exact ⟨c, issues, compiled, rfl, stopped, rfl, q, moved, walks,
    walks.turned stopped (Facing.ofMotion?_neg towards)⟩

/-- At the right wall, to which it goes backward, it goes on looking to the left. -/
theorem backward_walk_keeps_side :
    ∃ c issues, (promenadePack 5.0).compile = .ok (c, issues) ∧ (stroller c 1600.0).interaction = .idle ∧
      ((stroller c 1600.0).player.frameVelocity c).x = 5.0 ∧
      0.0 < ((stroller c 1600.0).stride promenadeScene).x ∧
      ((stroller c 1600.0).move? promenadeScene).map (·.body.position) = some ⟨1600.0, 400.0⟩ ∧
      1600.0 < ((stroller c 1600.0).body.position + (stroller c 1600.0).stride promenadeScene).x ∧
      (stroller c 1600.0).facing = .left ∧
      ((stroller c 1600.0).move? promenadeScene).map (·.facing) = some .left :=
  ⟨_, _, rfl, rfl, by decide +kernel, by decide +kernel, by decide +kernel, by decide +kernel, rfl, by decide +kernel⟩

end DesktopPet
