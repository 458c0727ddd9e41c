import DesktopPet.Motion
import DesktopPet.Proofs.Area.Congruence

/-!
# Motion along a congruence

The same bodies move and fly in the same way under the same constants: `Flight.step?_related` follows a step of a
flight through its bounces, one lemma for each line.
-/

namespace DesktopPet

open Number (Congruence)

/-! ## Relations -/

section Relations

variable (R : Float32 → Float32 → Prop)

/-- The same constants of throwing. -/
structure ThrowSettings.Related (s t : ThrowSettings) : Prop where
  maxVelocity : R s.maxVelocity t.maxVelocity
  minThrowVelocity : R s.minThrowVelocity t.minThrowVelocity
  throwDuration : R s.throwDuration t.throwDuration
  bounceEnergyLoss : R s.bounceEnergyLoss t.bounceEnergyLoss
  gravityMultiplier : R s.gravityMultiplier t.gravityMultiplier
  timeMultiplier : R s.timeMultiplier t.timeMultiplier
  fallbackMultiplier : R s.fallbackMultiplier t.fallbackMultiplier
  settleVelocity : R s.settleVelocity t.settleVelocity

/-- The same body. -/
structure Body.Related (b c : Body) : Prop where
  position : b.position.Related R c.position
  velocity : b.velocity.Related R c.velocity
  size : b.size.Related R c.size

/-- The same flight. -/
structure Flight.Related (f g : Flight) : Prop where
  body : f.body.Related R g.body
  timer : g.timer = f.timer

end Relations

section Bodies

variable {R : Float32 → Float32 → Prop} {b c : Body} {v w : Vector2} (bodies : b.Related R c) (vectors : v.Related R w)

include bodies vectors

theorem Body.Related.place : Body.Related R { b with position := v } { c with position := w } :=
  ⟨vectors, bodies.velocity, bodies.size⟩

theorem Body.Related.speed : Body.Related R { b with velocity := v } { c with velocity := w } :=
  ⟨bodies.position, vectors, bodies.size⟩

end Bodies

/-- A computation that may have no answer, and one that goes on with its answer. -/
theorem rel_bind {α β γ δ : Type} {S : α → β → Prop} {T : γ → δ → Prop} {a : Option α} {b : Option β}
    {f : α → Option γ} {g : β → Option δ} (first : Option.Rel S a b)
    (next : ∀ x y, S x y → Option.Rel T (f x) (g y)) : Option.Rel T (a.bind f) (b.bind g) := by
  cases first with
  | some related => exact next _ _ related
  | none => exact .none

private theorem rel_getD {α β : Type} {S : α → β → Prop} {a : Option α} {b : Option β} {x : α} {y : β}
    (options : Option.Rel S a b) (others : S x y) : S (a.getD x) (b.getD y) := by
  cases options with
  | some related => exact related
  | none => exact others

section Steps

variable {R : Float32 → Float32 → Prop} {R64 : Float → Float → Prop} (cong : Congruence R R64)

include cong

/-! ## Walking and letting go -/

theorem Facing.ofMotion?_related {x y : Float32} (same : R x y) : Facing.ofMotion? x = Facing.ofMotion? y := by
  simp only [Facing.ofMotion?, cong.lt (cong.refl 0.0) same, cong.lt same (cong.refl 0.0)]

theorem Facing.orientAnchor_related (facing : Facing) (anchor : Vector2) {width width' : Float32}
    (same : R width width') : (facing.orientAnchor anchor width).Related R (facing.orientAnchor anchor width') := by
  cases facing with
  | left => exact .refl cong anchor
  | right => exact ⟨cong.sub same (cong.refl anchor.x), cong.refl anchor.y⟩

/-- A velocity that is usable at all is turned into a release: too fast ones are cut to the limit. -/
def Release.ofVelocity (raw : Vector2) (t : ThrowSettings) : Release :=
  let raw := if raw.isFinite then raw else .zero
  { rawSpeed := raw.length, velocity := raw.clampLength (Number.positivePart t.maxVelocity) }

theorem Release.ofVelocity_related {raw raw' : Vector2} (same : raw.Related R raw') {t t' : ThrowSettings}
    (constants : t.Related R t') :
    (Release.ofVelocity raw t).rawSpeed = (Release.ofVelocity raw' t').rawSpeed ∧
      (Release.ofVelocity raw t).velocity.Related R (Release.ofVelocity raw' t').velocity := by
  have finite : (if raw.isFinite then raw else .zero).Related R (if raw'.isFinite then raw' else .zero) := by
    rw [same.isFinite cong]
    split
    · exact same
    · exact .refl cong .zero
  exact ⟨finite.length cong, finite.clampLength cong (cong.positivePart constants.maxVelocity)⟩

theorem Release.ofDrag_related {displacement displacement' : Vector2} (moved : displacement.Related R displacement')
    (elapsed : Float) {t t' : ThrowSettings} (constants : t.Related R t') :
    (Release.ofDrag displacement elapsed t).rawSpeed = (Release.ofDrag displacement' elapsed t').rawSpeed ∧
      (Release.ofDrag displacement elapsed t).velocity.Related R
        (Release.ofDrag displacement' elapsed t').velocity := by
  have velocity := (moved.divide cong (Number.narrow elapsed)).scale cong constants.timeMultiplier
  have timed : Option.Rel (Vector2.Related R)
      (if 0.0 < elapsed ∧ elapsed.isFinite then
        let v := (displacement.divide (Number.narrow elapsed)).scale t.timeMultiplier
        if v.isFinite then some v else none
      else none)
      (if 0.0 < elapsed ∧ elapsed.isFinite then
        let v := (displacement'.divide (Number.narrow elapsed)).scale t'.timeMultiplier
        if v.isFinite then some v else none
      else none) := by
    split
    · dsimp only
      rw [velocity.isFinite cong]
      split
      · exact .some velocity
      · exact .none
    · exact .none
  exact Release.ofVelocity_related cong (rel_getD timed (moved.scale cong constants.fallbackMultiplier)) constants

theorem walk_related (frameVelocity : Vector2) (facing : Facing) (dt : Float32) {rate rate' : Float32}
    (rates : R rate rate') :
    (walk frameVelocity facing dt rate).Related R (walk frameVelocity facing dt rate') :=
  Vector2.Related.scale cong (.refl cong _) rates

/-! ## Flying -/

namespace Flight

variable {b b' : Body} (bodies : b.Related R b') (bounds : Bounds) {loss loss' : Float32} (losses : R loss loss')

include bodies

theorem reachesFloor_related : reachesFloor b bounds = reachesFloor b' bounds :=
  decide_eq_decide.mpr (cong.le (cong.refl bounds.floor) (cong.add bodies.position.y bodies.size.y))

include losses

theorem bounceLeft_related : (bounceLeft b bounds loss).Related R (bounceLeft b' bounds loss') := by
  unfold bounceLeft
  simp only [cong.lt bodies.position.x (cong.refl bounds.left)]
  split
  · exact ⟨⟨cong.refl _, bodies.position.y⟩, ⟨cong.mul (cong.abs bodies.velocity.x) losses, bodies.velocity.y⟩,
      bodies.size⟩
  · exact bodies

theorem bounceRight_related : (bounceRight b bounds loss).Related R (bounceRight b' bounds loss') := by
  unfold bounceRight
  simp only [cong.lt (cong.refl bounds.right) (cong.add bodies.position.x bodies.size.x)]
  split
  · exact ⟨⟨cong.sub (cong.refl _) bodies.size.x, bodies.position.y⟩,
      ⟨cong.mul (cong.neg (cong.abs bodies.velocity.x)) losses, bodies.velocity.y⟩, bodies.size⟩
  · exact bodies

theorem bounceCeiling_related : (bounceCeiling b bounds loss).Related R (bounceCeiling b' bounds loss') := by
  unfold bounceCeiling
  simp only [cong.lt bodies.position.y (cong.refl bounds.ceiling)]
  split
  · exact ⟨⟨bodies.position.x, cong.refl _⟩, ⟨bodies.velocity.x, cong.mul (cong.abs bodies.velocity.y) losses⟩,
      bodies.size⟩
  · exact bodies

theorem bounceFloor_related {gravity gravity' : Float32} (steps : R gravity gravity') :
    (bounceFloor b bounds loss gravity).Related R (bounceFloor b' bounds loss' gravity') := by
  have rebound := cong.mul (cong.abs bodies.velocity.y) losses
  unfold bounceFloor
  simp only [reachesFloor_related cong bodies bounds, cong.le rebound (cong.abs steps)]
  split
  · refine ⟨⟨bodies.position.x, cong.sub (cong.refl _) bodies.size.y⟩, ⟨cong.mul bodies.velocity.x losses, ?_⟩,
      bodies.size⟩
    dsimp only
    split
    · exact cong.refl _
    · exact cong.neg rebound
  · exact bodies

end Flight

/-- The change of velocity by gravity in `dt` seconds. -/
def Flight.pull (t : ThrowSettings) (gravity dt : Float32) : Float32 :=
  gravity * t.gravityMultiplier * dt

/-- A body after `dt` seconds of flight, before it meets any line. -/
def Flight.moved (b : Body) (pull dt : Float32) : Body :=
  let velocity : Vector2 := ⟨b.velocity.x, b.velocity.y + pull⟩
  { b with velocity, position := b.position + velocity.scale dt }

/-- A body after its bounces off walls and ceiling. -/
def Flight.aloft (b : Body) (bounds : Bounds) (loss : Float32) : Body :=
  bounceCeiling (bounceRight (bounceLeft b bounds loss) bounds loss) bounds loss

/-- What a step of a flight came to, from the time it has taken and whether the body has met the floor. -/
def Flight.outcome (t : ThrowSettings) (landed : Bool) (b : Body) (timer : Float32) : FlightOutcome :=
  if t.throwDuration ≤ timer then .timedOut
  else if landed && b.velocity.length < t.settleVelocity then .settled
  else .flying

omit cong in
/-- A step of a flight in its parts. -/
theorem Flight.step?_parts (f : Flight) (bounds : Bounds) (t : ThrowSettings) (gravity dt : Float32) :
    f.step? bounds t gravity dt =
      let aloft := aloft (moved f.body (pull t gravity dt) dt) bounds t.bounceEnergyLoss
      let body := bounceFloor aloft bounds t.bounceEnergyLoss (pull t gravity dt)
      (bounds.clampRect? body.position body.size).bind fun position =>
        some (outcome t (reachesFloor aloft bounds) { body with position } (f.timer + dt),
          { body := { body with position }, timer := f.timer + dt }) :=
  rfl

theorem Flight.moved_related {b b' : Body} (bodies : b.Related R b') {pull pull' : Float32} (pulls : R pull pull')
    (dt : Float32) : (moved b pull dt).Related R (moved b' pull' dt) := by
  have velocity : Vector2.Related R ⟨b.velocity.x, b.velocity.y + pull⟩ ⟨b'.velocity.x, b'.velocity.y + pull'⟩ :=
    ⟨bodies.velocity.x, cong.add bodies.velocity.y pulls⟩
  exact ⟨bodies.position.add cong (velocity.scale cong (cong.refl dt)), velocity, bodies.size⟩

theorem Flight.outcome_related {b b' : Body} (bodies : b.Related R b') {t t' : ThrowSettings}
    (constants : t.Related R t') (landed : Bool) (timer : Float32) :
    outcome t landed b timer = outcome t' landed b' timer := by
  unfold outcome
  rw [bodies.velocity.length cong]
  simp only [cong.le constants.throwDuration (cong.refl timer),
    cong.lt (cong.refl b'.velocity.length) constants.settleVelocity]

theorem Flight.step?_related {f f' : Flight} (flights : f.Related R f') (bounds : Bounds) {t t' : ThrowSettings}
    (constants : t.Related R t') {gravity gravity' : Float32} (gravities : R gravity gravity') (dt : Float32) :
    Option.Rel (fun x y => x.1 = y.1 ∧ x.2.Related R y.2) (f.step? bounds t gravity dt)
      (f'.step? bounds t' gravity' dt) := by
  have losses := constants.bounceEnergyLoss
  have pulls : R (pull t gravity dt) (pull t' gravity' dt) :=
    cong.mul (cong.mul gravities constants.gravityMultiplier) (cong.refl dt)
  have aloft : (aloft (moved f.body (pull t gravity dt) dt) bounds t.bounceEnergyLoss).Related R
      (aloft (moved f'.body (pull t' gravity' dt) dt) bounds t'.bounceEnergyLoss) :=
    bounceCeiling_related cong (bounceRight_related cong
      (bounceLeft_related cong (moved_related cong flights.body pulls dt) bounds losses) bounds losses) bounds losses
  have landed := bounceFloor_related cong aloft bounds losses pulls
  rw [step?_parts, step?_parts, flights.timer]
  refine rel_bind (Bounds.clampRect?_related cong landed.position landed.size bounds) fun place place' places => ?_
  have bodies := Body.Related.mk (R := R) (b := { bounceFloor _ bounds _ _ with position := place })
    (c := { bounceFloor _ bounds _ _ with position := place' }) places landed.velocity landed.size
  rw [reachesFloor_related cong aloft bounds, outcome_related cong bodies constants]
  exact .some ⟨rfl, bodies, rfl⟩

end Steps

end DesktopPet
