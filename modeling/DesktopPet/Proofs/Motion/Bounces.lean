import DesktopPet.Proofs.Area.Lines
import DesktopPet.Proofs.Motion.Congruence
import DesktopPet.Proofs.Number.Products

/-!
# Bounces

A step of a flight corrects the body at one line after another. For a pet that is not larger than the area no
correction undoes one before: a body that has come beyond a line ends on that line, and moves away from it or along it
(`bounces_inward`). For each axis the proof goes through the bodies on the way: the body after the walls and the ceiling
(`aloft_left` and its siblings), the one after the floor, and the clamped one.
-/

namespace DesktopPet

namespace Number

/-- The lower end of an interval stays where it is. -/
theorem clamp_least {lo hi : Float32} (ordered : lo ≤ hi) : clamp lo hi lo = lo := by
  rw [clamp, if_neg (lt_irrefl lo)]
  exact if_neg (not_lt_of_le lo hi ordered)

/-- The upper end of an interval is raised to the lower one at most. -/
theorem clamp_maximum {lo x : Float32} (number : x.isNaN = false) : clamp lo (maximum x lo) x = maximum x lo := by
  have raised : maximum x lo = if x < lo then lo else x := by
    rw [maximum, if_neg (by rw [number]; exact Bool.false_ne_true)]
  rw [clamp, ← raised]
  exact if_neg (lt_irrefl _)

end Number

open Number

/-- Coordinates and velocities. -/
def Body.numbers (b : Body) : List Float32 :=
  [b.position.x, b.position.y, b.velocity.x, b.velocity.y]

/-- A rectangle of this size is not larger than the area. -/
structure Bounds.Holds (b : Bounds) (size : Vector2) : Prop where
  wide : ¬ b.right < b.left + size.x
  high : b.ceiling + size.y < b.floor

/-- What is above the ceiling does not reach the floor, for the area is high enough. -/
theorem Bounds.Holds.unreached {b : Bounds} {size : Vector2} (holds : b.Holds size) {y : Float32}
    (above : y < b.ceiling) : ¬ b.floor ≤ y + size.y := by
  intro reached
  have raised := add_le_add_right (le_of_lt _ _ above) (number_of_le _ _ reached).2
    (number_of_le _ _ (le_of_lt _ _ holds.high)).1
  exact not_lt_of_le _ _ (le_trans reached raised) holds.high

namespace Flight

/-- The coordinates and velocities that a step of a flight computes, those of a body after each correction, and the
edges that it compares with the right wall and the floor. -/
def computed (f : Flight) (bounds : Bounds) (t : ThrowSettings) (gravity dt : Float32) : List Float32 :=
  let loss := t.bounceEnergyLoss
  let moved := moved f.body (pull t gravity dt) dt
  let left := bounceLeft moved bounds loss
  let right := bounceRight left bounds loss
  let ceiling := bounceCeiling right bounds loss
  let floor := bounceFloor ceiling bounds loss (pull t gravity dt)
  [moved, left, right, ceiling, floor].flatMap Body.numbers ++
    [left.position.x + left.size.x, ceiling.position.y + ceiling.size.y]

/-- What has become of a body that has flown on: if it has come beyond a line it is on it, as far as the clamp allows,
and its velocity does not point outwards. Only on the floor it may settle. -/
structure BouncesInward (bounds : Bounds) (moved : Body) (outcome : FlightOutcome) (body : Body) : Prop where
  left : moved.position.x < bounds.left → body.position.x = bounds.left ∧ 0.0 ≤ body.velocity.x
  right : bounds.right < moved.position.x + moved.size.x →
    body.position.x = maximum (bounds.right - moved.size.x) bounds.left ∧ body.velocity.x ≤ 0.0
  ceiling : moved.position.y < bounds.ceiling → body.position.y = bounds.ceiling ∧ 0.0 ≤ body.velocity.y
  floor : bounds.floor ≤ moved.position.y + moved.size.y →
    body.position.y = maximum (bounds.floor - moved.size.y) bounds.ceiling ∧ body.velocity.y ≤ 0.0
  settled : outcome = .settled → bounds.floor ≤ moved.position.y + moved.size.y

section Bodies

variable {b : Body} {bounds : Bounds} {loss pull : Float32}

/-! ## Walls and ceiling -/

theorem bounceLeft_frame (b : Body) (bounds : Bounds) (loss : Float32) :
    (bounceLeft b bounds loss).position.y = b.position.y ∧ (bounceLeft b bounds loss).velocity.y = b.velocity.y ∧
      (bounceLeft b bounds loss).size = b.size := by
  unfold bounceLeft
  split <;> exact ⟨rfl, rfl, rfl⟩

theorem bounceRight_frame (b : Body) (bounds : Bounds) (loss : Float32) :
    (bounceRight b bounds loss).position.y = b.position.y ∧ (bounceRight b bounds loss).velocity.y = b.velocity.y ∧
      (bounceRight b bounds loss).size = b.size := by
  unfold bounceRight
  split <;> exact ⟨rfl, rfl, rfl⟩

theorem bounceCeiling_frame (b : Body) (bounds : Bounds) (loss : Float32) :
    (bounceCeiling b bounds loss).position.x = b.position.x ∧ (bounceCeiling b bounds loss).velocity.x = b.velocity.x ∧
      (bounceCeiling b bounds loss).size = b.size := by
  unfold bounceCeiling
  split <;> exact ⟨rfl, rfl, rfl⟩

theorem aloft_size (b : Body) (bounds : Bounds) (loss : Float32) : (aloft b bounds loss).size = b.size := by
  rw [aloft, (bounceCeiling_frame ..).2.2, (bounceRight_frame ..).2.2, (bounceLeft_frame ..).2.2]

/-- A body beyond the left wall is put on it, where it is not beyond the right one. -/
theorem aloft_left (loss : Float32) (beyond : b.position.x < bounds.left)
    (wide : ¬ bounds.right < bounds.left + b.size.x) :
    (aloft b bounds loss).position.x = bounds.left ∧ (aloft b bounds loss).velocity.x = b.velocity.x.abs * loss := by
  obtain ⟨position, velocity, _⟩ := bounceCeiling_frame (bounceRight (bounceLeft b bounds loss) bounds loss) bounds loss
  rw [aloft, position, velocity, bounceLeft, if_pos beyond, bounceRight, if_neg wide]
  exact ⟨rfl, rfl⟩

theorem aloft_right (loss : Float32) (inside : ¬ b.position.x < bounds.left)
    (beyond : bounds.right < b.position.x + b.size.x) :
    (aloft b bounds loss).position.x = bounds.right - b.size.x ∧
      (aloft b bounds loss).velocity.x = -b.velocity.x.abs * loss := by
  obtain ⟨position, velocity, _⟩ := bounceCeiling_frame (bounceRight (bounceLeft b bounds loss) bounds loss) bounds loss
  rw [aloft, position, velocity, bounceLeft, if_neg inside, bounceRight, if_pos beyond]
  exact ⟨rfl, rfl⟩

/-- On the way up and down only the ceiling counts. -/
theorem aloft_vertical (b : Body) (bounds : Bounds) (loss : Float32) :
    (aloft b bounds loss).position.y = (if b.position.y < bounds.ceiling then bounds.ceiling else b.position.y) ∧
      (aloft b bounds loss).velocity.y =
        if b.position.y < bounds.ceiling then b.velocity.y.abs * loss else b.velocity.y := by
  obtain ⟨position, velocity, _⟩ := bounceLeft_frame b bounds loss
  obtain ⟨position', velocity', _⟩ := bounceRight_frame (bounceLeft b bounds loss) bounds loss
  rw [aloft, bounceCeiling, position', velocity', position, velocity]
  split
  · exact ⟨rfl, rfl⟩
  · exact ⟨position'.trans position, velocity'.trans velocity⟩

/-! ## The floor -/

/-- The floor has no part in where a body is between the walls, and takes away from its speed there. -/
theorem bounceFloor_horizontal (b : Body) (bounds : Bounds) (loss pull : Float32) :
    (bounceFloor b bounds loss pull).position.x = b.position.x ∧ (bounceFloor b bounds loss pull).size = b.size ∧
      ((bounceFloor b bounds loss pull).velocity.x = b.velocity.x ∨
        (bounceFloor b bounds loss pull).velocity.x = b.velocity.x * loss) := by
  unfold bounceFloor
  split
  · exact ⟨rfl, rfl, .inr rfl⟩
  · exact ⟨rfl, rfl, .inl rfl⟩

private theorem bounceFloor_nonneg (inward : 0.0 ≤ b.velocity.x) (positive : 0.0 ≤ loss)
    (number : (bounceFloor b bounds loss pull).velocity.x.isNaN = false) :
    0.0 ≤ (bounceFloor b bounds loss pull).velocity.x := by
  rcases (bounceFloor_horizontal b bounds loss pull).2.2 with same | slowed
  · rw [same]
    exact inward
  · rw [slowed] at number ⊢
    exact mul_nonneg inward positive number

private theorem bounceFloor_nonpos (inward : b.velocity.x ≤ 0.0) (positive : 0.0 ≤ loss)
    (number : (bounceFloor b bounds loss pull).velocity.x.isNaN = false) :
    (bounceFloor b bounds loss pull).velocity.x ≤ 0.0 := by
  rcases (bounceFloor_horizontal b bounds loss pull).2.2 with same | slowed
  · rw [same]
    exact inward
  · rw [slowed] at number ⊢
    exact mul_nonpos inward positive number

/-- What meets the floor is put on it, and rebounds or stays. -/
theorem bounceFloor_landed (landed : reachesFloor b bounds = true) (positive : 0.0 ≤ loss)
    (number : (bounceFloor b bounds loss pull).velocity.y.isNaN = false) :
    (bounceFloor b bounds loss pull).position.y = bounds.floor - b.size.y ∧
      (bounceFloor b bounds loss pull).velocity.y ≤ 0.0 := by
  rw [bounceFloor, if_pos landed] at number ⊢
  refine ⟨rfl, ?_⟩
  dsimp only at number ⊢
  split at number
  next weak =>
    rw [if_pos weak]
    decide
  next strong =>
    rw [if_neg strong]
    have rebound := neg_number number
    rw [neg_neg_eq] at rebound
    exact neg_nonpos ((abs_signed b.velocity.y).mul_nonneg positive rebound)

theorem bounceFloor_aloft (aloft : ¬ reachesFloor b bounds = true) : bounceFloor b bounds loss pull = b :=
  if_neg aloft

/-- A body reaches the floor behind walls and ceiling if it did before them. -/
theorem aloft_reachesFloor (loss : Float32) (fits : bounds.Holds b.size) :
    reachesFloor (aloft b bounds loss) bounds = true ↔ bounds.floor ≤ b.position.y + b.size.y := by
  rw [reachesFloor, decide_eq_true_iff, aloft_size, (aloft_vertical b bounds loss).1]
  split
  next beyond =>
    have low : ¬ bounds.floor ≤ bounds.ceiling + b.size.y := fun reached => not_lt_of_le _ _ reached fits.high
    exact ⟨fun reached => absurd reached low, fun reached => absurd reached (fits.unreached beyond)⟩
  · exact Iff.rfl

end Bodies

/-! ## The whole step -/

section Steps

variable {f : Flight} {bounds : Bounds} {t : ThrowSettings} {gravity dt : Float32}

/-- The body of a flight behind all its bounces. -/
def bounced (f : Flight) (bounds : Bounds) (t : ThrowSettings) (gravity dt : Float32) : Body :=
  bounceFloor (aloft (moved f.body (pull t gravity dt) dt) bounds t.bounceEnergyLoss) bounds t.bounceEnergyLoss
    (pull t gravity dt)

private theorem step?_clamped {outcome : FlightOutcome} {flown : Flight}
    (stepped : f.step? bounds t gravity dt = some (outcome, flown)) :
    bounds.left ≤ bounds.maxX f.body.size ∧ bounds.ceiling ≤ bounds.maxY f.body.size ∧
      flown.body = { f.bounced bounds t gravity dt with
        position :=
          ⟨clamp bounds.left (bounds.maxX f.body.size) (f.bounced bounds t gravity dt).position.x,
            clamp bounds.ceiling (bounds.maxY f.body.size) (f.bounced bounds t gravity dt).position.y⟩ } ∧
      (outcome = .settled →
        reachesFloor (aloft (moved f.body (pull t gravity dt) dt) bounds t.bounceEnergyLoss) bounds = true) := by
  have size : (f.bounced bounds t gravity dt).size = f.body.size := by
    rw [bounced, (bounceFloor_horizontal ..).2.1, aloft_size]
    rfl
  rw [step?_parts] at stepped
  obtain ⟨place, clamped, same⟩ := Option.bind_eq_some_iff.mp stepped
  obtain ⟨rfl, rfl⟩ := Prod.mk.inj (Option.some.inj same)
  change bounds.clampRect? (f.bounced bounds t gravity dt).position (f.bounced bounds t gravity dt).size = _ at clamped
  rw [size, Bounds.clampRect?] at clamped
  split at clamped
  next room =>
    cases Option.some.inj clamped
    refine ⟨room.1, room.2, rfl, fun settled => ?_⟩
    rw [outcome] at settled
    split at settled
    · cases settled
    · split at settled
      next rests => exact (Bool.and_eq_true_iff.mp rests).1
      · cases settled
  · cases clamped

/-- The numbers among those computed on which the bounces depend. -/
theorem computed_numbers (numbers : ∀ x ∈ f.computed bounds t gravity dt, x.isNaN = false) :
    let moved := moved f.body (pull t gravity dt) dt
    let aloft := aloft moved bounds t.bounceEnergyLoss
    ((bounceLeft moved bounds t.bounceEnergyLoss).position.x +
        (bounceLeft moved bounds t.bounceEnergyLoss).size.x).isNaN = false ∧
      aloft.position.x.isNaN = false ∧ aloft.velocity.x.isNaN = false ∧ aloft.velocity.y.isNaN = false ∧
      (f.bounced bounds t gravity dt).position.y.isNaN = false ∧
      (f.bounced bounds t gravity dt).velocity.x.isNaN = false ∧
      (f.bounced bounds t gravity dt).velocity.y.isNaN = false := by
  refine ⟨numbers _ ?_, numbers _ ?_, numbers _ ?_, numbers _ ?_, numbers _ ?_, numbers _ ?_, numbers _ ?_⟩ <;>
    simp [computed, Body.numbers, aloft, bounced]

section Corrections

variable (loss : 0.0 ≤ t.bounceEnergyLoss) (fits : bounds.Holds f.body.size)
  (numbers : ∀ x ∈ f.computed bounds t gravity dt, x.isNaN = false)

include loss fits numbers

private theorem bounced_left (beyond : (moved f.body (pull t gravity dt) dt).position.x < bounds.left) :
    (f.bounced bounds t gravity dt).position.x = bounds.left ∧ 0.0 ≤ (f.bounced bounds t gravity dt).velocity.x := by
  obtain ⟨_, _, aloft, _, _, along, _⟩ := computed_numbers numbers
  obtain ⟨position, velocity⟩ := aloft_left t.bounceEnergyLoss beyond fits.wide
  refine ⟨(bounceFloor_horizontal ..).1.trans position, bounceFloor_nonneg ?_ loss along⟩
  rw [velocity] at aloft ⊢
  exact (abs_signed _).mul_nonneg loss aloft

/-- What is beyond the right wall is not beyond the left one, for the area is wide enough. -/
private theorem bounced_right
    (beyond : bounds.right < (moved f.body (pull t gravity dt) dt).position.x + f.body.size.x) :
    (f.bounced bounds t gravity dt).position.x = bounds.right - f.body.size.x ∧
      (bounds.right - f.body.size.x).isNaN = false ∧ (f.bounced bounds t gravity dt).velocity.x ≤ 0.0 := by
  obtain ⟨edge, place, aloft, _, _, along, _⟩ := computed_numbers numbers
  have inside : ¬ (moved f.body (pull t gravity dt) dt).position.x < bounds.left := by
    intro left
    rw [bounceLeft, if_pos left] at edge
    have raised := add_le_add_right (le_of_lt _ _ left) (number_of_le _ _ (le_of_lt _ _ beyond)).2 edge
    exact fits.wide (lt_of_lt_of_le beyond raised)
  obtain ⟨position, velocity⟩ := aloft_right t.bounceEnergyLoss inside beyond
  rw [position] at place
  refine ⟨(bounceFloor_horizontal ..).1.trans position, place, bounceFloor_nonpos ?_ loss along⟩
  rw [velocity, neg_mul_eq] at aloft ⊢
  have speed := neg_number aloft
  rw [neg_neg_eq] at speed
  exact neg_nonpos ((abs_signed _).mul_nonneg loss speed)

private theorem bounced_ceiling (beyond : (moved f.body (pull t gravity dt) dt).position.y < bounds.ceiling) :
    (f.bounced bounds t gravity dt).position.y = bounds.ceiling ∧ 0.0 ≤ (f.bounced bounds t gravity dt).velocity.y := by
  obtain ⟨_, _, _, aloft, _, _, _⟩ := computed_numbers numbers
  have landing := aloft_reachesFloor (b := moved f.body (pull t gravity dt) dt) t.bounceEnergyLoss fits
  have unreached := mt landing.mp (fits.unreached beyond)
  obtain ⟨position, velocity⟩ := aloft_vertical (moved f.body (pull t gravity dt) dt) bounds t.bounceEnergyLoss
  rw [if_pos beyond] at position velocity
  rw [bounced, bounceFloor_aloft unreached, position, velocity]
  rw [velocity] at aloft
  exact ⟨rfl, (abs_signed _).mul_nonneg loss aloft⟩

omit fits in
private theorem bounced_floor
    (landed : reachesFloor (aloft (moved f.body (pull t gravity dt) dt) bounds t.bounceEnergyLoss) bounds = true) :
    (f.bounced bounds t gravity dt).position.y = bounds.floor - f.body.size.y ∧
      (bounds.floor - f.body.size.y).isNaN = false ∧ (f.bounced bounds t gravity dt).velocity.y ≤ 0.0 := by
  obtain ⟨_, _, _, _, height, _, upright⟩ := computed_numbers numbers
  obtain ⟨position, velocity⟩ := bounceFloor_landed landed loss upright
  rw [aloft_size] at position
  exact ⟨position, (congrArg Float32.isNaN position).symm.trans height, velocity⟩

end Corrections

end Steps

/-- Pets that are not larger than the area bounce inwards, off corners too: after a step of a flight without NaN, and
with a loss of energy that is not negative, a body that came beyond a line is on it, as far as the clamp allows, and
does not move outwards. There is a step for every left wall that is a number. -/
theorem bounces_inward (f : Flight) (bounds : Bounds) (t : ThrowSettings) (gravity dt : Float32)
    (loss : 0.0 ≤ t.bounceEnergyLoss) (fits : bounds.Holds f.body.size)
    (numbers : ∀ x ∈ f.computed bounds t gravity dt, x.isNaN = false) :
    ((f.step? bounds t gravity dt).isSome = true ↔ bounds.left.isNaN = false) ∧
      ∀ outcome flown, f.step? bounds t gravity dt = some (outcome, flown) →
        BouncesInward bounds (moved f.body (pull t gravity dt) dt) outcome flown.body := by
  refine ⟨⟨fun answers => ?_, fun left => ?_⟩, fun outcome flown stepped => ?_⟩
  · obtain ⟨⟨outcome, flown⟩, stepped⟩ := Option.isSome_iff_exists.mp answers
    exact (number_of_le _ _ (step?_clamped stepped).1).1
  · have sum := (number_of_le _ _ (le_of_lt _ _ fits.high)).1
    rw [add_comm] at sum
    obtain ⟨place, clamped⟩ := Option.isSome_iff_exists.mp (bounds.hasRoom left (number_of_add sum)
      (f.bounced bounds t gravity dt).position (f.bounced bounds t gravity dt).size)
    rw [step?_parts]
    exact Option.isSome_iff_exists.mpr ⟨_, Option.bind_eq_some_iff.mpr ⟨place, clamped, rfl⟩⟩
  · obtain ⟨wide, high, same, settles⟩ := step?_clamped stepped
    have landing := aloft_reachesFloor (b := moved f.body (pull t gravity dt) dt) t.bounceEnergyLoss fits
    rw [same]
    constructor
    case left =>
      intro beyond
      obtain ⟨position, inward⟩ := bounced_left loss fits numbers beyond
      exact ⟨by rw [position]; exact clamp_least wide, inward⟩
    case right =>
      intro beyond
      obtain ⟨position, number, inward⟩ := bounced_right loss fits numbers beyond
      exact ⟨by rw [position]; exact clamp_maximum number, inward⟩
    case ceiling =>
      intro beyond
      obtain ⟨position, inward⟩ := bounced_ceiling loss fits numbers beyond
      exact ⟨by rw [position]; exact clamp_least high, inward⟩
    case floor =>
      intro reached
      obtain ⟨position, number, inward⟩ := bounced_floor loss numbers (landing.mpr reached)
      exact ⟨by rw [position]; exact clamp_maximum number, inward⟩
    case settled => exact fun settled => landing.mp (settles settled)

/-- A flight into the lower right corner. -/
def cornerFlight : Flight :=
  { body := { position := ⟨900.0, 420.0⟩, velocity := ⟨800.0, 300.0⟩, size := ⟨64.0, 64.0⟩ }, timer := 0.5 }

def courtyard : Bounds :=
  { left := 0.0, right := 1000.0, ceiling := 0.0, floor := 500.0 }

theorem bounces_inward_corner :
    (0.0 : Float32) ≤ ({} : ThrowSettings).bounceEnergyLoss ∧ courtyard.Holds cornerFlight.body.size ∧
      (∀ x ∈ cornerFlight.computed courtyard {} 980.0 0.125, x.isNaN = false) ∧
      ∃ outcome flown, cornerFlight.step? courtyard {} 980.0 0.125 = some (outcome, flown) ∧
        outcome = .flying ∧ flown.body.position = ⟨936.0, 436.0⟩ ∧ flown.body.velocity.x ≤ 0.0 ∧
        flown.body.velocity.y ≤ 0.0 := by
  have loss : (0.0 : Float32) ≤ ({} : ThrowSettings).bounceEnergyLoss := by decide +kernel
  have fits : courtyard.Holds cornerFlight.body.size := ⟨by decide +kernel, by decide +kernel⟩
  have numbers : ∀ x ∈ cornerFlight.computed courtyard {} 980.0 0.125, x.isNaN = false := by decide +kernel
  obtain ⟨answers, bounces⟩ := bounces_inward cornerFlight courtyard {} 980.0 0.125 loss fits numbers
  obtain ⟨⟨outcome, flown⟩, stepped⟩ := Option.isSome_iff_exists.mp (answers.mpr (by decide +kernel))
  have lands : (cornerFlight.step? courtyard {} 980.0 0.125).map (fun out => (out.1, out.2.body.position)) =
      some (.flying, ⟨936.0, 436.0⟩) := by decide +kernel
  rw [stepped] at lands
  obtain ⟨flies, place⟩ := Prod.mk.inj (Option.some.inj lands)
  have inward := bounces outcome flown stepped
  exact ⟨loss, fits, numbers, outcome, flown, stepped, flies, place, (inward.right (by decide +kernel)).2,
    (inward.floor (by decide +kernel)).2⟩

end Flight

end DesktopPet
