import DesktopPet.Contact
import DesktopPet.Proofs.Number.Sums

/-!
# Touching a wall and being close to it

A pet that touches a wall does so with the edge that faces it. Where the reach of closeness is at least the slack of
contact, that edge is close to the wall. The flags judge closeness to both walls at the left edge, though: on the left
this is the edge that touches, and on the right a pet must be narrow enough (`touching_edge_close`).
-/

namespace DesktopPet

open Number

/-- The distance between the walls is not negative. -/
theorem Bounds.width_signed (b : Bounds) : Signed .positive b.width.toModel.unpack := by
  rw [Bounds.width, positivePart]
  split
  next above => exact signed_of_pos above
  · exact rfl

/-- Only a positive fraction of the span reaches as far as the slack of contact. -/
theorem Bounds.reach_pos (b : Bounds) {fraction : Float32} (reach : Contact.slack ≤ b.width * fraction) :
    0.0 < fraction :=
  pos_of_mul_pos b.width_signed (lt_of_lt_of_le (by decide : (0.0 : Float32) < Contact.slack) reach)

section Walls

variable {position size : Vector2} {area : Area} {fraction : Float32}

theorem Area.isClose_left (positive : 0.0 < fraction) :
    area.isClose position .leftWall fraction = true ↔
      position.x ≤ area.bounds.left + area.bounds.width * fraction := by
  rw [Area.isClose, positivePart, if_pos positive]
  exact decide_eq_true_iff

theorem Area.isClose_right (positive : 0.0 < fraction) :
    area.isClose position .rightWall fraction = true ↔
      area.bounds.right - area.bounds.width * fraction ≤ position.x := by
  rw [Area.isClose, positivePart, if_pos positive]
  exact decide_eq_true_iff

theorem Contact.onLeftWall_iff :
    (Contact.ofRect position size area fraction).onLeftWall = true ↔
      position.x ≤ area.bounds.left + Contact.slack :=
  decide_eq_true_iff

theorem Contact.onRightWall_iff :
    (Contact.ofRect position size area fraction).onRightWall = true ↔
      area.bounds.right - Contact.slack ≤ position.x + size.x :=
  decide_eq_true_iff

/-- A left edge that touches the left wall is close to it. -/
theorem Area.left_edge_close (left : area.bounds.left.isFinite = true)
    (reach : Contact.slack ≤ area.bounds.width * fraction)
    (touching : position.x ≤ area.bounds.left + Contact.slack) :
    area.isClose position .leftWall fraction = true := by
  obtain ⟨numberSlack, numberReach⟩ := number_of_le _ _ reach
  have farther := add_le_add_left reach (add_number left numberSlack) (add_number left numberReach)
  exact (Area.isClose_left (area.bounds.reach_pos reach)).mpr (le_trans touching farther)

/-- A right edge that touches the right wall is close to it. -/
theorem Area.right_edge_close (right : area.bounds.right.isFinite = true)
    (reach : Contact.slack ≤ area.bounds.width * fraction)
    (touching : area.bounds.right - Contact.slack ≤ position.x) :
    area.isClose position .rightWall fraction = true := by
  obtain ⟨numberSlack, numberReach⟩ := number_of_le _ _ reach
  have farther := sub_le_sub_left reach (sub_number right numberReach) (sub_number right numberSlack)
  exact (Area.isClose_right (area.bounds.reach_pos reach)).mpr (le_trans farther touching)

/-- A pet that cannot touch the right wall from where its reach begins is close to the wall whenever it touches it. -/
theorem Area.corner_close (right : area.bounds.right.isFinite = true)
    (reach : Contact.slack ≤ area.bounds.width * fraction)
    (narrow : area.bounds.right - area.bounds.width * fraction + size.x < area.bounds.right - Contact.slack)
    (touching : area.bounds.right - Contact.slack ≤ position.x + size.x) :
    area.isClose position .rightWall fraction = true := by
  rw [Area.isClose_right (area.bounds.reach_pos reach)]
  have numberStart : (area.bounds.right - area.bounds.width * fraction).isNaN = false :=
    sub_number right (number_of_le _ _ reach).2
  have numberEdge : (position.x + size.x).isNaN = false := (number_of_le _ _ touching).2
  have numberCorner : position.x.isNaN = false := by
    rw [add_comm] at numberEdge
    exact number_of_add numberEdge
  refine le_of_not_lt _ _ numberCorner numberStart fun before => ?_
  -- left of the start of the reach, the right edge does not get as far as the wall
  have short : position.x + size.x ≤ area.bounds.right - area.bounds.width * fraction + size.x :=
    add_le_add_right (le_of_lt _ _ before) numberEdge (number_of_le _ _ (le_of_lt _ _ narrow)).1
  exact not_lt_of_le _ _ touching (lt_of_le_of_lt short narrow)

end Walls

/-- Where a fraction of a finite span is at least the slack of contact, the edge with which a pet touches a wall is
close to that wall. The flag of the left wall says so for every pet. The flag of the right wall, which is judged at the
left edge, says so for pets that cannot touch the wall from before the reach. -/
theorem touching_edge_close (position size : Vector2) (area : Area) (fraction : Float32)
    (left : area.bounds.left.isFinite = true) (right : area.bounds.right.isFinite = true)
    (reach : Contact.slack ≤ area.bounds.width * fraction) :
    let contact := Contact.ofRect position size area fraction
    (contact.onLeftWall = true → contact.closeToLeftWall = true) ∧
      (contact.onRightWall = true →
        area.isClose ⟨position.x + size.x, position.y⟩ .rightWall fraction = true) ∧
      (area.bounds.right - area.bounds.width * fraction + size.x < area.bounds.right - Contact.slack →
        contact.onRightWall = true → contact.closeToRightWall = true) := by
  intro contact
  refine ⟨fun touching => ?_, fun touching => ?_, fun narrow touching => ?_⟩
  · exact Area.left_edge_close left reach (Contact.onLeftWall_iff.mp touching)
  · exact Area.right_edge_close right reach (Contact.onRightWall_iff.mp touching)
  · exact Area.corner_close right reach narrow (Contact.onRightWall_iff.mp touching)

/-- A pet of 64 pixels in the lower right corner of a screen with a reach of 160 pixels. -/
theorem touching_edge_close_corner :
    let contact := Contact.ofRect ⟨836.0, 386.0⟩ ⟨64.0, 64.0⟩ (Area.ofScreen 1000.0 500.0 {}) 0.2
    contact.onRightWall = true ∧ contact.closeToRightWall = true := by
  intro contact
  have touching : contact.onRightWall = true := by decide +kernel
  have flags := touching_edge_close ⟨836.0, 386.0⟩ ⟨64.0, 64.0⟩ (Area.ofScreen 1000.0 500.0 {}) 0.2
    (by decide +kernel) (by decide +kernel) (by decide +kernel)
  exact ⟨touching, flags.2.2 (by decide +kernel) touching⟩

/-- On the same screen a pet of 200 pixels touches the right wall, but its left edge is 40 pixels before the reach and
the pet is not close to the wall. -/
theorem wide_pet_touches_unclose :
    let area := Area.ofScreen 1000.0 500.0 {}
    let size : Vector2 := ⟨200.0, 64.0⟩
    let contact := Contact.ofRect ⟨700.0, 200.0⟩ size area 0.2
    0.0 ≤ size.x ∧ 0.0 ≤ size.y ∧ area.bounds.left ≤ area.bounds.right ∧ area.bounds.left.isFinite = true ∧
      area.bounds.right.isFinite = true ∧ Contact.slack ≤ area.bounds.width * 0.2 ∧
      contact.onRightWall = true ∧ contact.closeToRightWall = false := by
  decide +kernel

end DesktopPet
