import DesktopPet.Area
import DesktopPet.Proofs.Number.Magnitude
import DesktopPet.Proofs.Number.Zeros

/-!
# The lines of a screen

On a screen of finite size, margins that are numbers give lines that are numbers and do not cross, so that there
is always room to clamp a rectangle to. The lines are the same for the same screen and margins.
-/

namespace DesktopPet

/-! ## Lines that do not cross -/

/-- No margin is NaN. -/
structure Margins.AreNumbers (m : Margins) : Prop where
  floor : m.floor.isNaN = false
  ceiling : m.ceiling.isNaN = false
  left : m.left.isNaN = false
  right : m.right.isNaN = false

/-- No line is NaN, and lines that face each other do not cross. -/
structure Bounds.Ordered (b : Bounds) : Prop where
  left : b.left.isNaN = false
  right : b.right.isNaN = false
  ceiling : b.ceiling.isNaN = false
  floor : b.floor.isNaN = false
  walls : b.left ≤ b.right
  span : b.ceiling ≤ b.floor

/-- A margin may be infinite: its part of the screen is finite all the same. -/
theorem margin_number (extent percent : Float32) (finite : extent.isFinite = true) (number : percent.isNaN = false) :
    (extent * (Number.clamp 0.0 100.0 percent / 100.0)).isNaN = false := by
  obtain ⟨above, below⟩ := Number.clamp_between 0.0 100.0 percent (by decide) number
  have limited := Number.finite_of_between 0.0 _ 100.0 (by decide) (by decide) above below
  exact Number.mul_number _ _ finite (Number.hundredth_finite _ limited)

theorem Margins.bounds_ordered (m : Margins) (width height : Float32) (numbers : m.AreNumbers)
    (finiteWidth : width.isFinite = true) (finiteHeight : height.isFinite = true) :
    (m.bounds width height).Ordered := by
  have left := margin_number width m.left finiteWidth numbers.left
  have ceiling := margin_number height m.ceiling finiteHeight numbers.ceiling
  have walls := Number.le_maximum (width * (1.0 - Number.clamp 0.0 100.0 m.right / 100.0)) _ left
  have span := Number.le_maximum (height * (1.0 - Number.clamp 0.0 100.0 m.floor / 100.0)) _ ceiling
  exact
    { left
      right := (Number.number_of_le _ _ walls).2
      ceiling
      floor := (Number.number_of_le _ _ span).2
      walls
      span }

/-- There is a place for every rectangle. -/
def Bounds.HasRoom (b : Bounds) : Prop :=
  ∀ corner size, (b.clampRect? corner size).isSome = true

/-- It takes a left wall and a ceiling that are numbers, however large the rectangle is. -/
theorem Bounds.hasRoom (b : Bounds) (left : b.left.isNaN = false) (ceiling : b.ceiling.isNaN = false) :
    b.HasRoom := by
  intro corner size
  have horizontal : b.left ≤ b.maxX size := Number.le_maximum (b.right - size.x) b.left left
  have vertical : b.ceiling ≤ b.maxY size := Number.le_maximum (b.floor - size.y) b.ceiling ceiling
  rw [clampRect?, if_pos ⟨horizontal, vertical⟩]
  rfl

/-! ## The same lines -/

/-- Margins that are the same one by one. -/
structure Margins.Same (m n : Margins) : Prop where
  floor : Number.Same m.floor n.floor
  ceiling : Number.Same m.ceiling n.ceiling
  left : Number.Same m.left n.left
  right : Number.Same m.right n.right

/-- Lines that are the same one by one. -/
structure Bounds.Same (a b : Bounds) : Prop where
  left : Number.Same a.left b.left
  right : Number.Same a.right b.right
  ceiling : Number.Same a.ceiling b.ceiling
  floor : Number.Same a.floor b.floor

/-- Areas of the same screen with the same margins and the same lines. -/
structure Area.Same (a b : Area) : Prop where
  width : Number.Same a.width b.width
  height : Number.Same a.height b.height
  margins : a.margins.Same b.margins
  bounds : a.bounds.Same b.bounds

theorem Margins.Same.refl (m : Margins) : m.Same m :=
  ⟨.refl m.floor, .refl m.ceiling, .refl m.left, .refl m.right⟩

theorem Margins.Same.symm {m n : Margins} (same : m.Same n) : n.Same m :=
  ⟨same.floor.symm, same.ceiling.symm, same.left.symm, same.right.symm⟩

theorem Margins.Same.trans {l m n : Margins} (first : l.Same m) (second : m.Same n) : l.Same n :=
  ⟨first.floor.trans second.floor, first.ceiling.trans second.ceiling, first.left.trans second.left,
    first.right.trans second.right⟩

theorem Bounds.Same.symm {a b : Bounds} (same : a.Same b) : b.Same a :=
  ⟨same.left.symm, same.right.symm, same.ceiling.symm, same.floor.symm⟩

theorem Bounds.Same.trans {a b c : Bounds} (first : a.Same b) (second : b.Same c) : a.Same c :=
  ⟨first.left.trans second.left, first.right.trans second.right, first.ceiling.trans second.ceiling,
    first.floor.trans second.floor⟩

theorem Area.Same.symm {a b : Area} (same : a.Same b) : b.Same a :=
  ⟨same.width.symm, same.height.symm, same.margins.symm, same.bounds.symm⟩

theorem Area.Same.trans {a b c : Area} (first : a.Same b) (second : b.Same c) : a.Same c :=
  ⟨first.width.trans second.width, first.height.trans second.height, first.margins.trans second.margins,
    first.bounds.trans second.bounds⟩

theorem Margins.bounds_same {m n : Margins} {width width' height height' : Float32} (margins : m.Same n)
    (widths : Number.Same width width') (heights : Number.Same height height') :
    (m.bounds width height).Same (n.bounds width' height') := by
  have part {x y : Float32} (same : Number.Same x y) :
      Number.Same (Number.clamp 0.0 100.0 x / 100.0) (Number.clamp 0.0 100.0 y / 100.0) :=
    (same.clamp 0.0 100.0).div 100.0
  have left := widths.mul (part margins.left)
  have ceiling := heights.mul (part margins.ceiling)
  exact
    { left
      right := (widths.mul ((part margins.right).sub 1.0)).maximum left
      ceiling
      floor := (heights.mul ((part margins.floor).sub 1.0)).maximum ceiling }

theorem Area.ofScreen_same {m n : Margins} {width width' height height' : Float32}
    (widths : Number.Same width width') (heights : Number.Same height height') (margins : m.Same n) :
    (Area.ofScreen width height m).Same (Area.ofScreen width' height' n) :=
  ⟨widths, heights, margins, Margins.bounds_same margins widths heights⟩

/-! ## Numeric equality -/

/-- Numeric equality of all four lines. -/
def Bounds.agrees (a b : Bounds) : Bool :=
  a.left == b.left && a.right == b.right && a.ceiling == b.ceiling && a.floor == b.floor

/-- Numeric equality of areas, field by field. -/
def Area.agrees (a b : Area) : Bool :=
  a.width == b.width && a.height == b.height && a.margins.agrees b.margins && a.bounds.agrees b.bounds

theorem Margins.same_of_agrees {m n : Margins} (agree : m.agrees n = true) : m.Same n := by
  simp only [Margins.agrees, Bool.and_eq_true, Number.beq_iff_same] at agree
  obtain ⟨⟨⟨floor, ceiling⟩, left⟩, right⟩ := agree
  exact ⟨floor.1, ceiling.1, left.1, right.1⟩

/-- What is the same agrees, unless it is NaN. -/
theorem Margins.Same.agrees {m n : Margins} (same : m.Same n) (numbers : n.AreNumbers) : m.agrees n = true := by
  simp only [Margins.agrees, Bool.and_eq_true]
  exact ⟨⟨⟨same.floor.beq numbers.floor, same.ceiling.beq numbers.ceiling⟩, same.left.beq numbers.left⟩,
    same.right.beq numbers.right⟩

theorem Bounds.Same.agrees {a b : Bounds} (same : a.Same b) (ordered : b.Ordered) : a.agrees b = true := by
  simp only [Bounds.agrees, Bool.and_eq_true]
  exact ⟨⟨⟨same.left.beq ordered.left, same.right.beq ordered.right⟩, same.ceiling.beq ordered.ceiling⟩,
    same.floor.beq ordered.floor⟩

end DesktopPet
