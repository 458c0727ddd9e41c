import DesktopPet.Proofs.Number.Congruence
import DesktopPet.Proofs.Number.Sums

/-!
# Signs of products

The product of two numbers that are not below zero is not below zero (`mul_nonneg`), and what is not above zero stays
so when it is multiplied with such a number (`mul_nonpos`). The sign of a zero counts for nothing here, and infinities
take part; what is left out are products that are NaN.
-/

namespace DesktopPet.Number

open Float.Model (UnpackedFloat)
open Float.Model.UnpackedFloat (Sign)

variable {x y : Float32}

theorem Signed.nonneg (signed : Signed .positive x.toModel.unpack) (number : x.isNaN = false) : 0.0 ≤ x := by
  refine le_of_not_lt x 0.0 number (by decide) fun below => ?_
  have opposite := signed_of_neg below
  change x.toModel.unpack.isNaN = false at number
  generalize x.toModel.unpack = u at signed opposite number
  cases u with
  | notANumber => cases number
  | infinity s => cases signed; cases opposite
  | zero s => cases signed; cases opposite
  | finite s _ _ _ => cases signed; cases opposite

/-- What is not below zero is the same as a number with the sign of positive ones. -/
theorem nonneg_same (above : 0.0 ≤ x) : ∃ y, Same x y ∧ Signed .positive y.toModel.unpack := by
  rcases pos_or_zero_or_signed x with positive | rfl | negative
  · exact ⟨x, .refl x, signed_of_pos positive⟩
  · exact ⟨0.0, .refl _, rfl⟩
  · have number := (number_of_le _ x above).2
    have level : ¬ x < 0.0 := not_lt_of_le 0.0 x above
    change x.toModel.unpack.isNaN = false at number
    change ¬ decide (x.toModel.unpack.lt (.zero .positive)) = true at level
    refine ⟨0.0, .inr ⟨?_, .positive, rfl⟩, rfl⟩
    generalize x.toModel.unpack = u at negative number level
    cases u with
    | notANumber => cases number
    | infinity s => cases negative; exact absurd rfl level
    | zero s => exact ⟨s, rfl⟩
    | finite s _ _ _ => cases negative; exact absurd rfl level

theorem Signed.mul_nonneg (left : Signed .positive x.toModel.unpack) (right : 0.0 ≤ y)
    (number : (x * y).isNaN = false) : 0.0 ≤ x * y := by
  obtain ⟨z, same, signed⟩ := nonneg_same right
  have products := (Same.refl x).mul same
  have positive : Signed .positive (x * z).toModel.unpack := (left.mul signed).packed
  exact (congruence_same.le (.refl 0.0) products).mpr (positive.nonneg (products.isNaN.symm.trans number))

/-- The product of two numbers that are not below zero is not below zero. -/
theorem mul_nonneg (left : 0.0 ≤ x) (right : 0.0 ≤ y) (number : (x * y).isNaN = false) : 0.0 ≤ x * y := by
  obtain ⟨z, same, signed⟩ := nonneg_same left
  have products := same.mul (Same.refl y)
  exact (congruence_same.le (.refl 0.0) products).mpr
    (signed.mul_nonneg right (products.isNaN.symm.trans number))

theorem neg_nonpos (above : 0.0 ≤ x) : -x ≤ 0.0 :=
  le_trans (neg_le_neg above) (by decide)

private theorem neg_nonneg (below : x ≤ 0.0) : 0.0 ≤ -x :=
  le_trans (by decide : (0.0 : Float32) ≤ -0.0) (neg_le_neg below)

/-- What is not above zero stays so when it is multiplied with a number that is not below zero. -/
theorem mul_nonpos (left : x ≤ 0.0) (right : 0.0 ≤ y) (number : (x * y).isNaN = false) : x * y ≤ 0.0 := by
  have turned : (-x * y).isNaN = false := by
    rw [neg_mul_eq]
    exact neg_number number
  have above := mul_nonneg (neg_nonneg left) right turned
  rw [neg_mul_eq] at above
  rw [← neg_neg_eq (x * y)]
  exact neg_nonpos above

theorem abs_signed (x : Float32) : Signed .positive x.abs.toModel.unpack := by
  have signed : Signed .positive x.toModel.unpack.abs := by
    cases x.toModel.unpack with
    | notANumber => trivial
    | _ => exact rfl
  exact signed.packed

end DesktopPet.Number
