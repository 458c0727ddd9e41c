import DesktopPet.Proofs.Number.Order
import Mathlib

/-!
# Signs

Rounding and packing treat both signs alike. So the opposite of a factor makes the opposite of the product
(`neg_mul_eq`), no product has another sign than its factors demand (`mul_not_pos`), and what changes the sign of a
number and nothing else leaves it finite (`neg64_finite`, `abs64_finite`).
-/

namespace DesktopPet.Number

open Float.Model (Format UnpackedFloat)
open Float.Model.UnpackedFloat (Sign Accuracy packComponents packedNaN roundWithAccuracy unpack_packedNaN
  unpackSign_packComponents unpackExponent_packComponents unpackMantissa_packComponents pack_unpack_of_valid
  unpack_inj_of_valid)

section Unpacked

variable (format : Format)

/-! ## Opposites -/

theorem neg_neg_unpacked (u : UnpackedFloat) : u.neg.neg = u := by
  have twice (s : Sign) : - -s = s := by cases s <;> rfl
  cases u with
  | notANumber => rfl
  | _ => simp [UnpackedFloat.neg, twice]

/-- The sign of packed components is read back for itself. -/
theorem unpack_components_neg (s : Sign) (exponent : BitVec format.exponentBits)
    (mantissa : BitVec format.mantissaBitsWithoutImplicit) :
    UnpackedFloat.unpack format (packComponents format (-s) exponent mantissa) =
      (UnpackedFloat.unpack format (packComponents format s exponent mantissa)).neg := by
  simp only [UnpackedFloat.unpack, unpackExponent_packComponents, unpackMantissa_packComponents,
    unpackSign_packComponents, Sign.ofBitVec_toBitVec]
  split
  · split <;> rfl
  · split
    · split <;> rfl
    · rfl

/-- Packing keeps opposites. -/
theorem pack_neg (u : UnpackedFloat) :
    UnpackedFloat.unpack format (UnpackedFloat.pack format u.neg) =
      (UnpackedFloat.unpack format (UnpackedFloat.pack format u)).neg := by
  cases u with
  | notANumber =>
    change UnpackedFloat.unpack format (packedNaN format) = (UnpackedFloat.unpack format (packedNaN format)).neg
    rw [unpack_packedNaN]
    rfl
  | infinity s => exact unpack_components_neg format s _ _
  | zero s => exact unpack_components_neg format s _ _
  | finite s mantissa exponent positive =>
    rw [UnpackedFloat.neg, UnpackedFloat.pack, UnpackedFloat.pack]
    split
    · exact unpack_components_neg format s _ _
    · split
      · exact unpack_components_neg format s _ _
      · exact unpack_components_neg format s _ _

private theorem roundWithAccuracy_neg (s : Sign) (mantissa : Nat) (exponent : Int) (accuracy : Accuracy) :
    roundWithAccuracy format (-s) mantissa exponent accuracy =
      (roundWithAccuracy format s mantissa exponent accuracy).neg := by
  rw [roundWithAccuracy, roundWithAccuracy]
  dsimp only
  split <;> rfl

private theorem mul_neg_unpacked (u v : UnpackedFloat) :
    UnpackedFloat.mul format u.neg v = (UnpackedFloat.mul format u v).neg := by
  have signs (s t : Sign) : -s * t = -(s * t) := by cases s <;> cases t <;> rfl
  cases u with
  | notANumber => cases v <;> rfl
  | infinity s => cases v <;> simp [UnpackedFloat.mul, UnpackedFloat.neg, signs]
  | zero s => cases v <;> simp [UnpackedFloat.mul, UnpackedFloat.neg, signs]
  | finite s mantissa exponent positive =>
    cases v with
    | finite t other power positive' =>
      rw [UnpackedFloat.neg, UnpackedFloat.mul, signs, UnpackedFloat.mul, roundWithAccuracy_neg]
    | _ => simp [UnpackedFloat.mul, UnpackedFloat.neg, signs]

private theorem neg_isFinite (u : UnpackedFloat) : u.neg.isFinite = u.isFinite := by
  cases u <;> rfl

/-- The absolute value is the number or its opposite. -/
theorem abs_cases (u : UnpackedFloat) : u.abs = u ∨ u.abs = u.neg := by
  cases u with
  | notANumber => exact .inl rfl
  | infinity s => cases s <;> first | exact .inl rfl | exact .inr rfl
  | zero s => cases s <;> first | exact .inl rfl | exact .inr rfl
  | finite s _ _ _ => cases s <;> first | exact .inl rfl | exact .inr rfl

/-! ## Signs of results -/

/-- NaN, or a number of this sign; infinities and zeros have one, too. -/
def Signed (s : Sign) : UnpackedFloat → Prop
  | .notANumber => True
  | .infinity t => t = s
  | .zero t => t = s
  | .finite t _ _ _ => t = s

variable {format}

theorem Signed.components (s : Sign) (exponent : BitVec format.exponentBits)
    (mantissa : BitVec format.mantissaBitsWithoutImplicit) :
    Signed s (UnpackedFloat.unpack format (packComponents format s exponent mantissa)) := by
  simp only [UnpackedFloat.unpack, unpackExponent_packComponents, unpackMantissa_packComponents,
    unpackSign_packComponents, Sign.ofBitVec_toBitVec]
  split
  · split
    · exact rfl
    · trivial
  · split
    · split <;> exact rfl
    · exact rfl

theorem Signed.packed {s : Sign} {u : UnpackedFloat} (signed : Signed s u) :
    Signed s (UnpackedFloat.unpack format (UnpackedFloat.pack format u)) := by
  cases u with
  | notANumber =>
    rw [UnpackedFloat.pack, unpack_packedNaN]
    trivial
  | infinity t =>
    cases signed
    exact Signed.components s _ _
  | zero t =>
    cases signed
    exact Signed.components s _ _
  | finite t mantissa exponent positive =>
    cases signed
    rw [UnpackedFloat.pack]
    split
    · exact Signed.components s _ _
    · split
      · exact Signed.components s _ _
      · exact Signed.components s _ _

theorem Signed.rounded (s : Sign) (mantissa : Nat) (exponent : Int) (accuracy : Accuracy) :
    Signed s (roundWithAccuracy format s mantissa exponent accuracy) := by
  rw [roundWithAccuracy]
  dsimp only
  split <;> exact rfl

/-- Numbers of one sign make a positive product, and numbers of different signs a negative one. -/
theorem Signed.mul {s t : Sign} {u v : UnpackedFloat} (left : Signed s u) (right : Signed t v) :
    Signed (s * t) (UnpackedFloat.mul format u v) := by
  cases u with
  | notANumber => cases v <;> trivial
  | infinity _ =>
    cases left
    cases v with
    | notANumber => trivial
    | zero _ => trivial
    | infinity _ => cases right; exact rfl
    | finite _ _ _ _ => cases right; exact rfl
  | zero _ =>
    cases left
    cases v with
    | notANumber => trivial
    | infinity _ => trivial
    | zero _ => cases right; exact rfl
    | finite _ _ _ _ => cases right; exact rfl
  | finite _ _ _ _ =>
    cases left
    cases v with
    | notANumber => trivial
    | infinity _ => cases right; exact rfl
    | zero _ => cases right; exact rfl
    | finite _ _ _ _ => cases right; exact Signed.rounded _ _ _ .exact

/-- The opposite of a number of the format is a number of the format. -/
theorem unpack_opposite {bits : BitVec format.numBits} (valid : format.Valid bits)
    (wide : 2 ≤ format.exponentBits) :
    UnpackedFloat.unpack format (UnpackedFloat.pack format (UnpackedFloat.unpack format bits).neg) =
      (UnpackedFloat.unpack format bits).neg := by
  rw [pack_neg, pack_unpack_of_valid valid wide]

end Unpacked

/-! ## Numbers of binary32 -/

section Single

variable {x y : Float32}

theorem unpack_neg (x : Float32) : (-x).toModel.unpack = x.toModel.unpack.neg :=
  unpack_opposite x.toModel.valid (by decide)

theorem eq_of_unpack (same : x.toModel.unpack = y.toModel.unpack) : x = y := by
  obtain ⟨⟨bits, valid⟩⟩ := x
  obtain ⟨⟨bits', valid'⟩⟩ := y
  have equal : bits.toBitVec = bits'.toBitVec := (unpack_inj_of_valid valid valid').mp same
  have words : bits = bits' := UInt32.toBitVec_inj.mp equal
  subst words
  rfl

theorem neg_neg_eq (x : Float32) : - -x = x := by
  apply eq_of_unpack
  rw [unpack_neg, unpack_neg, neg_neg_unpacked]

/-- The opposite of a factor makes the opposite of the product. -/
theorem neg_mul_eq (x y : Float32) : -x * y = -(x * y) := by
  apply eq_of_unpack
  rw [unpack_neg]
  change UnpackedFloat.unpack .binary32 (UnpackedFloat.pack .binary32
    (UnpackedFloat.mul .binary32 (-x).toModel.unpack y.toModel.unpack)) = _
  rw [unpack_neg, mul_neg_unpacked, pack_neg]
  rfl

/-- A number and its opposite lie on different sides of zero. -/
theorem neg_lt_zero (x : Float32) : -x < 0.0 ↔ 0.0 < x := by
  change decide ((-x).toModel.unpack.lt (.zero .positive)) = true ↔
    decide (UnpackedFloat.lt (.zero .positive) x.toModel.unpack) = true
  rw [unpack_neg]
  cases x.toModel.unpack with
  | notANumber => decide
  | infinity s => cases s <;> decide
  | zero s => cases s <;> decide
  | finite s _ _ _ => cases s <;> exact Iff.rfl

theorem zero_lt_neg (x : Float32) : 0.0 < -x ↔ x < 0.0 := by
  rw [← neg_lt_zero, neg_neg_eq]

theorem signed_of_neg (below : x < 0.0) : Signed .negative x.toModel.unpack := by
  change decide (x.toModel.unpack.lt (.zero .positive)) = true at below
  generalize x.toModel.unpack = u at below
  cases u with
  | notANumber => trivial
  | infinity s => cases s <;> first | exact rfl | cases below
  | zero s => cases s <;> first | exact rfl | cases below
  | finite s _ _ _ => cases s <;> first | exact rfl | cases below

theorem signed_of_pos (above : 0.0 < x) : Signed .positive x.toModel.unpack := by
  change decide (UnpackedFloat.lt (.zero .positive) x.toModel.unpack) = true at above
  generalize x.toModel.unpack = u at above
  cases u with
  | notANumber => trivial
  | infinity s => cases s <;> first | exact rfl | cases above
  | zero s => cases s <;> first | exact rfl | cases above
  | finite s _ _ _ => cases s <;> first | exact rfl | cases above

theorem Signed.not_pos (signed : Signed .negative x.toModel.unpack) : ¬ 0.0 < x := by
  change ¬ decide (UnpackedFloat.lt (.zero .positive) x.toModel.unpack) = true
  generalize x.toModel.unpack = u at signed
  cases u with
  | notANumber => decide
  | infinity s => cases signed; decide
  | zero s => cases signed; decide
  | finite s _ _ _ => cases signed; exact Bool.false_ne_true

/-- A negative number times a positive one is not positive. -/
theorem mul_not_pos (left : Signed .negative x.toModel.unpack) (right : 0.0 < y) :
    Signed .negative (x * y).toModel.unpack :=
  (left.mul (signed_of_pos right)).packed

private theorem mul_zero_not_pos (x : Float32) : ¬ 0.0 < x * 0.0 := by
  change ¬ decide (UnpackedFloat.lt (.zero .positive) (UnpackedFloat.unpack .binary32
    (UnpackedFloat.pack .binary32 (UnpackedFloat.mul .binary32 x.toModel.unpack (.zero .positive))))) = true
  cases x.toModel.unpack with
  | notANumber => decide
  | infinity s => cases s <;> decide
  | zero s => cases s <;> decide
  | finite s mantissa exponent positive =>
    rw [show UnpackedFloat.mul .binary32 (.finite s mantissa exponent positive) (.zero .positive) =
      .zero (s * .positive) from rfl]
    cases s <;> decide

/-- Every number is positive or zero, or has the sign of negative ones. -/
theorem pos_or_zero_or_signed (y : Float32) : 0.0 < y ∨ y = 0.0 ∨ Signed .negative y.toModel.unpack := by
  have above (unpacked : decide (UnpackedFloat.lt (.zero .positive) y.toModel.unpack) = true) : 0.0 < y := unpacked
  cases unpacked : y.toModel.unpack with
  | notANumber => exact .inr (.inr trivial)
  | infinity s =>
    cases s with
    | negative => exact .inr (.inr rfl)
    | positive => exact .inl (above (by rw [unpacked]; rfl))
  | zero s =>
    cases s with
    | negative => exact .inr (.inr rfl)
    | positive => exact .inr (.inl (eq_of_unpack unpacked))
  | finite s mantissa exponent positive =>
    cases s with
    | negative => exact .inr (.inr rfl)
    | positive => exact .inl (above (by rw [unpacked]; rfl))

/-- What is not negative makes a positive product with positive numbers only. -/
theorem pos_of_mul_pos (left : Signed .positive x.toModel.unpack) (product : 0.0 < x * y) : 0.0 < y := by
  rcases pos_or_zero_or_signed y with above | zero | negative
  · exact above
  · rw [zero] at product
    exact absurd product (mul_zero_not_pos x)
  · have opposite : Signed .negative (x * y).toModel.unpack := (left.mul negative).packed
    exact absurd product opposite.not_pos

end Single

/-! ## Numbers of binary64 -/

section Double

variable {x y : Float}

theorem neg64_finite (finite : x.isFinite = true) : (-x).isFinite = true := by
  change ((-x).toModel.unpack).isFinite = true
  have opposite : (-x).toModel.unpack = x.toModel.unpack.neg := unpack_opposite x.toModel.valid (by decide)
  rw [opposite, neg_isFinite]
  exact finite

theorem abs64_finite (finite : x.isFinite = true) : x.abs.isFinite = true := by
  rcases abs_cases x.toModel.unpack with same | opposite
  · have unchanged : x.abs.toModel.unpack = x.toModel.unpack := by
      change UnpackedFloat.unpack .binary64 (UnpackedFloat.pack .binary64 x.toModel.unpack.abs) = _
      rw [same]
      exact congrArg (UnpackedFloat.unpack .binary64) (pack_unpack_of_valid x.toModel.valid)
    change x.abs.toModel.unpack.isFinite = true
    rw [unchanged]
    exact finite
  · have turned : x.abs = -x := by
      change Float.ofModel (.pack x.toModel.unpack.abs) = Float.ofModel (.pack x.toModel.unpack.neg)
      rw [opposite]
    rw [turned]
    exact neg64_finite finite

/-- The smaller of two finite numbers is one of them. -/
theorem minimum64_finite (left : x.isFinite = true) (right : y.isFinite = true) :
    (minimum64 x y).isFinite = true := by
  rw [minimum64]
  split
  · exact right
  · split
    · exact right
    · exact left

theorem maximum64_finite (left : x.isFinite = true) (right : y.isFinite = true) :
    (maximum64 x y).isFinite = true := by
  rw [maximum64]
  split
  · exact right
  · split
    · exact right
    · exact left

/-- A number that is not negative and below another number is finite. -/
theorem finite_of_lt {bound : Float} (signed : Signed .positive x.toModel.unpack) (below : x < bound) :
    x.isFinite = true := by
  change decide (x.toModel.unpack.lt bound.toModel.unpack) = true at below
  change x.toModel.unpack.isFinite = true
  generalize bound.toModel.unpack = v at below
  generalize x.toModel.unpack = u at signed below
  cases u with
  | notANumber => cases v <;> cases below
  | infinity s =>
    cases signed
    cases v with
    | infinity t => cases t <;> cases below
    | _ => cases below
  | zero s => rfl
  | finite s _ _ _ => rfl

end Double

end DesktopPet.Number
