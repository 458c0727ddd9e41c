import DesktopPet.Proofs.Number.Order
import Mathlib

/-!
# What rounding makes of magnitudes

Packing makes NaN of no number, and an infinity only of an exponent that is too large. So the product of two
finite numbers is a number; and a hundredth of a finite number is finite (`hundredth_finite`), because rounding
raises the exponent of a quotient by one at most.
-/

namespace DesktopPet.Number

open Float.Model (Format UnpackedFloat totalExponent)
open Float.Model.UnpackedFloat

/-! ## Packing -/

/-- What is packed without overflow does not have the exponent field of infinities and NaN. -/
theorem exponentField_ne (biased : Nat) (bounded : ¬ 2 ^ Format.binary32.exponentBits ≤ biased + 1) :
    BitVec.ofNat Format.binary32.exponentBits biased ≠ -1#_ := by
  intro full
  have same := congrArg BitVec.toNat full
  simp at same bounded
  omega

/-- Any other exponent field is that of a finite number. -/
theorem unpack_components_finite (sign : Sign) (exponent : BitVec Format.binary32.exponentBits)
    (mantissa : BitVec Format.binary32.mantissaBitsWithoutImplicit) (field : exponent ≠ -1#_) :
    (unpack Format.binary32 (packComponents Format.binary32 sign exponent mantissa)).isFinite = true := by
  simp only [unpack, unpackExponent_packComponents, if_neg field]
  split
  · split <;> rfl
  · rfl

/-- A finite number whose exponent is at most `bound`. -/
def ExponentAtMost (bound : Int) : UnpackedFloat → Prop
  | .zero _ => True
  | .finite _ _ exponent _ => exponent ≤ bound
  | .infinity _ => False
  | .notANumber => False

/-- The largest exponent of the format is 104; up to there nothing overflows. -/
theorem pack_finite (u : UnpackedFloat) (bounded : ExponentAtMost 104 u) :
    (unpack Format.binary32 (pack Format.binary32 u)).isFinite = true := by
  cases u with
  | infinity sign => exact bounded.elim
  | notANumber => exact bounded.elim
  | zero sign => exact unpack_components_finite sign 0 0 (by decide)
  | finite sign mantissa exponent positive =>
    have fits : ¬ 2 ^ Format.binary32.exponentBits ≤
        (exponent + Format.binary32.exponentBias + Format.binary32.mantissaBitsWithoutImplicit).toNat + 1 := by
      have limit : exponent ≤ 104 := bounded
      simp only [Format.exponentBias]
      omega
    rw [pack]
    dsimp only
    rw [if_neg fits]
    split
    · exact unpack_components_finite sign _ _ (exponentField_ne _ fits)
    · exact unpack_components_finite sign 0 _ (by decide)

theorem unpack_packedInfinity (sign : Sign) :
    unpack Format.binary32 (packedInfinity Format.binary32 sign) = .infinity sign := by
  simp [unpack, packedInfinity]

/-- Packing makes NaN of nothing else. -/
theorem pack_number (u : UnpackedFloat) (number : u.isNaN = false) :
    (unpack Format.binary32 (pack Format.binary32 u)).isNaN = false := by
  cases u with
  | notANumber => cases number
  | infinity sign =>
    rw [pack, unpack_packedInfinity]
    rfl
  | zero sign => exact unpacked_number _ (unpack_components_finite sign 0 0 (by decide))
  | finite sign mantissa exponent positive =>
    rw [pack]
    dsimp only
    split
    · rw [unpack_packedInfinity]
      rfl
    next fits =>
      split
      · exact unpacked_number _ (unpack_components_finite sign _ _ (exponentField_ne _ fits))
      · exact unpacked_number _ (unpack_components_finite sign 0 _ (by decide))

/-! ## Products -/

theorem roundWithAccuracy_number (sign : Sign) (mantissa : Nat) (exponent : Int) (accuracy : Accuracy) :
    (roundWithAccuracy Format.binary32 sign mantissa exponent accuracy).isNaN = false := by
  rw [roundWithAccuracy]
  dsimp only
  split <;> rfl

/-- The product of two finite numbers is a number. -/
theorem mul_number (x y : Float32) (finiteX : x.isFinite = true) (finiteY : y.isFinite = true) :
    (x * y).isNaN = false := by
  change x.toModel.unpack.isFinite = true at finiteX
  change y.toModel.unpack.isFinite = true at finiteY
  refine pack_number (UnpackedFloat.mul Format.binary32 x.toModel.unpack y.toModel.unpack) ?_
  cases unpackedX : x.toModel.unpack with
  | finite sign mantissa exponent positive =>
    cases unpackedY : y.toModel.unpack with
    | finite => exact roundWithAccuracy_number _ _ _ .exact
    | zero => rfl
    | _ => simp [unpackedY, UnpackedFloat.isFinite] at finiteY
  | zero sign =>
    cases unpackedY : y.toModel.unpack with
    | finite => rfl
    | zero => rfl
    | _ => simp [unpackedY, UnpackedFloat.isFinite] at finiteY
  | _ => simp [unpackedX, UnpackedFloat.isFinite] at finiteX

/-! ## Rounding -/

/-- The position of the highest digit of a number below a power of two. -/
theorem log2_le (n top : Nat) (below : n < 2 ^ (top + 1)) : n.log2 ≤ top := by
  by_cases zero : n = 0
  · rw [zero]
    exact Nat.zero_le top
  · exact Nat.le_of_lt_succ ((Nat.log2_lt zero).mpr below)

theorem repeat_shiftRightOne (em : ExtendedMantissa) (amount : Nat) :
    (em >>> amount).mantissa = em.mantissa / 2 ^ amount := by
  change (amount.repeat ExtendedMantissa.shiftRightOne em).mantissa = em.mantissa / 2 ^ amount
  induction amount with
  | zero => simp [Nat.repeat]
  | succ amount ih =>
    rw [Nat.repeat, ExtendedMantissa.shiftRightOne, ih, Nat.div_div_eq_div_mul, Nat.pow_succ]

theorem ofMantissaAndAccuracy_mantissa (mantissa : Nat) (accuracy : Accuracy) :
    (ExtendedMantissa.ofMantissaAndAccuracy mantissa accuracy).mantissa = mantissa := by
  cases accuracy with
  | exact => rfl
  | inexact order => cases order <;> rfl

/-- Rounding adds one to a mantissa at most. -/
theorem roundedMantissa_le (em : ExtendedMantissa) : em.roundedMantissa ≤ em.mantissa + 1 := by
  rw [ExtendedMantissa.roundedMantissa]
  cases em.accuracy with
  | exact => exact Nat.le_succ em.mantissa
  | inexact order =>
    cases order with
    | lt => exact Nat.le_succ em.mantissa
    | eq =>
      have parity : em.mantissa % 2 < 2 := Nat.mod_lt em.mantissa (by decide)
      rw [Accuracy.roundToNearestEven]
      omega
    | gt => exact Nat.le_refl (em.mantissa + 1)

/-- A shift to the exponent of the format stays below what the position of the highest digit allows. -/
theorem shiftToTarget_exponent (mantissa : Nat) (exponent bound : Int) (accuracy : Accuracy)
    (given : exponent ≤ bound) (smallest : -149 ≤ bound) (size : totalExponent mantissa exponent ≤ bound + 24) :
    (shiftToTargetExponent Format.binary32 mantissa exponent accuracy).2 ≤ bound := by
  have target : Format.binary32.targetExponent (totalExponent mantissa exponent) ≤ bound := by
    simp only [Format.targetExponent, Format.minExponent, Format.mantissaBits]
    omega
  rw [shiftToTargetExponent, shiftToExponent]
  dsimp only
  omega

/-- A mantissa that was shifted and rounded has its highest digit one higher at most. -/
theorem rounded_totalExponent (mantissa : Nat) (exponent : Int) (accuracy : Accuracy) (amount : Nat) :
    totalExponent (ExtendedMantissa.ofMantissaAndAccuracy mantissa accuracy >>> amount).roundedMantissa
        (exponent + amount) ≤
      max (totalExponent mantissa exponent + 1) (exponent + amount + 1) := by
  have rounded := roundedMantissa_le (ExtendedMantissa.ofMantissaAndAccuracy mantissa accuracy >>> amount)
  rw [repeat_shiftRightOne, ofMantissaAndAccuracy_mantissa] at rounded
  have digits : mantissa < 2 ^ (mantissa.log2 + 1) := Nat.lt_log2_self
  simp only [totalExponent]
  generalize (ExtendedMantissa.ofMantissaAndAccuracy mantissa accuracy >>> amount).roundedMantissa = result at rounded
  by_cases all : mantissa.log2 + 1 ≤ amount
  · -- every digit is shifted out
    have none : mantissa / 2 ^ amount = 0 :=
      Nat.div_eq_of_lt (Nat.lt_of_lt_of_le digits (Nat.pow_le_pow_right (by decide) all))
    have height : result.log2 ≤ 0 := log2_le result 0 (by omega)
    omega
  · have split : 2 ^ (mantissa.log2 + 1) = 2 ^ (mantissa.log2 + 1 - amount) * 2 ^ amount := by
      rw [← Nat.pow_add]
      congr 1
      omega
    have shifted : mantissa / 2 ^ amount < 2 ^ (mantissa.log2 + 1 - amount) := by
      rw [Nat.div_lt_iff_lt_mul (Nat.two_pow_pos amount), ← split]
      exact digits
    have bound : result < 2 ^ (mantissa.log2 + 1 - amount + 1) := by
      have some : 0 < 2 ^ (mantissa.log2 + 1 - amount) := Nat.two_pow_pos _
      rw [Nat.pow_succ]
      omega
    have height := log2_le result _ bound
    omega

/-- Rounding raises the exponent by one at most. -/
theorem roundWithAccuracy_exponent (sign : Sign) (mantissa : Nat) (exponent bound : Int) (accuracy : Accuracy)
    (given : exponent ≤ bound) (smallest : -149 ≤ bound) (size : totalExponent mantissa exponent ≤ bound + 24) :
    ExponentAtMost (bound + 1) (roundWithAccuracy Format.binary32 sign mantissa exponent accuracy) := by
  have first := shiftToTarget_exponent mantissa exponent bound accuracy given smallest size
  have second : (shiftToTargetExponent Format.binary32
      (shiftToTargetExponent Format.binary32 mantissa exponent accuracy).1.roundedMantissa
      (shiftToTargetExponent Format.binary32 mantissa exponent accuracy).2 .exact).2 ≤ bound + 1 := by
    refine shiftToTarget_exponent _ _ (bound + 1) .exact (by omega) (by omega) ?_
    have height := rounded_totalExponent mantissa exponent accuracy
      (Format.binary32.targetExponent (totalExponent mantissa exponent) - exponent).toNat
    change totalExponent _ (exponent + _) ≤ _
    change exponent + _ ≤ bound at first
    exact Int.le_trans height (by omega)
  rw [roundWithAccuracy]
  dsimp only
  split
  · exact trivial
  · exact second

/-! ## Quotients -/

/-- Mantissa and exponent of a finite number of the format. -/
theorem unpack_bounds (b : BitVec Format.binary32.numBits) (sign : Sign) (mantissa : Nat) (exponent : Int)
    (positive : 0 < mantissa) (unpacked : unpack Format.binary32 b = .finite sign mantissa exponent positive) :
    mantissa < 2 ^ 24 ∧ exponent ≤ 104 := by
  have field : (unpackExponent b).toNat < 2 ^ 8 := (unpackExponent b).isLt
  have bits : (unpackMantissa b).toNat < 2 ^ 23 := (unpackMantissa b).isLt
  simp only [unpack] at unpacked
  split at unpacked
  · split at unpacked <;> cases unpacked
  next ordinary =>
    split at unpacked
    next subnormal =>
      split at unpacked
      · cases unpacked
      · cases unpacked
        rw [subnormal]
        simp [Format.exponentBias]
        omega
    next normal =>
      cases unpacked
      have below : (unpackExponent b).toNat ≠ 255 := fun full => ordinary (BitVec.eq_of_toNat_eq full)
      have whole : (1#1 ++ unpackMantissa b).toNat < 2 ^ 24 := (1#1 ++ unpackMantissa b).isLt
      simp only [Format.exponentBias]
      omega

private theorem hundred_unpacked : (100.0 : Float32).toModel.unpack = .finite .positive 13107200 (-17) (by decide) :=
  rfl

/-- A hundredth of a number of the format is small enough for the format, before it is rounded. -/
theorem divCore_hundred (mantissa : Nat) (exponent : Int) (digits : mantissa < 2 ^ 24) (large : exponent ≤ 104) :
    (divCore Format.binary32 mantissa exponent 13107200 (-17)).2.1 ≤ 103 ∧
      totalExponent (divCore Format.binary32 mantissa exponent 13107200 (-17)).1
        (divCore Format.binary32 mantissa exponent 13107200 (-17)).2.1 ≤ 127 := by
  have height : mantissa.log2 ≤ 23 := log2_le mantissa 23 digits
  have hundred : totalExponent 13107200 (-17) = 7 := by decide
  have target : Format.binary32.targetExponent (totalExponent mantissa exponent - 7) ≤ 97 := by
    simp only [Format.targetExponent, Format.minExponent, Format.mantissaBits, totalExponent]
    omega
  rw [divCore]
  dsimp only
  rw [hundred]
  generalize Format.binary32.targetExponent (totalExponent mantissa exponent - 7) = wanted at target
  generalize amountEq : (exponent - -17 - min (exponent - -17) wanted).toNat = amount
  have quotient : mantissa <<< amount / 13107200 < 2 ^ (amount + 1) := by
    have shifted : mantissa * 2 ^ amount < 2 ^ 24 * 2 ^ amount :=
      Nat.mul_lt_mul_of_pos_right digits (Nat.two_pow_pos amount)
    apply Nat.div_lt_of_lt_mul
    rw [Nat.shiftLeft_eq, Nat.pow_succ]
    omega
  have top := log2_le _ amount quotient
  simp only [totalExponent]
  omega

/-- A hundredth of a finite number is finite. -/
theorem hundredth_finite (x : Float32) (finite : x.isFinite = true) : (x / 100.0).isFinite = true := by
  change x.toModel.unpack.isFinite = true at finite
  refine pack_finite (UnpackedFloat.div Format.binary32 x.toModel.unpack (100.0 : Float32).toModel.unpack) ?_
  rw [hundred_unpacked]
  cases unpacked : x.toModel.unpack with
  | infinity sign => simp [unpacked, UnpackedFloat.isFinite] at finite
  | notANumber => simp [unpacked, UnpackedFloat.isFinite] at finite
  | zero sign => exact trivial
  | finite sign mantissa exponent positive =>
    obtain ⟨digits, large⟩ := unpack_bounds _ sign mantissa exponent positive unpacked
    obtain ⟨small, size⟩ := divCore_hundred mantissa exponent digits large
    exact roundWithAccuracy_exponent _ _ _ 103 _ small (by decide) size

end DesktopPet.Number
