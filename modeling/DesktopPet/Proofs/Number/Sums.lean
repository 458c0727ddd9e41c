import DesktopPet.Proofs.Number.Congruence
import DesktopPet.Proofs.Number.Nearest
import Mathlib

/-!
# Sums of binary32 numbers

The sum of two finite numbers is the number nearest to the exact sum (`add_ticks`). Therefore a larger operand makes
no smaller sum (`add_le_add_right`, `add_le_add_left`), and what is taken away more leaves no more (`sub_le_sub_left`).
-/

namespace DesktopPet.Number

open Float.Model (Format UnpackedFloat)
open Float.Model.UnpackedFloat

/-! ## Rounding integers -/

/-- The number of the format nearest to `t` ticks. -/
def nearestTicks (t : Int) : Int :=
  t.sign * nearest t.natAbs

theorem nearestTicks_natCast (n : Nat) : nearestTicks n = nearest n := by
  rcases Nat.eq_zero_or_pos n with zero | positive
  · rw [zero]
    rfl
  · rw [nearestTicks, Int.sign_natCast_of_ne_zero (Nat.ne_of_gt positive), Int.one_mul, Int.natAbs_natCast]

private theorem nearestTicks_neg (t : Int) : nearestTicks (-t) = -nearestTicks t := by
  rw [nearestTicks, nearestTicks, Int.sign_neg, Int.natAbs_neg, Int.neg_mul]

theorem nearestTicks_apply (sign : Sign) (n : Nat) : nearestTicks (sign.apply n) = sign.apply (nearest n) := by
  cases sign with
  | positive => exact nearestTicks_natCast n
  | negative => exact (nearestTicks_neg n).trans (congrArg Neg.neg (nearestTicks_natCast n))

private theorem nearestTicks_mono {s t : Int} (ordered : s ≤ t) : nearestTicks s ≤ nearestTicks t := by
  obtain ⟨m, rfl | rfl⟩ := s.eq_nat_or_neg <;> obtain ⟨n, rfl | rfl⟩ := t.eq_nat_or_neg <;>
    simp only [nearestTicks_neg, nearestTicks_natCast]
  · exact Int.ofNat_le.mpr (nearest_mono (by omega))
  · obtain ⟨rfl, rfl⟩ : m = 0 ∧ n = 0 := by omega
    exact Int.le_refl _
  · omega
  · have opposite : n ≤ m := by omega
    exact Int.neg_le_neg (Int.ofNat_le.mpr (nearest_mono opposite))

/-! ## Adding unpacked numbers -/

/-- Normalizing gives the number nearest to the ticks of mantissa and exponent. -/
theorem normalize_ticks (mantissa : Int) {exponent : Int} (smallest : -149 ≤ exponent) (zeroSign : Sign) :
    Normalized (UnpackedFloat.normalize Format.binary32 mantissa exponent zeroSign) ∧
      unpackedTicks (UnpackedFloat.normalize Format.binary32 mantissa exponent zeroSign) =
        nearestTicks (mantissa * 2 ^ (exponent + 149).toNat) := by
  rcases lt_trichotomy mantissa 0 with negative | none | positive
  · obtain ⟨n, rfl⟩ : ∃ n : Nat, mantissa = -n := ⟨mantissa.natAbs, by omega⟩
    have some : 0 < n := by omega
    obtain ⟨normalized, value⟩ := round_nearest .negative some smallest
    rw [UnpackedFloat.normalize, compare_lt_iff_lt.mpr negative]
    dsimp only
    rw [Int.neg_neg, Int.toNat_natCast]
    refine ⟨normalized, value.trans ?_⟩
    rw [← nearestTicks_apply]
    exact congrArg nearestTicks (by simp [Sign.apply, steps])
  · subst none
    rw [Int.zero_mul]
    exact ⟨trivial, rfl⟩
  · obtain ⟨n, rfl⟩ : ∃ n : Nat, mantissa = n := ⟨mantissa.natAbs, by omega⟩
    have some : 0 < n := by omega
    obtain ⟨normalized, value⟩ := round_nearest .positive some smallest
    rw [UnpackedFloat.normalize, compare_gt_iff_gt.mpr positive]
    dsimp only
    rw [Int.toNat_natCast]
    refine ⟨normalized, value.trans ?_⟩
    rw [← nearestTicks_apply]
    exact congrArg nearestTicks (by simp [Sign.apply, steps])

/-- A mantissa brought to a smaller exponent stands for the same ticks. -/
theorem apply_decreaseExponent (sign : Sign) (mantissa : Nat) {exponent smaller : Int} (smallest : -149 ≤ smaller)
    (given : smaller ≤ exponent) :
    sign.apply (decreaseExponent mantissa exponent smaller).1 * 2 ^ (smaller + 149).toNat =
      sign.apply (steps mantissa exponent) := by
  have apart : (exponent + 149).toNat = (exponent - smaller).toNat + (smaller + 149).toNat := by omega
  have same : (mantissa <<< (exponent - smaller).toNat) * 2 ^ (smaller + 149).toNat = steps mantissa exponent := by
    rw [steps, apart, Nat.shiftLeft_eq, Nat.mul_assoc, ← Nat.pow_add]
  rw [← same]
  cases sign <;> simp [Sign.apply, decreaseExponent]

/-- A number of the format is nearest to its own ticks. -/
theorem nearestTicks_fits {u : UnpackedFloat} (fits : Fits u) (finite : u.isFinite = true) :
    nearestTicks (unpackedTicks u) = unpackedTicks u := by
  cases u with
  | notANumber => cases finite
  | infinity sign => cases finite
  | zero sign => rfl
  | finite sign mantissa exponent positive =>
    rw [unpackedTicks, nearestTicks_apply, nearest_steps fits.1 positive]

theorem Fits.normalized {u : UnpackedFloat} (fits : Fits u) : Normalized u := by
  cases u with
  | finite => exact fits.1
  | _ => trivial

/-- The sum of two numbers of the format is the number nearest to the sum of their ticks. -/
theorem add_unpacked_ticks {u v : UnpackedFloat} (fitsLeft : Fits u) (fitsRight : Fits v) (left : u.isFinite = true)
    (right : v.isFinite = true) :
    Normalized (UnpackedFloat.add Format.binary32 u v) ∧
      unpackedTicks (UnpackedFloat.add Format.binary32 u v) = nearestTicks (unpackedTicks u + unpackedTicks v) := by
  cases u with
  | notANumber => cases left
  | infinity sign => cases left
  | zero sign =>
    cases v with
    | notANumber => cases right
    | infinity other => cases right
    | zero other => cases sign <;> cases other <;> exact ⟨trivial, rfl⟩
    | finite other mantissa exponent positive =>
      refine ⟨fitsRight.normalized, ?_⟩
      rw [show unpackedTicks (.zero sign) = 0 from rfl, Int.zero_add, nearestTicks_fits fitsRight right]
      rfl
  | finite sign mantissa exponent positive =>
    cases v with
    | notANumber => cases right
    | infinity other => cases right
    | zero other =>
      refine ⟨fitsLeft.normalized, ?_⟩
      rw [show unpackedTicks (.zero other) = 0 from rfl, Int.add_zero, nearestTicks_fits fitsLeft left]
      rfl
    | finite other mantissa' exponent' positive' =>
      have smallest : -149 ≤ min exponent exponent' := le_min fitsLeft.1.smallest fitsRight.1.smallest
      obtain ⟨normalized, value⟩ := normalize_ticks
        (sign.apply (decreaseExponent mantissa exponent (min exponent exponent')).1 +
          other.apply (decreaseExponent mantissa' exponent' (min exponent exponent')).1) smallest .positive
      rw [Int.add_mul, apply_decreaseExponent sign mantissa smallest (min_le_left _ _),
        apply_decreaseExponent other mantissa' smallest (min_le_right _ _)] at value
      exact ⟨normalized, value⟩

/-- The order of the operands does not matter. -/
private theorem add_unpacked_comm (format : Format) (u v : UnpackedFloat) :
    UnpackedFloat.add format u v = UnpackedFloat.add format v u := by
  cases u with
  | notANumber => cases v <;> rfl
  | infinity sign =>
    cases v with
    | infinity other => cases sign <;> cases other <;> rfl
    | _ => rfl
  | zero sign =>
    cases v with
    | zero other => cases sign <;> cases other <;> rfl
    | _ => rfl
  | finite sign mantissa exponent positive =>
    cases v with
    | finite other mantissa' exponent' positive' =>
      rw [UnpackedFloat.add, UnpackedFloat.add, min_comm exponent exponent']
      dsimp only
      rw [Int.add_comm]
    | _ => rfl

private theorem normalize_number (mantissa exponent : Int) (zeroSign : Sign) :
    (UnpackedFloat.normalize Format.binary32 mantissa exponent zeroSign).isNaN = false := by
  rw [UnpackedFloat.normalize]
  split
  · exact roundWithAccuracy_number _ _ _ .exact
  · rfl
  · exact roundWithAccuracy_number _ _ _ .exact

private theorem add_unpacked_number {u v : UnpackedFloat} (left : u.isFinite = true) (right : v.isNaN = false) :
    (UnpackedFloat.add Format.binary32 u v).isNaN = false := by
  cases u with
  | notANumber => cases left
  | infinity sign => cases left
  | zero sign =>
    cases v with
    | notANumber => cases right
    | zero other => cases sign <;> cases other <;> rfl
    | _ => rfl
  | finite sign mantissa exponent positive =>
    cases v with
    | notANumber => cases right
    | finite => exact normalize_number _ _ .positive
    | _ => rfl

private theorem infinity_add (format : Format) (sign : Sign) (u : UnpackedFloat) :
    UnpackedFloat.add format (.infinity sign) u = .infinity sign ∨
      UnpackedFloat.add format (.infinity sign) u = .notANumber := by
  cases u with
  | notANumber => exact .inr rfl
  | infinity other => cases sign <;> cases other <;> simp [UnpackedFloat.add]
  | _ => exact .inl rfl

/-! ## Sums of binary32 -/

section Single

variable {x y z : Float32}

theorem unpack_add (x y : Float32) :
    (x + y).toModel.unpack =
      unpack Format.binary32 (pack Format.binary32
        (UnpackedFloat.add Format.binary32 x.toModel.unpack y.toModel.unpack)) :=
  rfl

/-- The sum of two finite numbers is the number nearest to the exact sum, or an infinity beyond the format. -/
theorem add_ticks (left : x.isFinite = true) (right : y.isFinite = true) :
    ticks (x + y) = limited (nearestTicks (ticks x + ticks y)) := by
  obtain ⟨normalized, value⟩ := add_unpacked_ticks (float32_fits x) (float32_fits y) left right
  rw [ticks, unpack_add, pack_ticks normalized, value]
  rfl

theorem add_comm (x y : Float32) : x + y = y + x := by
  apply eq_of_unpack
  rw [unpack_add, unpack_add, add_unpacked_comm]

theorem sub_eq_add_neg (x y : Float32) : x - y = x + -y := by
  apply eq_of_unpack
  rw [unpack_add, unpack_neg, ← sub_eq_add]
  rfl

private theorem ticks_bounds (x : Float32) : -(edge : Int) ≤ ticks x ∧ ticks x ≤ edge := by
  have inside := unpackedTicks_le (float32_fits x)
  rw [ticks]
  omega

theorem ticks_inside (finite : x.isFinite = true) : -(edge : Int) < ticks x ∧ ticks x < edge := by
  have inside := unpackedTicks_lt (float32_fits x) finite
  rw [ticks]
  omega

/-- A number that is not finite is an infinity. -/
theorem infinity_of_number (number : x.isNaN = false) (infinite : ¬ x.isFinite = true) :
    ∃ sign, x.toModel.unpack = .infinity sign := by
  change x.toModel.unpack.isNaN = false at number
  change ¬ x.toModel.unpack.isFinite = true at infinite
  cases unpacked : x.toModel.unpack with
  | infinity sign => exact ⟨sign, rfl⟩
  | notANumber =>
    rw [unpacked] at number
    cases number
  | _ =>
    rw [unpacked] at infinite
    exact absurd rfl infinite

theorem ticks_infinity {sign : Sign} (infinite : x.toModel.unpack = .infinity sign) : ticks x = sign.apply edge := by
  rw [ticks, infinite]
  rfl

/-- An infinity takes every sum that is a number with it. -/
theorem ticks_infinity_add {sign : Sign} (infinite : x.toModel.unpack = .infinity sign)
    (number : (x + y).isNaN = false) : ticks (x + y) = sign.apply edge := by
  have sum := unpack_add x y
  rw [infinite] at sum
  rcases infinity_add Format.binary32 sign y.toModel.unpack with kept | lost
  · rw [kept, pack, unpack_packedInfinity] at sum
    exact ticks_infinity sum
  · rw [lost, pack, unpack_packedNaN] at sum
    change (x + y).toModel.unpack.isNaN = false at number
    rw [sum] at number
    cases number

/-- A sum with NaN is NaN. -/
theorem number_of_add (number : (x + y).isNaN = false) : y.isNaN = false := by
  change (unpack Format.binary32 (pack Format.binary32
    (UnpackedFloat.add Format.binary32 x.toModel.unpack y.toModel.unpack))).isNaN = false at number
  change y.toModel.unpack.isNaN = false
  cases unpacked : y.toModel.unpack with
  | notANumber =>
    rw [unpacked, add_unpacked_comm, UnpackedFloat.add, pack, unpack_packedNaN] at number
    cases number
  | _ => rfl

/-- A finite number has a sum with every number. -/
theorem add_number (left : x.isFinite = true) (right : y.isNaN = false) : (x + y).isNaN = false :=
  pack_number _ (add_unpacked_number left right)

/-- Of two numbers in order both are finite, or one is the infinity at its own end. -/
theorem finite_or_infinity (below : x ≤ y) :
    x.isFinite = true ∧ y.isFinite = true ∨
      x.toModel.unpack = .infinity .negative ∨ y.toModel.unpack = .infinity .positive := by
  obtain ⟨numberX, numberY⟩ := number_of_le x y below
  have ordered := ticks_le_of_le below
  by_cases finiteX : x.isFinite = true
  · by_cases finiteY : y.isFinite = true
    · exact .inl ⟨finiteX, finiteY⟩
    · obtain ⟨sign, infinite⟩ := infinity_of_number numberY finiteY
      cases sign with
      | positive => exact .inr (.inr infinite)
      | negative =>
        have inside := (ticks_inside finiteX).1
        rw [ticks_infinity infinite, Sign.apply] at ordered
        omega
  · obtain ⟨sign, infinite⟩ := infinity_of_number numberX finiteX
    cases sign with
    | negative => exact .inr (.inl infinite)
    | positive =>
      rw [ticks_infinity infinite, Sign.apply] at ordered
      have infiniteY : ¬ y.isFinite = true := fun finiteY => by
        have inside := (ticks_inside finiteY).2
        omega
      obtain ⟨sign, infinite⟩ := infinity_of_number numberY infiniteY
      cases sign with
      | positive => exact .inr (.inr infinite)
      | negative =>
        have edge_pos := edge_pos
        rw [ticks_infinity infinite, Sign.apply] at ordered
        omega

/-- A larger first operand makes no smaller sum. -/
theorem add_le_add_right (below : x ≤ y) (left : (x + z).isNaN = false) (right : (y + z).isNaN = false) :
    x + z ≤ y + z := by
  rw [le_iff_ticks left right]
  by_cases finiteZ : z.isFinite = true
  · rcases finite_or_infinity below with ⟨finiteX, finiteY⟩ | infinite | infinite
    · rw [add_ticks finiteX finiteZ, add_ticks finiteY finiteZ]
      exact limited_mono (nearestTicks_mono (Int.add_le_add_right (ticks_le_of_le below) _))
    · rw [ticks_infinity_add infinite left]
      exact (ticks_bounds (y + z)).1
    · rw [ticks_infinity_add infinite right]
      exact (ticks_bounds (x + z)).2
  · obtain ⟨sign, infinite⟩ := infinity_of_number (number_of_add left) finiteZ
    rw [add_comm] at left right
    rw [add_comm x z, add_comm y z, ticks_infinity_add infinite left, ticks_infinity_add infinite right]

/-- A larger second operand makes no smaller sum. -/
theorem add_le_add_left (below : y ≤ z) (left : (x + y).isNaN = false) (right : (x + z).isNaN = false) :
    x + y ≤ x + z := by
  rw [add_comm] at left right
  rw [add_comm x y, add_comm x z]
  exact add_le_add_right below left right

private theorem apply_neg (sign : Sign) (n : Int) : (-sign).apply n = -sign.apply n := by
  cases sign with
  | negative => exact (Int.neg_neg n).symm
  | positive => rfl

private theorem ticks_neg (x : Float32) : ticks (-x) = -ticks x := by
  rw [ticks, unpack_neg, ticks]
  cases x.toModel.unpack with
  | notANumber => rfl
  | zero sign => rfl
  | infinity sign => exact apply_neg sign edge
  | finite sign mantissa exponent positive => exact apply_neg sign (steps mantissa exponent)

theorem neg_number (number : x.isNaN = false) : (-x).isNaN = false := by
  change (-x).toModel.unpack.isNaN = false
  change x.toModel.unpack.isNaN = false at number
  rw [unpack_neg]
  cases unpacked : x.toModel.unpack with
  | notANumber =>
    rw [unpacked] at number
    cases number
  | _ => rfl

theorem neg_le_neg (below : x ≤ y) : -y ≤ -x := by
  obtain ⟨left, right⟩ := number_of_le x y below
  rw [le_iff_ticks (neg_number right) (neg_number left), ticks_neg, ticks_neg]
  exact Int.neg_le_neg (ticks_le_of_le below)

/-- What is taken away more leaves no more. -/
theorem sub_le_sub_left (below : y ≤ z) (left : (x - z).isNaN = false) (right : (x - y).isNaN = false) :
    x - z ≤ x - y := by
  rw [sub_eq_add_neg] at left right
  rw [sub_eq_add_neg x z, sub_eq_add_neg x y]
  exact add_le_add_left (neg_le_neg below) left right

theorem sub_number (left : x.isFinite = true) (right : y.isNaN = false) : (x - y).isNaN = false := by
  rw [sub_eq_add_neg]
  exact add_number left (neg_number right)

end Single

end DesktopPet.Number
