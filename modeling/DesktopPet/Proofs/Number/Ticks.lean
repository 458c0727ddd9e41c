import DesktopPet.Proofs.Number.Magnitude
import DesktopPet.Proofs.Number.Sign
import Mathlib

/-!
# Numbers of binary32 as integers

Every number of binary32 is a whole multiple of the smallest positive one, `2 ^ -149`. Counted in these ticks the
numbers are integers, and comparing them is comparing the integers (`le_iff_ticks`, `lt_iff_ticks`). The infinities
take the first power of two that the format cannot hold, so that they keep their places at both ends.
-/

namespace DesktopPet.Number

open Float.Model (Format UnpackedFloat)
open Float.Model.UnpackedFloat

/-! ## Mantissas and exponents -/

/-- Ticks of a positive number. -/
def steps (mantissa : Nat) (exponent : Int) : Nat :=
  mantissa * 2 ^ (exponent + 149).toNat

/-- Ticks from zero to where the format ends. -/
def edge : Nat :=
  2 ^ 24 * 2 ^ 253

/-- The mantissa has all its digits, or the exponent is the smallest one. -/
structure Canonical (mantissa : Nat) (exponent : Int) : Prop where
  digits : mantissa < 2 ^ 24
  smallest : -149 ≤ exponent
  full : exponent = -149 ∨ 2 ^ 23 ≤ mantissa

section Canonical

variable {mantissa other : Nat} {exponent power : Int}

/-- A larger exponent makes a larger number, whatever the mantissas are. -/
theorem Canonical.steps_lt (left : Canonical mantissa exponent) (right : Canonical other power)
    (smaller : exponent < power) : steps mantissa exponent < steps other power := by
  have above : 2 ^ 23 ≤ other := by
    rcases right.full with least | full
    · have := left.smallest
      omega
    · exact full
  have scale : 2 * 2 ^ (exponent + 149).toNat ≤ 2 ^ (power + 149).toNat := by
    have := left.smallest
    rw [← Nat.pow_succ']
    exact Nat.pow_le_pow_right (by decide) (by omega)
  calc
    steps mantissa exponent < 2 ^ 24 * 2 ^ (exponent + 149).toNat :=
      Nat.mul_lt_mul_of_pos_right left.digits (Nat.two_pow_pos _)
    _ = 2 ^ 23 * (2 * 2 ^ (exponent + 149).toNat) := by ring
    _ ≤ 2 ^ 23 * 2 ^ (power + 149).toNat := Nat.mul_le_mul_left _ scale
    _ ≤ steps other power := Nat.mul_le_mul_right _ above

/-- Numbers of the format are ordered by exponent first and then by mantissa. -/
theorem Canonical.compare_steps (left : Canonical mantissa exponent) (right : Canonical other power) :
    compare (steps mantissa exponent) (steps other power) =
      (compare exponent power).then (compare mantissa other) := by
  rcases lt_trichotomy exponent power with smaller | same | larger
  · rw [compare_lt_iff_lt.mpr smaller, compare_lt_iff_lt.mpr (left.steps_lt right smaller)]
    rfl
  · subst same
    have scaled : StrictMono fun k : Nat => k * 2 ^ (exponent + 149).toNat :=
      fun _ _ less => Nat.mul_lt_mul_of_pos_right less (Nat.two_pow_pos _)
    rw [compare_eq_iff_eq.mpr (rfl : exponent = exponent), Ordering.then]
    simpa only [cmp_eq_compare, steps] using scaled.cmp_map_eq mantissa other
  · rw [compare_gt_iff_gt.mpr larger, compare_gt_iff_gt.mpr (right.steps_lt left larger)]
    rfl

theorem Canonical.steps_lt_edge (canonical : Canonical mantissa exponent) (bounded : exponent ≤ 104) :
    steps mantissa exponent < edge :=
  calc
    steps mantissa exponent < 2 ^ 24 * 2 ^ (exponent + 149).toNat :=
      Nat.mul_lt_mul_of_pos_right canonical.digits (Nat.two_pow_pos _)
    _ ≤ edge := Nat.mul_le_mul_left _ (Nat.pow_le_pow_right (by decide) (by omega))

theorem steps_pos (positive : 0 < mantissa) : 0 < steps mantissa exponent :=
  Nat.mul_pos positive (Nat.two_pow_pos _)

end Canonical

/-! ## Unpacked numbers -/

/-- The value in ticks; NaN has none, and zero stands for it. -/
def unpackedTicks : UnpackedFloat → Int
  | .notANumber => 0
  | .infinity sign => sign.apply edge
  | .zero _ => 0
  | .finite sign mantissa exponent _ => sign.apply (steps mantissa exponent)

/-- Every finite number in it is one of the format. -/
def Fits : UnpackedFloat → Prop
  | .finite _ mantissa exponent _ => Canonical mantissa exponent ∧ exponent ≤ 104
  | _ => True

/-- The smallest exponent stands for the exponent field zero, and any other comes with a leading digit. -/
theorem unpack_full (bits : BitVec Format.binary32.numBits) (sign : Sign) (mantissa : Nat) (exponent : Int)
    (positive : 0 < mantissa) (unpacked : unpack Format.binary32 bits = .finite sign mantissa exponent positive) :
    -149 ≤ exponent ∧ (exponent = -149 ∨ 2 ^ 23 ≤ mantissa) := by
  simp only [unpack] at unpacked
  split at unpacked
  · split at unpacked <;> cases unpacked
  · split at unpacked
    next subnormal =>
      split at unpacked
      · cases unpacked
      · cases unpacked
        rw [subnormal]
        exact ⟨by decide, .inl (by decide)⟩
    next normal =>
      cases unpacked
      have field : (unpackExponent bits).toNat ≠ 0 := fun zero => normal (BitVec.eq_of_toNat_eq zero)
      have bias : ((Format.binary32.exponentBias : Nat) : Int) = 127 := by decide
      refine ⟨by simp only [bias]; omega, .inr ?_⟩
      rw [BitVec.toNat_append, ← Nat.shiftLeft_add_eq_or_of_lt (unpackMantissa bits).isLt]
      exact Nat.le_add_right _ _

/-- What is read from the format fits the format. -/
theorem unpack_fits (bits : BitVec Format.binary32.numBits) : Fits (unpack Format.binary32 bits) := by
  cases unpacked : unpack Format.binary32 bits with
  | finite sign mantissa exponent positive =>
    obtain ⟨digits, bounded⟩ := unpack_bounds bits sign mantissa exponent positive unpacked
    obtain ⟨smallest, full⟩ := unpack_full bits sign mantissa exponent positive unpacked
    exact ⟨⟨digits, smallest, full⟩, bounded⟩
  | _ => trivial

theorem edge_pos : 0 < edge :=
  Nat.mul_pos (Nat.two_pow_pos 24) (Nat.two_pow_pos 253)

private theorem natAbs_apply (sign : Sign) (n : Nat) : (sign.apply n).natAbs = n := by
  cases sign <;> simp [Sign.apply]

/-- Finite numbers lie between the infinities. -/
theorem unpackedTicks_lt {u : UnpackedFloat} (fits : Fits u) (finite : u.isFinite = true) :
    (unpackedTicks u).natAbs < edge := by
  cases u with
  | notANumber => cases finite
  | infinity sign => cases finite
  | zero sign => exact edge_pos
  | finite sign mantissa exponent positive =>
    rw [unpackedTicks, natAbs_apply]
    exact fits.1.steps_lt_edge fits.2

/-- No number lies beyond the infinities. -/
theorem unpackedTicks_le {u : UnpackedFloat} (fits : Fits u) : (unpackedTicks u).natAbs ≤ edge := by
  cases u with
  | notANumber => exact Nat.zero_le edge
  | infinity sign => exact (natAbs_apply sign edge).le
  | zero sign => exact Nat.zero_le edge
  | finite => exact (unpackedTicks_lt fits rfl).le

private theorem some_lt {a b : Int} (smaller : a < b) : some Ordering.lt = some (compare a b) :=
  congrArg some (compare_lt_iff_lt.mpr smaller).symm

private theorem some_gt {a b : Int} (larger : b < a) : some Ordering.gt = some (compare a b) :=
  congrArg some (compare_gt_iff_gt.mpr larger).symm

private theorem compare_positive (m n : Nat) :
    compare (Sign.positive.apply m) (Sign.positive.apply n) = compare m n := by
  have order : StrictMono fun k : Nat => (k : Int) := Nat.strictMono_cast
  simpa only [Sign.apply, cmp_eq_compare] using order.cmp_map_eq m n

private theorem compare_negative (m n : Nat) :
    compare (Sign.negative.apply m) (Sign.negative.apply n) = (compare m n).swap := by
  have order : StrictAnti fun k : Nat => -(k : Int) := fun _ _ less => by simpa using less
  simpa only [Sign.apply, cmp_eq_compare, Nat.compare_swap] using order.cmp_map_eq m n

private theorem infinity_compare (sign : Sign) {u : UnpackedFloat} (fits : Fits u) (number : u.isNaN = false) :
    (UnpackedFloat.infinity sign).compare u = some (compare (sign.apply edge) (unpackedTicks u)) := by
  have ends := edge_pos
  have inside := unpackedTicks_lt fits
  cases u with
  | notANumber => cases number
  | infinity other =>
    cases sign <;> cases other
    · exact congrArg some (compare_eq_iff_eq.mpr rfl).symm
    · exact some_lt (by simp only [unpackedTicks, Sign.apply]; omega)
    · exact some_gt (by simp only [unpackedTicks, Sign.apply]; omega)
    · exact congrArg some (compare_eq_iff_eq.mpr rfl).symm
  | zero other =>
    cases sign
    · exact some_lt (by simp only [unpackedTicks, Sign.apply]; omega)
    · exact some_gt (by simp only [unpackedTicks, Sign.apply]; omega)
  | finite other mantissa exponent positive =>
    have inside := inside rfl
    cases sign
    · exact some_lt (by simp only [Sign.apply]; omega)
    · exact some_gt (by simp only [Sign.apply]; omega)

private theorem zero_compare (sign : Sign) {u : UnpackedFloat} (finite : u.isFinite = true) :
    (UnpackedFloat.zero sign).compare u = some (compare 0 (unpackedTicks u)) := by
  cases u with
  | notANumber => cases finite
  | infinity other => cases finite
  | zero other => rfl
  | finite other mantissa exponent positive =>
    have far : 0 < steps mantissa exponent := steps_pos positive
    cases other
    · exact some_gt (by simp only [unpackedTicks, Sign.apply]; omega)
    · exact some_lt (by simp only [unpackedTicks, Sign.apply]; omega)

private theorem finite_compare {u v : UnpackedFloat} (fitsLeft : Fits u) (fitsRight : Fits v) (left : u.isFinite = true)
    (right : v.isFinite = true) : u.compare v = some (compare (unpackedTicks u) (unpackedTicks v)) := by
  cases u with
  | notANumber => cases left
  | infinity sign => cases left
  | zero sign => exact zero_compare sign right
  | finite sign mantissa exponent positive =>
    cases v with
    | notANumber => cases right
    | infinity sign' => cases right
    | zero sign' =>
      rw [unpacked_compare_swap (.zero sign'), zero_compare sign' left, Option.map_some, Int.compare_swap]
      rfl
    | finite sign' mantissa' exponent' positive' =>
      have order := fitsLeft.1.compare_steps fitsRight.1
      have far : 0 < steps mantissa exponent := steps_pos positive
      have far' : 0 < steps mantissa' exponent' := steps_pos positive'
      cases sign <;> cases sign'
      · exact congrArg some ((compare_negative _ _).trans (congrArg Ordering.swap order)).symm
      · exact some_lt (by simp only [unpackedTicks, Sign.apply]; omega)
      · exact some_gt (by simp only [unpackedTicks, Sign.apply]; omega)
      · exact congrArg some ((compare_positive _ _).trans order).symm

/-- Numbers compare as their ticks do. -/
theorem compare_ticks {u v : UnpackedFloat} (fitsLeft : Fits u) (fitsRight : Fits v) (left : u.isNaN = false)
    (right : v.isNaN = false) : u.compare v = some (compare (unpackedTicks u) (unpackedTicks v)) := by
  by_cases finiteLeft : u.isFinite = true
  · by_cases finiteRight : v.isFinite = true
    · exact finite_compare fitsLeft fitsRight finiteLeft finiteRight
    · cases v with
      | infinity sign =>
        rw [unpacked_compare_swap (.infinity sign), infinity_compare sign fitsLeft left, Option.map_some,
          Int.compare_swap]
        rfl
      | notANumber => cases right
      | _ => exact absurd rfl finiteRight
  · cases u with
    | infinity sign => exact infinity_compare sign fitsRight right
    | notANumber => cases left
    | _ => exact absurd rfl finiteLeft

/-! ## Numbers of binary32 -/

/-- The value of a number in ticks. -/
def ticks (x : Float32) : Int :=
  unpackedTicks x.toModel.unpack

section Single

variable {x y z : Float32}

theorem float32_fits (x : Float32) : Fits x.toModel.unpack :=
  unpack_fits _

theorem le_iff_ticks (left : x.isNaN = false) (right : y.isNaN = false) : x ≤ y ↔ ticks x ≤ ticks y := by
  change decide (x.toModel.unpack.le y.toModel.unpack) = true ↔ _
  rw [UnpackedFloat.le, compare_ticks (float32_fits x) (float32_fits y) left right]
  simp [ticks, Std.isLE_compare]

theorem lt_iff_ticks (left : x.isNaN = false) (right : y.isNaN = false) : x < y ↔ ticks x < ticks y := by
  change decide (x.toModel.unpack.lt y.toModel.unpack) = true ↔ _
  rw [UnpackedFloat.lt, compare_ticks (float32_fits x) (float32_fits y) left right]
  simp [ticks, compare_lt_iff_lt]

theorem ticks_le_of_le (below : x ≤ y) : ticks x ≤ ticks y := by
  obtain ⟨left, right⟩ := number_of_le x y below
  exact (le_iff_ticks left right).mp below

theorem le_trans (first : x ≤ y) (second : y ≤ z) : x ≤ z :=
  (le_iff_ticks (number_of_le x y first).1 (number_of_le y z second).2).mpr
    ((ticks_le_of_le first).trans (ticks_le_of_le second))

theorem lt_of_le_of_lt (first : x ≤ y) (second : y < z) : x < z := by
  have weak := le_of_lt y z second
  obtain ⟨numberX, numberY⟩ := number_of_le x y first
  obtain ⟨_, numberZ⟩ := number_of_le y z weak
  rw [lt_iff_ticks numberY numberZ] at second
  rw [lt_iff_ticks numberX numberZ]
  exact Int.lt_of_le_of_lt (ticks_le_of_le first) second

theorem lt_of_lt_of_le (first : x < y) (second : y ≤ z) : x < z := by
  have weak := le_of_lt x y first
  obtain ⟨numberX, numberY⟩ := number_of_le x y weak
  obtain ⟨_, numberZ⟩ := number_of_le y z second
  rw [lt_iff_ticks numberX numberY] at first
  rw [lt_iff_ticks numberX numberZ]
  exact Int.lt_of_lt_of_le first (ticks_le_of_le second)

end Single

end DesktopPet.Number
