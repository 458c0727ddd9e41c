import DesktopPet.Proofs.Number.Ticks
import Mathlib

/-!
# Rounding to the nearest number

What is rounded to binary32 becomes the nearest number of the format: `nearest`, on numbers of ticks. Rounding keeps
the order of what it rounds (`nearest_mono`) and leaves the numbers of the format as they are (`nearest_steps`).
-/

namespace DesktopPet.Number

open Float.Model (Format UnpackedFloat totalExponent)
open Float.Model.UnpackedFloat

/-! ## Digits shifted out -/

/-- The mantissa with no digit shifted out yet. -/
def exactly (mantissa : Nat) : ExtendedMantissa :=
  .ofMantissaAndAccuracy mantissa .exact

/-- Mantissa, round bit and sticky bit read as the digits of one number. -/
def digits (em : ExtendedMantissa) : Nat :=
  4 * em.mantissa + 2 * em.roundBit.toNat + em.stickyBit.toNat

private theorem shiftRight_succ (em : ExtendedMantissa) (amount : Nat) :
    em >>> (amount + 1) = (em >>> amount).shiftRightOne :=
  rfl

private theorem digits_shiftRightOne (em : ExtendedMantissa) :
    digits em.shiftRightOne = 2 * (digits em / 4) + min 1 (digits em % 4) := by
  obtain ⟨mantissa, roundBit, stickyBit⟩ := em
  have parity : (mantissa % 2 != 0).toNat = mantissa % 2 := by
    rcases Nat.mod_two_eq_zero_or_one mantissa with even | odd
    · rw [even]; rfl
    · rw [odd]; rfl
  simp only [digits, ExtendedMantissa.shiftRightOne, parity]
  cases roundBit <;> cases stickyBit <;> simp only [Bool.toNat, Bool.or, cond_true, cond_false] <;> omega

/-- A shift keeps the order. -/
private theorem digits_shift_mono {em other : ExtendedMantissa} (ordered : digits em ≤ digits other) (amount : Nat) :
    digits (em >>> amount) ≤ digits (other >>> amount) := by
  induction amount with
  | zero => exact ordered
  | succ amount ih =>
    rw [shiftRight_succ, shiftRight_succ, digits_shiftRightOne, digits_shiftRightOne]
    omega

/-- So does rounding what is left. -/
theorem roundedMantissa_mono {em other : ExtendedMantissa} (ordered : digits em ≤ digits other) :
    em.roundedMantissa ≤ other.roundedMantissa := by
  obtain ⟨mantissa, roundBit, stickyBit⟩ := em
  obtain ⟨mantissa', roundBit', stickyBit'⟩ := other
  simp only [digits] at ordered
  cases roundBit <;> cases stickyBit <;> cases roundBit' <;> cases stickyBit' <;>
    simp only [Bool.toNat, cond_true, cond_false, ExtendedMantissa.roundedMantissa, ExtendedMantissa.accuracy,
      Accuracy.roundToNearestEven] at ordered ⊢ <;> omega

private theorem le_roundedMantissa (em : ExtendedMantissa) : em.mantissa ≤ em.roundedMantissa := by
  obtain ⟨mantissa, roundBit, stickyBit⟩ := em
  cases roundBit <;> cases stickyBit <;>
    simp only [ExtendedMantissa.roundedMantissa, ExtendedMantissa.accuracy, Accuracy.roundToNearestEven] <;> omega

private theorem shiftRight_add (em : ExtendedMantissa) (first second : Nat) :
    em >>> (first + second) = (em >>> first) >>> second := by
  induction second with
  | zero => rfl
  | succ second ih => rw [← Nat.add_assoc, shiftRight_succ, ih, shiftRight_succ]

/-- Zeros at the end are shifted out without a trace. -/
theorem exactly_shift (mantissa amount : Nat) : exactly (mantissa * 2 ^ amount) >>> amount = exactly mantissa := by
  induction amount generalizing mantissa with
  | zero => rw [Nat.pow_zero, Nat.mul_one]; rfl
  | succ amount ih =>
    have last : (exactly (mantissa * 2)).shiftRightOne = exactly mantissa := by
      simp [exactly, ExtendedMantissa.ofMantissaAndAccuracy, ExtendedMantissa.shiftRightOne]
    rw [Nat.pow_succ', ← Nat.mul_assoc, shiftRight_succ, ih, last]

/-! ## Rounding ticks -/

/-- Digits that a number of ticks has to lose to fit the format. -/
def excess (n : Nat) : Nat :=
  n.log2 - 23

/-- The mantissa that is left, rounded. -/
def leading (n : Nat) : Nat :=
  (exactly n >>> excess n).roundedMantissa

/-- The number of the format nearest to `n` ticks; a tie goes to the even mantissa. -/
def nearest (n : Nat) : Nat :=
  leading n * 2 ^ excess n

private theorem le_leading (n : Nat) : n / 2 ^ excess n ≤ leading n := by
  have kept := le_roundedMantissa (exactly n >>> excess n)
  rwa [repeat_shiftRightOne, exactly, ofMantissaAndAccuracy_mantissa] at kept

private theorem leading_le (n : Nat) : leading n ≤ 2 ^ 24 := by
  have rounded := roundedMantissa_le (exactly n >>> excess n)
  rw [repeat_shiftRightOne, exactly, ofMantissaAndAccuracy_mantissa] at rounded
  have short : n / 2 ^ excess n < 2 ^ 24 := by
    rw [Nat.div_lt_iff_lt_mul (Nat.two_pow_pos _), ← Nat.pow_add]
    exact Nat.lt_of_lt_of_le Nat.lt_log2_self (Nat.pow_le_pow_right (by decide) (by rw [excess]; omega))
  exact Nat.le_trans rounded short

/-- A mantissa that lost digits has all the digits of the format. -/
theorem leading_full {n : Nat} (long : 23 ≤ n.log2) : 2 ^ 23 ≤ leading n := by
  refine Nat.le_trans ?_ (le_leading n)
  have positive : n ≠ 0 := by
    intro zero
    rw [zero] at long
    exact absurd long (by decide)
  rw [Nat.le_div_iff_mul_le (Nat.two_pow_pos _), ← Nat.pow_add, excess, Nat.add_sub_cancel' long]
  exact Nat.log2_self_le positive

/-- Rounding keeps the order. -/
theorem nearest_mono {m n : Nat} (ordered : m ≤ n) : nearest m ≤ nearest n := by
  have lengths : m.log2 ≤ n.log2 := by
    rcases Nat.eq_zero_or_pos m with zero | positive
    · rw [zero]
      exact Nat.zero_le _
    · exact (Nat.le_log2 (by omega)).mpr (Nat.le_trans (Nat.log2_self_le (by omega)) ordered)
  by_cases same : excess m = excess n
  · -- both lose the same digits
    have grown : digits (exactly m) ≤ digits (exactly n) := by
      simpa [digits, exactly, ExtendedMantissa.ofMantissaAndAccuracy] using ordered
    rw [nearest, nearest, leading, leading, ← same]
    exact Nat.mul_le_mul_right _ (roundedMantissa_mono (digits_shift_mono grown _))
  · -- a power of two lies between them
    simp only [excess] at same
    calc
      nearest m ≤ 2 ^ 24 * 2 ^ excess m := Nat.mul_le_mul_right _ (leading_le m)
      _ = 2 ^ (24 + excess m) := (Nat.pow_add _ _ _).symm
      _ ≤ 2 ^ (23 + excess n) := Nat.pow_le_pow_right (by decide) (by simp only [excess]; omega)
      _ = 2 ^ 23 * 2 ^ excess n := Nat.pow_add _ _ _
      _ ≤ nearest n := Nat.mul_le_mul_right _ (leading_full (by omega))

private theorem log2_mul_two_pow {n : Nat} (positive : 0 < n) (amount : Nat) :
    (n * 2 ^ amount).log2 = n.log2 + amount := by
  induction amount with
  | zero => rw [Nat.pow_zero, Nat.mul_one, Nat.add_zero]
  | succ amount ih =>
    have product : n * 2 ^ amount ≠ 0 := Nat.ne_of_gt (Nat.mul_pos positive (Nat.two_pow_pos amount))
    rw [Nat.pow_succ', Nat.mul_left_comm, Nat.log2_two_mul product, ih, Nat.add_assoc]

private theorem log2_steps {mantissa : Nat} (exponent : Int) (positive : 0 < mantissa) :
    (steps mantissa exponent).log2 = mantissa.log2 + (exponent + 149).toNat :=
  log2_mul_two_pow positive _

/-- A number of the format is the nearest one to itself. -/
theorem nearest_steps {mantissa : Nat} {exponent : Int} (canonical : Canonical mantissa exponent)
    (positive : 0 < mantissa) : nearest (steps mantissa exponent) = steps mantissa exponent := by
  have lost : excess (steps mantissa exponent) = (exponent + 149).toNat := by
    have short := log2_le mantissa 23 canonical.digits
    rw [excess, log2_steps exponent positive]
    rcases canonical.full with least | full
    · rw [least]
      exact Nat.sub_eq_zero_of_le short
    · have long : 23 ≤ mantissa.log2 := (Nat.le_log2 (by omega)).mpr full
      omega
  rw [nearest, leading, lost, steps, exactly_shift]
  rfl

/-! ## Rounding unpacked numbers -/

/-- The exponent that the format demands is the smallest one plus the digits to lose. -/
theorem targetExponent_steps {mantissa : Nat} {exponent : Int} (positive : 0 < mantissa)
    (smallest : -149 ≤ exponent) :
    Format.binary32.targetExponent (totalExponent mantissa exponent) =
      (excess (steps mantissa exponent) : Int) - 149 := by
  rw [excess, log2_steps exponent positive]
  simp only [Format.targetExponent, Format.minExponent, Format.mantissaBits, totalExponent]
  omega

/-- The first shift of a rounding leaves the leading digits, however mantissa and exponent share the value. -/
theorem shift_leading {mantissa : Nat} {exponent : Int} (positive : 0 < mantissa) (smallest : -149 ≤ exponent)
    (given : exponent ≤ (excess (steps mantissa exponent) : Int) - 149) :
    shiftToTargetExponent Format.binary32 mantissa exponent .exact =
      (exactly (steps mantissa exponent) >>> excess (steps mantissa exponent),
        (excess (steps mantissa exponent) : Int) - 149) := by
  rw [shiftToTargetExponent, targetExponent_steps positive smallest, shiftToExponent]
  generalize excess (steps mantissa exponent) = lost at given
  have amount : lost = (exponent + 149).toNat + ((lost : Int) - 149 - exponent).toNat := by omega
  refine Prod.ext ?_ ?_
  · change exactly mantissa >>> ((lost : Int) - 149 - exponent).toNat = _
    conv_rhs => rw [amount, shiftRight_add, steps, exactly_shift]
  · change exponent + (((lost : Int) - 149 - exponent).toNat : Int) = _
    omega

/-- A mantissa that fits is not shifted again. -/
theorem shift_short {mantissa : Nat} (short : mantissa < 2 ^ 24) {exponent : Int} (smallest : -149 ≤ exponent) :
    shiftToTargetExponent Format.binary32 mantissa exponent .exact = (exactly mantissa, exponent) := by
  have height := log2_le mantissa 23 short
  have stay : (Format.binary32.targetExponent (totalExponent mantissa exponent) - exponent).toNat = 0 := by
    simp only [Format.targetExponent, Format.minExponent, Format.mantissaBits, totalExponent]
    omega
  rw [shiftToTargetExponent, shiftToExponent, stay]
  exact Prod.ext rfl (Int.add_zero exponent)

/-- A mantissa that rounding made one digit longer is shifted by this digit. -/
theorem shift_carry {exponent : Int} (smallest : -149 ≤ exponent) :
    shiftToTargetExponent Format.binary32 (2 ^ 24) exponent .exact = (exactly (2 ^ 23), exponent + 1) := by
  have move : (Format.binary32.targetExponent (totalExponent (2 ^ 24) exponent) - exponent).toNat = 1 := by
    simp only [Format.targetExponent, Format.minExponent, Format.mantissaBits, totalExponent, Nat.log2_two_pow]
    omega
  rw [shiftToTargetExponent, shiftToExponent, move]
  rfl

/-- Mantissa and exponent of a finite number are canonical. -/
def Normalized : UnpackedFloat → Prop
  | .finite _ mantissa exponent _ => Canonical mantissa exponent
  | _ => True

private theorem sign_apply_zero (sign : Sign) : sign.apply (0 : Nat) = 0 := by
  cases sign <;> rfl

/-- The ticks of a mantissa that lost digits. -/
theorem steps_excess (mantissa lost : Nat) : steps mantissa ((lost : Int) - 149) = mantissa * 2 ^ lost := by
  rw [steps, Int.sub_add_cancel, Int.toNat_natCast]

private theorem leading_canonical (n : Nat) (short : leading n < 2 ^ 24) :
    Canonical (leading n) ((excess n : Int) - 149) := by
  refine ⟨short, by omega, ?_⟩
  rcases Nat.eq_zero_or_pos (excess n) with none | some
  · exact .inl (by rw [none]; rfl)
  · exact .inr (leading_full (by rw [excess] at some; omega))

private theorem roundWithAccuracy_nearest (sign : Sign) {mantissa : Nat} {exponent : Int} (positive : 0 < mantissa)
    (smallest : -149 ≤ exponent) (given : exponent ≤ (excess (steps mantissa exponent) : Int) - 149) :
    Normalized (roundWithAccuracy Format.binary32 sign mantissa exponent .exact) ∧
      unpackedTicks (roundWithAccuracy Format.binary32 sign mantissa exponent .exact) =
        sign.apply (nearest (steps mantissa exponent)) := by
  rw [roundWithAccuracy, shift_leading positive smallest given]
  generalize steps mantissa exponent = n
  dsimp only
  rw [show (exactly n >>> excess n).roundedMantissa = leading n from rfl]
  have exponents : (-149 : Int) ≤ (excess n : Int) - 149 := by omega
  rcases Nat.lt_or_eq_of_le (leading_le n) with short | carry
  · rw [shift_short short exponents]
    change Normalized (if h : leading n = 0 then _ else _) ∧ unpackedTicks (if h : leading n = 0 then _ else _) = _
    split
    next none =>
      rw [nearest, none, Nat.zero_mul, sign_apply_zero]
      exact ⟨trivial, rfl⟩
    next some =>
      refine ⟨leading_canonical n short, ?_⟩
      rw [nearest, ← steps_excess]
      rfl
  · have ticks : steps (2 ^ 23) ((excess n : Int) - 149 + 1) = nearest n := by
      have later : (excess n : Int) - 149 + 1 = ((excess n + 1 : Nat) : Int) - 149 := by omega
      rw [later, steps_excess, nearest, carry]
      ring
    rw [carry, shift_carry exponents]
    dsimp only
    rw [dif_neg (by decide)]
    refine ⟨⟨(by decide : 2 ^ 23 < 2 ^ 24), by omega, .inr (Nat.le_refl _)⟩, ?_⟩
    rw [← ticks]
    rfl

/-- Rounding gives the nearest number of the format. -/
theorem round_nearest (sign : Sign) {mantissa : Nat} {exponent : Int} (positive : 0 < mantissa)
    (smallest : -149 ≤ exponent) :
    Normalized (UnpackedFloat.round Format.binary32 sign mantissa exponent) ∧
      unpackedTicks (UnpackedFloat.round Format.binary32 sign mantissa exponent) =
        sign.apply (nearest (steps mantissa exponent)) := by
  rw [UnpackedFloat.round, targetExponent_steps positive smallest, decreaseExponent]
  dsimp only
  generalize appended : (exponent - ((excess (steps mantissa exponent) : Int) - 149)).toNat = amount
  have same : steps (mantissa <<< amount) (exponent - amount) = steps mantissa exponent := by
    have apart : (exponent + 149).toNat = amount + (exponent - amount + 149).toNat := by omega
    rw [steps, steps, apart, Nat.shiftLeft_eq, Nat.mul_assoc, ← Nat.pow_add]
  have some : 0 < mantissa <<< amount := by
    rw [Nat.shiftLeft_eq]
    exact Nat.mul_pos positive (Nat.two_pow_pos amount)
  have least : -149 ≤ exponent - amount := by omega
  have rounded := roundWithAccuracy_nearest sign some least (by rw [same]; omega)
  rwa [same] at rounded

/-! ## Packing -/

/-- Ticks beyond the format become those of an infinity. -/
def limited (t : Int) : Int :=
  max (-edge) (min t edge)

theorem limited_mono {s t : Int} (ordered : s ≤ t) : limited s ≤ limited t := by
  rw [limited, limited]
  omega

theorem finite_congr {sign : Sign} {mantissa other : Nat} {exponent power : Int} {positive : 0 < mantissa}
    {positive' : 0 < other} (mantissas : mantissa = other) (exponents : exponent = power) :
    UnpackedFloat.finite sign mantissa exponent positive = .finite sign other power positive' := by
  subst mantissas
  subst exponents
  rfl

/-- Components with an ordinary exponent field are read with the leading digit that packing took off. -/
theorem unpack_components_normal (sign : Sign) {field mantissa : Nat} (positive : 0 < mantissa) (some : 0 < field)
    (fits : field + 1 < 2 ^ 8) (full : 2 ^ 23 ≤ mantissa) (short : mantissa < 2 ^ 24) :
    unpack Format.binary32 (packComponents Format.binary32 sign (BitVec.ofNat _ field) (BitVec.ofNat _ mantissa)) =
      .finite sign mantissa ((field : Int) - 150) positive := by
  have fieldNat : (BitVec.ofNat Format.binary32.exponentBits field).toNat = field := by
    rw [BitVec.toNat_ofNat]
    exact Nat.mod_eq_of_lt (by change field < 2 ^ 8; omega)
  have ordinary : BitVec.ofNat Format.binary32.exponentBits field ≠ 0#_ := by
    intro zero
    have none := congrArg BitVec.toNat zero
    rw [fieldNat] at none
    change field = 0 at none
    omega
  simp only [unpack, unpackExponent_packComponents, unpackMantissa_packComponents, unpackSign_packComponents,
    Sign.ofBitVec_toBitVec, if_neg (exponentField_ne field (Nat.not_le.mpr fits)), if_neg ordinary]
  refine finite_congr ?_ ?_
  · rw [BitVec.toNat_append, ← Nat.shiftLeft_add_eq_or_of_lt (BitVec.isLt _), BitVec.toNat_ofNat]
    change 1 <<< 23 + mantissa % 2 ^ 23 = mantissa
    omega
  · rw [fieldNat]
    rfl

/-- Components with the exponent field zero are read with the smallest exponent. -/
theorem unpack_components_subnormal (sign : Sign) {mantissa : Nat} (positive : 0 < mantissa)
    (short : mantissa < 2 ^ 23) :
    unpack Format.binary32 (packComponents Format.binary32 sign 0#_ (BitVec.ofNat _ mantissa)) =
      .finite sign mantissa (-149) positive := by
  have bits : (BitVec.ofNat Format.binary32.mantissaBitsWithoutImplicit mantissa).toNat = mantissa := by
    rw [BitVec.toNat_ofNat]
    exact Nat.mod_eq_of_lt short
  have some : BitVec.ofNat Format.binary32.mantissaBitsWithoutImplicit mantissa ≠ 0#_ := by
    intro zero
    have none := congrArg BitVec.toNat zero
    rw [bits] at none
    change mantissa = 0 at none
    omega
  have least : (0#8 : BitVec Format.binary32.exponentBits) ≠ -1#_ := by decide
  simp only [unpack, unpackExponent_packComponents, unpackMantissa_packComponents, unpackSign_packComponents,
    Sign.ofBitVec_toBitVec, if_neg least, if_pos, dif_neg some]
  exact finite_congr bits rfl

/-- A number of the format is read back as it was packed. -/
theorem unpack_pack (sign : Sign) {mantissa : Nat} {exponent : Int} (positive : 0 < mantissa)
    (canonical : Canonical mantissa exponent) (bounded : exponent ≤ 104) :
    unpack Format.binary32 (pack Format.binary32 (.finite sign mantissa exponent positive)) =
      .finite sign mantissa exponent positive := by
  have smallest := canonical.smallest
  obtain ⟨field, back⟩ : ∃ field : Nat, exponent + 150 = field := ⟨(exponent + 150).toNat, by omega⟩
  have fieldEq :
      (exponent + Format.binary32.exponentBias + Format.binary32.mantissaBitsWithoutImplicit).toNat = field := by
    change (exponent + 127 + 23).toNat = field
    omega
  have fits : ¬ 2 ^ Format.binary32.exponentBits ≤ field + 1 := by
    change ¬ 2 ^ 8 ≤ field + 1
    omega
  rw [pack]
  dsimp only
  rw [fieldEq, if_neg fits]
  split
  next long =>
    have height : mantissa.log2 = 23 := Nat.succ.inj long
    have full : 2 ^ 23 ≤ mantissa := height ▸ Nat.log2_self_le (Nat.ne_of_gt positive)
    rw [unpack_components_normal sign positive (by omega) (Nat.not_le.mp fits) full canonical.digits]
    exact finite_congr rfl (by omega)
  next short =>
    have height : mantissa.log2 < 23 :=
      Nat.lt_of_le_of_ne (log2_le mantissa 23 canonical.digits) fun full => short (congrArg Nat.succ full)
    have digits : mantissa < 2 ^ 23 := (Nat.log2_lt (Nat.ne_of_gt positive)).mp height
    have least : exponent = -149 := canonical.full.resolve_right (Nat.not_le.mpr digits)
    rw [unpack_components_subnormal sign positive digits]
    exact finite_congr rfl least.symm

/-- An exponent beyond the format goes with ticks beyond it. -/
private theorem edge_le_steps {mantissa : Nat} {exponent : Int} (canonical : Canonical mantissa exponent)
    (large : 104 < exponent) : edge ≤ steps mantissa exponent := by
  have full : 2 ^ 23 ≤ mantissa := canonical.full.resolve_left (by omega)
  calc
    edge = 2 ^ 23 * 2 ^ 254 := by rw [edge]; norm_num
    _ ≤ mantissa * 2 ^ 254 := Nat.mul_le_mul_right _ full
    _ ≤ steps mantissa exponent := Nat.mul_le_mul_left _ (Nat.pow_le_pow_right (by decide) (by omega))

private theorem limited_of_lt {t : Int} (inside : t.natAbs < edge) : limited t = t := by
  rw [limited]
  omega

private theorem limited_of_le (sign : Sign) {n : Nat} (outside : edge ≤ n) :
    limited (sign.apply n) = sign.apply edge := by
  cases sign <;> simp only [limited, Sign.apply] <;> omega

/-- Packing keeps the ticks up to the edge of the format. -/
theorem pack_ticks {u : UnpackedFloat} (normalized : Normalized u) :
    unpackedTicks (unpack Format.binary32 (pack Format.binary32 u)) = limited (unpackedTicks u) := by
  cases u with
  | notANumber =>
    rw [pack, unpack_packedNaN]
    rfl
  | infinity sign =>
    rw [pack, unpack_packedInfinity]
    exact (limited_of_le sign (Nat.le_refl edge)).symm
  | zero sign =>
    rw [pack, unpack_packedZero]
    rfl
  | finite sign mantissa exponent positive =>
    by_cases bounded : exponent ≤ 104
    · rw [unpack_pack sign positive normalized bounded]
      have fits : Fits (.finite sign mantissa exponent positive) := ⟨normalized, bounded⟩
      exact (limited_of_lt (unpackedTicks_lt fits rfl)).symm
    · have overflow : 2 ^ Format.binary32.exponentBits ≤
          (exponent + Format.binary32.exponentBias + Format.binary32.mantissaBitsWithoutImplicit).toNat + 1 := by
        change 2 ^ 8 ≤ (exponent + 127 + 23).toNat + 1
        omega
      rw [pack]
      dsimp only
      rw [if_pos overflow, unpack_packedInfinity]
      exact (limited_of_le sign (edge_le_steps normalized (by omega))).symm

end DesktopPet.Number
