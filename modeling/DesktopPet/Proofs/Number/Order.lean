import DesktopPet.Number.Binary

/-!
# The order of binary32 numbers

Numbers other than NaN are totally ordered, with the two zeros equal. Everything here follows from one
fact: comparing the other way around reverses the answer.
-/

namespace DesktopPet.Number

open Float.Model (UnpackedFloat)

private theorem sign_compare_swap (a b : UnpackedFloat.Sign) : compare b a = (compare a b).swap := by
  cases a <;> cases b <;> rfl

/-- The comparison of the other way around is the reverse; with NaN there is none either way. -/
theorem unpacked_compare_swap (x y : UnpackedFloat) : y.compare x = (x.compare y).map Ordering.swap := by
  cases x with
  | notANumber => cases y <;> rfl
  | infinity s =>
    cases y with
    | infinity t => exact congrArg some (sign_compare_swap s t)
    | _ => cases s <;> rfl
  | zero s =>
    cases y with
    | infinity t => cases t <;> rfl
    | finite t _ _ _ => cases t <;> rfl
    | _ => rfl
  | finite s m e _ =>
    cases y with
    | infinity t => cases t <;> cases s <;> rfl
    | finite t n f _ =>
      have reversed : ((compare f e).then (compare n m)) = ((compare e f).then (compare m n)).swap := by
        rw [Ordering.swap_then, Int.compare_swap, Nat.compare_swap]
      cases s with
      | positive =>
        cases t with
        | positive => exact congrArg some reversed
        | negative => rfl
      | negative =>
        cases t with
        | positive => rfl
        | negative => exact congrArg (fun order => some (Ordering.swap order)) reversed
    | zero t => cases s <;> rfl
    | notANumber => rfl

/-- Numbers other than NaN compare. -/
theorem unpacked_compare_isSome (x y : UnpackedFloat) (hx : x.isNaN = false) (hy : y.isNaN = false) :
    (x.compare y).isSome = true := by
  cases x with
  | notANumber => cases hx
  | infinity s =>
    cases y with
    | notANumber => cases hy
    | _ => cases s <;> rfl
  | zero s =>
    cases y with
    | notANumber => cases hy
    | infinity t => cases t <;> rfl
    | zero t => rfl
    | finite t _ _ _ => cases t <;> rfl
  | finite s _ _ _ =>
    cases y with
    | notANumber => cases hy
    | infinity t => cases t <;> cases s <;> rfl
    | zero t => cases s <;> rfl
    | finite t _ _ _ => cases s <;> cases t <;> rfl

/-- One of two numbers other than NaN is at most the other. -/
theorem le_of_not_lt (x y : Float32) (hx : x.isNaN = false) (hy : y.isNaN = false) (above : ¬ x < y) :
    y ≤ x := by
  have compared := unpacked_compare_isSome x.toModel.unpack y.toModel.unpack hx hy
  have reversed := unpacked_compare_swap x.toModel.unpack y.toModel.unpack
  change ¬ (decide (x.toModel.unpack.lt y.toModel.unpack) = true) at above
  change decide (y.toModel.unpack.le x.toModel.unpack) = true
  rw [UnpackedFloat.lt] at above
  rw [UnpackedFloat.le, reversed]
  generalize x.toModel.unpack.compare y.toModel.unpack = order at compared above
  cases order with
  | none => cases compared
  | some order => cases order <;> simp_all

theorem lt_irrefl (x : Float32) : ¬ x < x := by
  have reversed := unpacked_compare_swap x.toModel.unpack x.toModel.unpack
  change ¬ (decide (x.toModel.unpack.lt x.toModel.unpack) = true)
  rw [UnpackedFloat.lt]
  generalize x.toModel.unpack.compare x.toModel.unpack = order at reversed
  cases order with
  | none => simp
  | some order => cases order <;> simp_all

/-- What is at most another number is not above it. -/
theorem not_lt_of_le (x y : Float32) (below : x ≤ y) : ¬ y < x := by
  have reversed := unpacked_compare_swap x.toModel.unpack y.toModel.unpack
  change decide (x.toModel.unpack.le y.toModel.unpack) = true at below
  change ¬ (decide (y.toModel.unpack.lt x.toModel.unpack) = true)
  rw [UnpackedFloat.le] at below
  rw [UnpackedFloat.lt, reversed]
  generalize x.toModel.unpack.compare y.toModel.unpack = order at below
  cases order with
  | none => simp
  | some order => cases order <;> simp_all

/-- A clamped number is beyond neither end of an interval. NaN passes, but it is beyond nothing. -/
theorem clamp_within (lo hi x : Float32) (ordered : lo ≤ hi) : ¬ clamp lo hi x < lo ∧ ¬ hi < clamp lo hi x := by
  have raised : ¬ (if x < lo then lo else x) < lo := by
    split
    · exact lt_irrefl lo
    · assumption
  unfold clamp
  generalize (if x < lo then lo else x) = y at raised
  dsimp only
  split
  next above => exact ⟨not_lt_of_le lo hi ordered, lt_irrefl hi⟩
  next below => exact ⟨raised, below⟩

theorem unpacked_number (u : UnpackedFloat) (finite : u.isFinite = true) : u.isNaN = false := by
  cases u with
  | notANumber => cases finite
  | _ => rfl

theorem isNaN_of_isFinite (x : Float32) (finite : x.isFinite = true) : x.isNaN = false :=
  unpacked_number x.toModel.unpack finite

/-- The second operand is at most the maximum, whatever the first one is. -/
theorem le_maximum (x bound : Float32) (number : bound.isNaN = false) : bound ≤ maximum x bound := by
  have itself : bound ≤ bound := le_of_not_lt bound bound number number (lt_irrefl bound)
  rw [maximum]
  split
  · exact itself
  next numberX =>
    split
    · exact itself
    next above => exact le_of_not_lt x bound (Bool.not_eq_true _ ▸ numberX) number above

/-- The larger of two finite numbers is finite and at least the second. -/
theorem maximum_finite (x bound : Float32) (finite : x.isFinite = true) (finiteBound : bound.isFinite = true) :
    (maximum x bound).isFinite = true ∧ bound ≤ maximum x bound := by
  refine ⟨?_, le_maximum x bound (isNaN_of_isFinite bound finiteBound)⟩
  rw [maximum]
  split
  · exact finiteBound
  · split
    · exact finiteBound
    · exact finite

private theorem compare_notANumber (u : UnpackedFloat) :
    UnpackedFloat.notANumber.compare u = none ∧ u.compare .notANumber = none := by
  cases u <;> exact ⟨rfl, rfl⟩

/-- NaN is at most nothing, and nothing is at most NaN. -/
theorem number_of_le (x y : Float32) (below : x ≤ y) : x.isNaN = false ∧ y.isNaN = false := by
  change decide (x.toModel.unpack.le y.toModel.unpack) = true at below
  change x.toModel.unpack.isNaN = false ∧ y.toModel.unpack.isNaN = false
  have number (u : UnpackedFloat) (other : u ≠ .notANumber) : u.isNaN = false := by
    cases u with
    | notANumber => exact absurd rfl other
    | _ => rfl
  rw [UnpackedFloat.le] at below
  refine ⟨number _ fun same => ?_, number _ fun same => ?_⟩
  · rw [same, (compare_notANumber _).1] at below
    cases below
  · rw [same, (compare_notANumber _).2] at below
    cases below

theorem le_of_lt (x y : Float32) (below : x < y) : x ≤ y := by
  change decide (x.toModel.unpack.lt y.toModel.unpack) = true at below
  change decide (x.toModel.unpack.le y.toModel.unpack) = true
  rw [UnpackedFloat.lt] at below
  rw [UnpackedFloat.le]
  generalize x.toModel.unpack.compare y.toModel.unpack = order at below
  cases order with
  | none => simp at below
  | some order => cases order <;> simp_all

/-- A finite number lies between the infinities. -/
theorem compare_infinities (u : UnpackedFloat) (finite : u.isFinite = true) :
    u.compare (.infinity .negative) = some .gt ∧ (UnpackedFloat.infinity .positive).compare u = some .gt := by
  cases u with
  | notANumber => cases finite
  | infinity sign => cases finite
  | zero sign => exact ⟨rfl, rfl⟩
  | finite sign _ _ _ => cases sign <;> exact ⟨rfl, rfl⟩

/-- What lies between two finite numbers is finite. -/
theorem finite_of_between (lo x hi : Float32) (finiteLo : lo.isFinite = true) (finiteHi : hi.isFinite = true)
    (above : lo ≤ x) (below : x ≤ hi) : x.isFinite = true := by
  change lo.toModel.unpack.isFinite = true at finiteLo
  change hi.toModel.unpack.isFinite = true at finiteHi
  change decide (lo.toModel.unpack.le x.toModel.unpack) = true at above
  change decide (x.toModel.unpack.le hi.toModel.unpack) = true at below
  have number : x.toModel.unpack.isNaN = false := (number_of_le lo x above).2
  change x.toModel.unpack.isFinite = true
  rw [UnpackedFloat.le] at above below
  cases unpacked : x.toModel.unpack with
  | notANumber =>
    rw [unpacked] at number
    cases number
  | infinity sign =>
    cases sign with
    | positive =>
      rw [unpacked, (compare_infinities _ finiteHi).2] at below
      cases below
    | negative =>
      rw [unpacked, (compare_infinities _ finiteLo).1] at above
      cases above
  | zero sign => rfl
  | finite => rfl

/-- A clamped number is between the ends of an interval. -/
theorem clamp_between (lo hi x : Float32) (ordered : lo ≤ hi) (number : x.isNaN = false) :
    lo ≤ clamp lo hi x ∧ clamp lo hi x ≤ hi := by
  obtain ⟨numberLo, numberHi⟩ := number_of_le lo hi ordered
  obtain ⟨raised, lowered⟩ := clamp_within lo hi x ordered
  have clamped : (clamp lo hi x).isNaN = false := by
    have raised : (if x < lo then lo else x).isNaN = false := by
      split
      · exact numberLo
      · exact number
    unfold clamp
    generalize (if x < lo then lo else x) = y at raised
    dsimp only
    split
    · exact numberHi
    · exact raised
  exact ⟨le_of_not_lt _ lo clamped numberLo raised, le_of_not_lt hi _ numberHi clamped lowered⟩

/-- A number that clamping raises was below the interval. -/
theorem clamp_raised (lo hi x : Float32) (ordered : lo ≤ hi) (raised : x < clamp lo hi x) : clamp lo hi x = lo := by
  by_cases below : x < lo
  · rw [clamp, if_pos below]
    exact if_neg (not_lt_of_le lo hi ordered)
  · rw [clamp, if_neg below] at raised
    split at raised
    next above => exact absurd raised (not_lt_of_le hi x (le_of_lt hi x above))
    · exact absurd raised (lt_irrefl x)

/-- A number that clamping lowers was above the interval. -/
theorem clamp_lowered (lo hi x : Float32) (lowered : clamp lo hi x < x) : clamp lo hi x = hi := by
  by_cases above : hi < (if x < lo then lo else x)
  · exact if_pos above
  · have kept : clamp lo hi x = if x < lo then lo else x := if_neg above
    rw [kept] at lowered
    split at lowered
    next below => exact absurd lowered (not_lt_of_le x lo (le_of_lt x lo below))
    · exact absurd lowered (lt_irrefl x)

end DesktopPet.Number
