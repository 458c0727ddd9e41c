import DesktopPet.Proofs.Number.Order
import Mathlib

/-!
# Numbers that agree

Numeric equality tells the two zeros not apart, and NaN agrees with nothing. `Same` is the congruence behind it:
arithmetic and comparison make the same of the same numbers, NaN included.
-/

namespace DesktopPet.Number

open Float.Model (Format UnpackedFloat)
open Float.Model.UnpackedFloat

/-- A zero of either sign. -/
def IsZero (u : UnpackedFloat) : Prop :=
  ∃ sign, u = .zero sign

/-- The same number up to the sign of a zero. -/
def Alike (u v : UnpackedFloat) : Prop :=
  u = v ∨ IsZero u ∧ IsZero v

/-- The same number: zeros of both signs count as one, and so does NaN. -/
def Same (x y : Float32) : Prop :=
  Alike x.toModel.unpack y.toModel.unpack

theorem Same.refl (x : Float32) : Same x x :=
  .inl rfl

theorem Same.symm {x y : Float32} (same : Same x y) : Same y x :=
  same.imp Eq.symm And.symm

theorem Same.trans {x y z : Float32} (first : Same x y) (second : Same y z) : Same x z := by
  rcases first with equal | ⟨zeroX, zeroY⟩
  · rw [Same, equal]
    exact second
  · rcases second with equal | ⟨_, zeroZ⟩
    · rw [Same, ← equal]
      exact .inr ⟨zeroX, zeroY⟩
    · exact .inr ⟨zeroX, zeroZ⟩

/-- Unpacked numbers compare as equal exactly if they are alike and not NaN. -/
theorem beq_iff_alike (u v : UnpackedFloat) : u.beq v = true ↔ Alike u v ∧ u.isNaN = false := by
  rw [beq_iff_ne_notANumber_and_eq]
  constructor
  · rintro ⟨number, _, equal | ⟨zeroU, zeroV⟩ | ⟨zeroU, zeroV⟩⟩
    · exact ⟨.inl equal, by simpa [← Bool.not_eq_true] using number⟩
    · exact ⟨.inr ⟨⟨_, zeroU⟩, ⟨_, zeroV⟩⟩, by rw [zeroU]; rfl⟩
    · exact ⟨.inr ⟨⟨_, zeroU⟩, ⟨_, zeroV⟩⟩, by rw [zeroU]; rfl⟩
  · rintro ⟨rfl | ⟨⟨s, rfl⟩, ⟨t, rfl⟩⟩, number⟩
    · simpa [← Bool.not_eq_true] using number
    · cases s <;> cases t <;> simp

/-- Numeric equality is sameness of numbers other than NaN. -/
theorem beq_iff_same (x y : Float32) : (x == y) = true ↔ Same x y ∧ x.isNaN = false :=
  beq_iff_alike x.toModel.unpack y.toModel.unpack

theorem Same.isNaN {x y : Float32} (same : Same x y) : x.isNaN = y.isNaN := by
  change x.toModel.unpack.isNaN = y.toModel.unpack.isNaN
  rcases same with equal | ⟨⟨s, zeroX⟩, ⟨t, zeroY⟩⟩
  · rw [equal]
  · rw [zeroX, zeroY]
    rfl

theorem Same.beq {x y : Float32} (same : Same x y) (number : y.isNaN = false) : (x == y) = true :=
  (beq_iff_same x y).mpr ⟨same, same.isNaN.trans number⟩

/-! ## Comparison -/

/-- A comparison does not see the sign of a zero. -/
theorem compare_zero (s t : Sign) (v : UnpackedFloat) :
    (UnpackedFloat.zero s).compare v = (UnpackedFloat.zero t).compare v := by
  cases v with
  | infinity sign => cases sign <;> rfl
  | finite sign _ _ _ => cases sign <;> rfl
  | _ => rfl

theorem Alike.compare {u u' v v' : UnpackedFloat} (left : Alike u u') (right : Alike v v') :
    u.compare v = u'.compare v' := by
  have same (a b c : UnpackedFloat) (alike : Alike a b) : a.compare c = b.compare c := by
    rcases alike with rfl | ⟨⟨s, rfl⟩, ⟨t, rfl⟩⟩
    · rfl
    · exact compare_zero s t c
  rw [same u u' v left, unpacked_compare_swap v u', same v v' u' right, ← unpacked_compare_swap v' u']

theorem Same.lt {x x' y y' : Float32} (left : Same x x') (right : Same y y') : x < y ↔ x' < y' := by
  change decide (x.toModel.unpack.lt y.toModel.unpack) = true ↔ decide (x'.toModel.unpack.lt y'.toModel.unpack) = true
  rw [UnpackedFloat.lt, UnpackedFloat.lt, Alike.compare left right]

theorem Same.maximum {x x' y y' : Float32} (left : Same x x') (right : Same y y') :
    Same (Number.maximum x y) (Number.maximum x' y') := by
  rw [Number.maximum, Number.maximum, left.isNaN]
  simp only [left.lt right]
  split
  · exact right
  · split
    · exact right
    · exact left

theorem Same.clamp {x x' : Float32} (lo hi : Float32) (same : Same x x') :
    Same (Number.clamp lo hi x) (Number.clamp lo hi x') := by
  have raised : Same (if x < lo then lo else x) (if x' < lo then lo else x') := by
    simp only [same.lt (.refl lo)]
    split
    · exact .refl lo
    · exact same
  unfold Number.clamp
  generalize (if x < lo then lo else x) = y at raised
  generalize (if x' < lo then lo else x') = y' at raised
  dsimp only
  simp only [Same.lt (.refl hi) raised]
  split
  · exact .refl hi
  · exact raised

/-! ## Arithmetic -/

/-- An operation makes the same of the same numbers if it makes the same of both zeros. -/
theorem Same.packed {x y : Float32} (operation : UnpackedFloat → UnpackedFloat) (same : Same x y)
    (zeros : ∀ s t, Alike (operation (.zero s)) (operation (.zero t))) :
    Alike (unpack Format.binary32 (pack Format.binary32 (operation x.toModel.unpack)))
      (unpack Format.binary32 (pack Format.binary32 (operation y.toModel.unpack))) := by
  have staysZero (s : Sign) : IsZero (unpack Format.binary32 (pack Format.binary32 (.zero s))) := by
    simp [pack, packedZero, unpack, IsZero]
  have made : Alike (operation x.toModel.unpack) (operation y.toModel.unpack) := by
    rcases same with equal | ⟨⟨s, zeroX⟩, ⟨t, zeroY⟩⟩
    · rw [equal]
      exact .inl rfl
    · rw [zeroX, zeroY]
      exact zeros s t
  rcases made with equal | ⟨⟨s, zeroX⟩, ⟨t, zeroY⟩⟩
  · rw [equal]
    exact .inl rfl
  · rw [zeroX, zeroY]
    exact .inr ⟨staysZero s, staysZero t⟩

theorem alike_zeros (s t : Sign) : Alike (.zero s) (.zero t) :=
  .inr ⟨⟨s, rfl⟩, ⟨t, rfl⟩⟩

/-- Products of the same numbers are the same. -/
theorem Same.mul {x x' y y' : Float32} (left : Same x x') (right : Same y y') : Same (x * y) (x' * y') := by
  have first : Same (x * y) (x' * y) := by
    refine left.packed (fun u => UnpackedFloat.mul Format.binary32 u y.toModel.unpack) fun s t => ?_
    cases y.toModel.unpack with
    | zero sign => exact alike_zeros _ _
    | finite sign _ _ _ => exact alike_zeros _ _
    | _ => exact .inl rfl
  have second : Same (x' * y) (x' * y') := by
    refine right.packed (UnpackedFloat.mul Format.binary32 x'.toModel.unpack) fun s t => ?_
    cases x'.toModel.unpack with
    | zero sign => exact alike_zeros _ _
    | finite sign _ _ _ => exact alike_zeros _ _
    | _ => exact .inl rfl
  exact first.trans second

/-- The quotients of the same numbers are the same. -/
theorem Same.div {x x' : Float32} (same : Same x x') (y : Float32) : Same (x / y) (x' / y) := by
  refine same.packed (fun u => UnpackedFloat.div Format.binary32 u y.toModel.unpack) fun s t => ?_
  cases y.toModel.unpack with
  | infinity sign => exact alike_zeros _ _
  | finite sign _ _ _ => exact alike_zeros _ _
  | _ => exact .inl rfl

/-- The differences from the same numbers are the same. -/
theorem Same.sub (x : Float32) {y y' : Float32} (same : Same y y') : Same (x - y) (x - y') := by
  refine same.packed (UnpackedFloat.sub Format.binary32 x.toModel.unpack) fun s t => ?_
  cases x.toModel.unpack with
  | zero sign =>
    cases s <;> cases t <;> cases sign <;> first | exact .inl rfl | exact alike_zeros _ _
  | _ => exact .inl rfl

end DesktopPet.Number
