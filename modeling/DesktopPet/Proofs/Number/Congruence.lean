import DesktopPet.Proofs.Number.Zeros

/-!
# Congruences of arithmetic

What is computed of the same numbers is the same, and comparisons do not tell them apart. `Congruence` lists what a
notion of the same number has to fulfil so that whole simulations may be followed along it. Equality is such a notion
(`congruence_eq`), and so is sameness up to the sign of a zero (`congruence_same`), which is why a zero that changes its
sign never becomes more than that.
-/

namespace DesktopPet.Number

open Float.Model (Format UnpackedFloat)
open Float.Model.UnpackedFloat

/-- The same numbers of binary32 and of binary64. -/
structure Congruence (R : Float32 → Float32 → Prop) (R64 : Float → Float → Prop) : Prop where
  refl (x : Float32) : R x x
  symm {x y : Float32} : R x y → R y x
  isNaN {x y : Float32} : R x y → x.isNaN = y.isNaN
  isFinite {x y : Float32} : R x y → x.isFinite = y.isFinite
  lt {x x' y y' : Float32} : R x x' → R y y' → (x < y ↔ x' < y')
  le {x x' y y' : Float32} : R x x' → R y y' → (x ≤ y ↔ x' ≤ y')
  beq {x x' y y' : Float32} : R x x' → R y y' → (x == y) = (x' == y')
  add {x x' y y' : Float32} : R x x' → R y y' → R (x + y) (x' + y')
  sub {x x' y y' : Float32} : R x x' → R y y' → R (x - y) (x' - y')
  mul {x x' y y' : Float32} : R x x' → R y y' → R (x * y) (x' * y')
  div {x x' : Float32} (same : R x x') (y : Float32) : R (x / y) (x' / y)
  square {x x' : Float32} : R x x' → x * x = x' * x'
  neg {x x' : Float32} : R x x' → R (-x) (-x')
  abs {x x' : Float32} : R x x' → R x.abs x'.abs
  widen {x x' : Float32} : R x x' → R64 (widen x) (widen x')
  refl64 (x : Float) : R64 x x
  isNaN64 {x y : Float} : R64 x y → x.isNaN = y.isNaN
  isFinite64 {x y : Float} : R64 x y → x.isFinite = y.isFinite
  isZero64 {x y : Float} : R64 x y → (x == 0.0) = (y == 0.0)
  lt64 {x x' y y' : Float} : R64 x x' → R64 y y' → (x < y ↔ x' < y')
  le64 {x x' y y' : Float} : R64 x x' → R64 y y' → (x ≤ y ↔ x' ≤ y')
  add64 {x x' y y' : Float} : R64 x x' → R64 y y' → R64 (x + y) (x' + y')
  sub64 {x x' y y' : Float} : R64 x x' → R64 y y' → R64 (x - y) (x' - y')
  mul64 {x x' y y' : Float} : R64 x x' → R64 y y' → R64 (x * y) (x' * y')
  div64 {x x' y y' : Float} : R64 x x' → R64 y y' → (y == 0.0) = false → R64 (x / y) (x' / y')
  remainder64 {x x' y y' : Float} : R64 x x' → R64 y y' → R64 (remainder x y) (remainder x' y')
  neg64 {x x' : Float} : R64 x x' → R64 (-x) (-x')
  abs64 {x x' : Float} : R64 x x' → R64 x.abs x'.abs

/-- Equality is a congruence. -/
theorem congruence_eq : Congruence Eq Eq := by
  constructor
  all_goals intros; subst_vars; rfl

namespace Congruence

variable {R : Float32 → Float32 → Prop} {R64 : Float → Float → Prop} (cong : Congruence R R64)

include cong

theorem maximum {x x' y y' : Float32} (left : R x x') (right : R y y') :
    R (Number.maximum x y) (Number.maximum x' y') := by
  simp only [Number.maximum, cong.isNaN left, cong.lt left right]
  split
  · exact right
  · split
    · exact right
    · exact left

theorem positivePart {x x' : Float32} (same : R x x') : R (Number.positivePart x) (Number.positivePart x') := by
  simp only [Number.positivePart, cong.lt (cong.refl 0.0) same]
  split
  · exact same
  · exact cong.refl 0.0

theorem clamp {lo lo' hi hi' x x' : Float32} (least : R lo lo') (most : R hi hi') (same : R x x') :
    R (Number.clamp lo hi x) (Number.clamp lo' hi' x') := by
  have raised : R (if x < lo then lo else x) (if x' < lo' then lo' else x') := by
    simp only [cong.lt same least]
    split
    · exact least
    · exact same
  unfold Number.clamp
  dsimp only
  generalize (if x < lo then lo else x) = y at raised ⊢
  generalize (if x' < lo' then lo' else x') = y' at raised ⊢
  simp only [cong.lt most raised]
  split
  · exact most
  · exact raised

theorem minimum64 {x x' y y' : Float} (left : R64 x x') (right : R64 y y') :
    R64 (Number.minimum64 x y) (Number.minimum64 x' y') := by
  simp only [Number.minimum64, cong.isNaN64 left, cong.lt64 right left]
  split
  · exact right
  · split
    · exact right
    · exact left

theorem maximum64 {x x' y y' : Float} (left : R64 x x') (right : R64 y y') :
    R64 (Number.maximum64 x y) (Number.maximum64 x' y') := by
  simp only [Number.maximum64, cong.isNaN64 left, cong.lt64 left right]
  split
  · exact right
  · split
    · exact right
    · exact left

end Congruence

/-! ## Unpacked numbers -/

section Unpacked

variable {u u' v v' w : UnpackedFloat}

theorem Alike.trans (first : Alike u v) (second : Alike v w) : Alike u w := by
  rcases first with rfl | ⟨zeroU, zeroV⟩
  · exact second
  · rcases second with rfl | ⟨_, zeroW⟩
    · exact .inr ⟨zeroU, zeroV⟩
    · exact .inr ⟨zeroU, zeroW⟩

/-- A function makes the same of the same if it does so of both zeros. -/
theorem Alike.map (f : UnpackedFloat → UnpackedFloat) (zeros : ∀ s t, Alike (f (.zero s)) (f (.zero t)))
    (alike : Alike u v) : Alike (f u) (f v) := by
  rcases alike with rfl | ⟨⟨s, rfl⟩, ⟨t, rfl⟩⟩
  · exact .inl rfl
  · exact zeros s t

/-- An operation makes the same of the same if it does so of both zeros on either side. -/
theorem Alike.map₂ (f : UnpackedFloat → UnpackedFloat → UnpackedFloat)
    (leftZeros : ∀ s t v, Alike (f (.zero s) v) (f (.zero t) v))
    (rightZeros : ∀ u s t, Alike (f u (.zero s)) (f u (.zero t))) (left : Alike u u') (right : Alike v v') :
    Alike (f u v) (f u' v') :=
  (left.map (fun u => f u v) fun s t => leftZeros s t v).trans (right.map (f u') (rightZeros u'))

variable (format : Format)

theorem Alike.add (left : Alike u u') (right : Alike v v') :
    Alike (UnpackedFloat.add format u v) (UnpackedFloat.add format u' v') := by
  have zero (s t : Sign) : IsZero (UnpackedFloat.add format (.zero s) (.zero t)) := by
    cases s <;> cases t <;> exact ⟨_, rfl⟩
  refine Alike.map₂ (UnpackedFloat.add format) (fun s t v => ?_) (fun u s t => ?_) left right
  · cases v with
    | zero sign => exact .inr ⟨zero s sign, zero t sign⟩
    | _ => exact .inl rfl
  · cases u with
    | zero sign => exact .inr ⟨zero sign s, zero sign t⟩
    | _ => exact .inl rfl

theorem Alike.neg (alike : Alike u u') : Alike u.neg u'.neg :=
  alike.map UnpackedFloat.neg fun _ _ => alike_zeros _ _

/-- To take off a number is to add its opposite. -/
theorem sub_eq_add (u v : UnpackedFloat) : UnpackedFloat.sub format u v = UnpackedFloat.add format u v.neg := by
  cases u with
  | finite s m e positive =>
    cases v with
    | finite t n f positive' =>
      have opposite (a k : Int) : a - t.apply k = a + (-t).apply k := by
        cases t with
        | positive => exact Int.sub_eq_add_neg
        | negative => exact Int.sub_neg _ _
      simp only [UnpackedFloat.sub, UnpackedFloat.add, UnpackedFloat.neg, opposite]
    | _ => rfl
  | _ => cases v <;> rfl

theorem Alike.sub (left : Alike u u') (right : Alike v v') :
    Alike (UnpackedFloat.sub format u v) (UnpackedFloat.sub format u' v') := by
  rw [sub_eq_add, sub_eq_add]
  exact left.add format right.neg

theorem Alike.mul (left : Alike u u') (right : Alike v v') :
    Alike (UnpackedFloat.mul format u v) (UnpackedFloat.mul format u' v') := by
  refine Alike.map₂ (UnpackedFloat.mul format) (fun s t v => ?_) (fun u s t => ?_) left right
  · cases v with
    | zero sign => exact alike_zeros _ _
    | finite sign _ _ _ => exact alike_zeros _ _
    | _ => exact .inl rfl
  · cases u with
    | zero sign => exact alike_zeros _ _
    | finite sign _ _ _ => exact alike_zeros _ _
    | _ => exact .inl rfl

theorem Alike.div (alike : Alike u u') : Alike (UnpackedFloat.div format u v) (UnpackedFloat.div format u' v) := by
  refine alike.map (fun u => UnpackedFloat.div format u v) fun s t => ?_
  cases v with
  | infinity sign => exact alike_zeros _ _
  | finite sign _ _ _ => exact alike_zeros _ _
  | _ => exact .inl rfl

theorem Alike.abs (alike : Alike u u') : Alike u.abs u'.abs :=
  alike.map UnpackedFloat.abs fun _ _ => alike_zeros _ _

/-- A zero stays a zero when it is packed. -/
theorem Alike.packed (bits : format.exponentBits ≠ 0) (alike : Alike u u') :
    Alike (unpack format (pack format u)) (unpack format (pack format u')) := by
  refine alike.map (fun u => unpack format (pack format u)) fun s t => ?_
  have stays (s : Sign) : IsZero (unpack format (pack format (.zero s))) := by
    simp [pack, packedZero, unpack, IsZero, bits]
  exact .inr ⟨stays s, stays t⟩

theorem Alike.roundTo (alike : Alike u u') : Alike (Number.roundTo format u) (Number.roundTo format u') :=
  alike.map (Number.roundTo format) fun _ _ => alike_zeros _ _

theorem Alike.isFinite (alike : Alike u u') : u.isFinite = u'.isFinite := by
  rcases alike with rfl | ⟨⟨s, rfl⟩, ⟨t, rfl⟩⟩
  · rfl
  · rfl

theorem Alike.isNaN (alike : Alike u u') : u.isNaN = u'.isNaN := by
  rcases alike with rfl | ⟨⟨s, rfl⟩, ⟨t, rfl⟩⟩
  · rfl
  · rfl

theorem Alike.beq (left : Alike u u') (right : Alike v v') : u.beq v = u'.beq v' := by
  rw [UnpackedFloat.beq, UnpackedFloat.beq, left.compare right]

end Unpacked

/-! ## Sameness up to the sign of a zero -/

/-- The same number of binary64: zeros of both signs count as one, and so does NaN. -/
def Same64 (x y : Float) : Prop :=
  Alike x.toModel.unpack y.toModel.unpack

theorem Same.square {x x' : Float32} (same : Same x x') : x * x = x' * x' := by
  have products : UnpackedFloat.mul .binary32 x.toModel.unpack x.toModel.unpack =
      UnpackedFloat.mul .binary32 x'.toModel.unpack x'.toModel.unpack := by
    rcases same with equal | ⟨⟨s, zeroX⟩, ⟨t, zeroX'⟩⟩
    · rw [equal]
    · rw [zeroX, zeroX']
      cases s <;> cases t <;> rfl
  exact congrArg (fun u => Float32.ofModel (.pack u)) products

/-- A divisor that is not a zero is the very same. -/
theorem Same64.unpack_eq {y y' : Float} (same : Same64 y y') (nonzero : (y == 0.0) = false) :
    y.toModel.unpack = y'.toModel.unpack := by
  rcases same with equal | ⟨⟨s, zeroY⟩, _⟩
  · exact equal
  · have zero : (y == 0.0) = true := by
      change y.toModel.unpack.beq (Float.toModel 0.0).unpack = true
      rw [zeroY]
      cases s <;> decide
    rw [zero] at nonzero
    cases nonzero

/-- Division by a zero leaves no remainder. -/
private theorem remainder_zero (x y : Float) (sign : Sign) (zero : y.toModel.unpack = .zero sign) :
    Number.remainder x y = .ofModel (.pack .notANumber) := by
  unfold Number.remainder
  rw [zero]
  cases x.toModel.unpack <;> rfl

theorem Same64.remainder {x x' y y' : Float} (left : Same64 x x') (right : Same64 y y') :
    Same64 (Number.remainder x y) (Number.remainder x' y') := by
  have dividends : Same64 x x' := left
  rcases right with equal | ⟨⟨s, zeroY⟩, ⟨t, zeroY'⟩⟩
  · unfold Number.remainder
    unfold Same64 at left
    rw [equal]
    generalize x.toModel.unpack = u at left ⊢
    generalize x'.toModel.unpack = u' at left ⊢
    generalize y'.toModel.unpack = v
    -- what is left of a finite dividend is computed alike, and where all of it is left, it is the dividend itself
    rcases left with rfl | ⟨⟨s, rfl⟩, ⟨t, rfl⟩⟩
    · cases u <;> cases v <;> first | exact dividends | exact .inl rfl
    · cases v <;> first | exact dividends | exact .inl rfl
  · rw [remainder_zero x y s zeroY, remainder_zero x' y' t zeroY']
    exact .inl rfl

theorem congruence_same : Congruence Same Same64 where
  refl := Same.refl
  symm := Same.symm
  isNaN same := Alike.isNaN same
  isFinite same := Alike.isFinite same
  lt left right := left.lt right
  le {x x' y y'} left right := by
    change decide (x.toModel.unpack.le y.toModel.unpack) = true ↔ decide (x'.toModel.unpack.le y'.toModel.unpack) = true
    rw [UnpackedFloat.le, UnpackedFloat.le, Alike.compare left right]
  beq left right := Alike.beq left right
  add left right := (Alike.add .binary32 left right).packed .binary32 (by decide)
  sub left right := (Alike.sub .binary32 left right).packed .binary32 (by decide)
  mul left right := (Alike.mul .binary32 left right).packed .binary32 (by decide)
  div same y := (Alike.div .binary32 same).packed .binary32 (by decide)
  square := Same.square
  neg same := (Alike.neg same).packed .binary32 (by decide)
  abs same := (Alike.abs same).packed .binary32 (by decide)
  widen same := (Alike.roundTo .binary64 same).packed .binary64 (by decide)
  refl64 _ := .inl rfl
  isNaN64 same := Alike.isNaN same
  isFinite64 same := Alike.isFinite same
  isZero64 same := Alike.beq same (.inl rfl)
  lt64 {x x' y y'} left right := by
    change decide (x.toModel.unpack.lt y.toModel.unpack) = true ↔ decide (x'.toModel.unpack.lt y'.toModel.unpack) = true
    rw [UnpackedFloat.lt, UnpackedFloat.lt, Alike.compare left right]
  le64 {x x' y y'} left right := by
    change decide (x.toModel.unpack.le y.toModel.unpack) = true ↔ decide (x'.toModel.unpack.le y'.toModel.unpack) = true
    rw [UnpackedFloat.le, UnpackedFloat.le, Alike.compare left right]
  add64 left right := (Alike.add .binary64 left right).packed .binary64 (by decide)
  sub64 left right := (Alike.sub .binary64 left right).packed .binary64 (by decide)
  mul64 left right := (Alike.mul .binary64 left right).packed .binary64 (by decide)
  div64 {x x' y y'} left right nonzero := by
    have quotients : Alike (UnpackedFloat.div .binary64 x.toModel.unpack y.toModel.unpack)
        (UnpackedFloat.div .binary64 x'.toModel.unpack y'.toModel.unpack) := by
      rw [← right.unpack_eq nonzero]
      exact Alike.div .binary64 left
    exact quotients.packed .binary64 (by decide)
  remainder64 := Same64.remainder
  neg64 same := (Alike.neg same).packed .binary64 (by decide)
  abs64 same := (Alike.abs same).packed .binary64 (by decide)

end DesktopPet.Number
