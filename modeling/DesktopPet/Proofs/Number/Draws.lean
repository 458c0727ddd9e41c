import DesktopPet.Proofs.Number.Sign
import DesktopPet.Random

/-!
# Draws

A draw that is repeated until it is accepted answers what can be accepted, or its substitute. So a draw from the unit
interval is finite.
-/

namespace DesktopPet.Random

open Float.Model (UnpackedFloat)

/-- What holds of every accepted draw and of the substitute holds of a repeated draw. -/
theorem redraw_holds {α : Type} (Holds : α → Prop) (otherwise : α) (draw : Random → Option α × Random)
    (substitute : Holds otherwise) (accepted : ∀ r a, (draw r).1 = some a → Holds a) (fuel : Nat) (r : Random) :
    Holds (redraw otherwise draw fuel r).1 := by
  induction fuel generalizing r with
  | zero => exact substitute
  | succ fuel ih =>
    rw [redraw]
    split
    next a later drew => exact accepted r a (congrArg Prod.fst drew)
    · exact ih _

private theorem toFloat_signed (bits : UInt64) : Number.Signed .positive bits.toFloat.toModel.unpack := by
  apply Number.Signed.packed (u := .ofUInt64 .binary64 bits)
  rw [UnpackedFloat.ofUInt64, UnpackedFloat.ofNat, UnpackedFloat.ofInt, UnpackedFloat.normalize]
  cases bits.toNat with
  | zero => exact rfl
  | succ n => exact Number.Signed.rounded _ _ _ .exact

/-- A draw from the unit interval is finite: it is not negative, and below one. -/
theorem unit64_finite (r : Random) : (unit64 r).1.isFinite = true := by
  refine redraw_holds (·.isFinite = true) 0.0 tryUnit64 (by decide) (fun r x accepted => ?_) period r
  unfold tryUnit64 at accepted
  dsimp only at accepted
  split at accepted
  next below =>
    cases accepted
    have fraction : Number.Signed .positive (Float.ofBits 0x3c00000000000000).toModel.unpack := rfl
    have product : Number.Signed .positive (.mul .binary64 _ _) := (toFloat_signed (r.next.1 >>> 1)).mul fraction
    exact Number.finite_of_lt product.packed below
  · cases accepted

end DesktopPet.Random
