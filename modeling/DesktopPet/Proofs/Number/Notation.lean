import DesktopPet.Number.Notation

/-!
# What written numbers look like

A decimal in positional notation is a run of digits, with one point inside if it has places after it. The digits
are those of the decimal, with zeros before or after them.
-/

namespace DesktopPet.Number

open Float.Model (UnpackedFloat)

/-- A text of digits, at least one of them, or of digits on both sides of a point. -/
inductive IsNumeral : List Char → Prop where
  | whole (digits : List Char) (filled : digits ≠ []) (all : ∀ c ∈ digits, c.isDigit = true) : IsNumeral digits
  | pointed (whole fraction : List Char) (filled : whole ≠ []) (more : fraction ≠ [])
      (all : ∀ c ∈ whole ++ fraction, c.isDigit = true) : IsNumeral (whole ++ '.' :: fraction)

/-- A finite number that is neither negative nor negative zero. -/
def isPlain (x : Float) : Bool :=
  match x.toModel.unpack with
  | .zero .positive | .finite .positive _ _ _ => true
  | _ => false

/-- A numeral starts with a digit, and only digits and points follow. -/
theorem IsNumeral.letters {text : List Char} (numeral : IsNumeral text) :
    ∃ c more, text = c :: more ∧ c.isDigit = true ∧ ∀ d ∈ more, d.isDigit = true ∨ d = '.' := by
  cases numeral with
  | whole _ filled all =>
    cases text with
    | nil => exact absurd rfl filled
    | cons c more =>
      exact ⟨c, more, rfl, all c List.mem_cons_self, fun d member => Or.inl (all d (List.mem_cons_of_mem c member))⟩
  | pointed whole fraction filled _ all =>
    cases whole with
    | nil => exact absurd rfl filled
    | cons c more =>
      refine ⟨c, more ++ '.' :: fraction, rfl, all c List.mem_cons_self, fun d member => ?_⟩
      rcases List.mem_append.mp member with before | behind
      · exact Or.inl (all d (List.mem_cons_of_mem c (List.mem_append_left _ before)))
      · rcases List.mem_cons.mp behind with point | after
        · exact Or.inr point
        · exact Or.inl (all d (List.mem_append_right _ after))

/-! ## Positional notation -/

private theorem toList_zeros (n : Nat) : ("".pushn '0' n).toList = List.replicate n '0' := by
  rw [String.pushn_eq_repeat_push]
  induction n with
  | zero => rfl
  | succ n ih => rw [Nat.repeat, String.toList_push, ih, List.replicate_succ']

/-- Without places after the point, the digits and then zeros. -/
theorem positional_whole (d : Decimal) (integral : 0 ≤ d.exponent) :
    d.positional.toList = Nat.toDigits 10 d.digits ++ List.replicate d.exponent.toNat '0' := by
  rw [Decimal.positional]
  simp only [integral, ↓reduceIte]
  rw [String.toList_append, toList_zeros]
  exact congrArg (· ++ _) Nat.toList_repr

/-- With places after the point, the digits with zeros before them, and the point in front of these places. -/
theorem positional_pointed (d : Decimal) (fractional : ¬ 0 ≤ d.exponent) :
    ∃ whole fraction zeros, d.positional.toList = whole ++ '.' :: fraction ∧ whole ≠ [] ∧
      fraction.length = (-d.exponent).toNat ∧
      whole ++ fraction = List.replicate zeros '0' ++ Nat.toDigits 10 d.digits := by
  let places := (-d.exponent).toNat
  let zeros := places + 1 - (toString d.digits).length
  let padded := List.replicate zeros '0' ++ Nat.toDigits 10 d.digits
  have written : (toString d.digits).toList = Nat.toDigits 10 d.digits := Nat.toList_repr
  have long : places + 1 ≤ padded.length := by
    have digits : (toString d.digits).length = (Nat.toDigits 10 d.digits).length := by
      rw [← written, String.length_toList]
    simp only [padded, zeros, List.length_append, List.length_replicate, digits]
    omega
  have shape : d.positional.toList =
      padded.take (padded.length - places) ++ '.' :: padded.drop (padded.length - places) := by
    rw [Decimal.positional]
    simp only [fractional, ↓reduceIte, String.toList_append, toList_zeros, String.toList_ofList, written]
    exact List.append_assoc _ _ _
  refine ⟨padded.take (padded.length - places), padded.drop (padded.length - places), zeros, shape, ?_, ?_, ?_⟩
  · rw [← List.length_pos_iff, List.length_take]
    omega
  · rw [List.length_drop]
    omega
  · exact List.take_append_drop _ _

private theorem isDigit_toDigits {n : Nat} {c : Char} (member : c ∈ Nat.toDigits 10 n) : c.isDigit = true :=
  Nat.isDigit_of_mem_toDigits (by decide) (by decide) member

private theorem isDigit_zeros {n : Nat} {c : Char} (member : c ∈ List.replicate n '0') : c.isDigit = true := by
  rw [List.eq_of_mem_replicate member]
  rfl

theorem positional_isNumeral (d : Decimal) : IsNumeral d.positional.toList := by
  by_cases integral : 0 ≤ d.exponent
  · rw [positional_whole d integral]
    refine .whole _ (List.append_ne_nil_of_left_ne_nil Nat.toDigits_ne_nil _) fun c member => ?_
    rcases List.mem_append.mp member with digit | zero
    · exact isDigit_toDigits digit
    · exact isDigit_zeros zero
  · obtain ⟨whole, fraction, zeros, shape, some, places, digits⟩ := positional_pointed d integral
    have more : fraction ≠ [] := by
      rw [← List.length_pos_iff, places]
      omega
    rw [shape]
    refine .pointed whole fraction some more fun c member => ?_
    rw [digits] at member
    rcases List.mem_append.mp member with zero | digit
    · exact isDigit_zeros zero
    · exact isDigit_toDigits digit

/-- The text of a plain number has no sign and no exponent. -/
theorem display64_isNumeral (x : Float) (plain : isPlain x = true) : IsNumeral (display64 x).toList := by
  unfold isPlain at plain
  rw [display64]
  split at plain
  · next zero =>
    rw [zero]
    exact .whole ['0'] nofun (List.all_eq_true.mp rfl)
  · next significand exponent _ finite =>
    rw [finite]
    exact positional_isNumeral _
  · cases plain

end DesktopPet.Number
