/-!
# Random numbers

A generator is one 64-bit word. Each draw adds a fixed odd number to the word and mixes the sum by a
wide multiplication, so the words of a run repeat only after all `2 ^ 64` of them have come up.
Draws that may be rejected are repeated at most that often, which is often enough: whatever comes up
at all comes up within one period.
-/

namespace DesktopPet

structure Random where
  word : UInt64
  deriving DecidableEq, Repr

namespace Random

/-- Draws of one period of the generator. -/
def period : Nat := Nat.pow 2 64

def mulHigh (a b : UInt64) : UInt64 :=
  UInt64.ofNat (a.toNat * b.toNat / Nat.pow 2 64)

/-- One uniformly distributed 64-bit number. -/
def next (r : Random) : UInt64 × Random :=
  let word := r.word + 0x2d358dccaa6c78a5
  let key := word ^^^ 0x8bb84b93962eacc9
  (word * key ^^^ mulHigh word key, ⟨word⟩)

/-- Repeats a draw until it is accepted, at most `fuel` times. -/
def redraw {α : Type} (otherwise : α) (draw : Random → Option α × Random) : Nat → Random → α × Random
  | 0, r => (otherwise, r)
  | fuel + 1, r =>
    match draw r with
    | (some a, r) => (a, r)
    | (none, r) => redraw otherwise draw fuel r

/-- One try for a binary64 number in `[0, 1)`: 63 random bits as a fraction, refused if rounding
makes it one. -/
def tryUnit64 (r : Random) : Option Float × Random :=
  let (bits, r) := r.next
  let x := (bits >>> 1).toFloat * Float.ofBits 0x3c00000000000000
  (if x < 1.0 then some x else none, r)

def unit64 (r : Random) : Float × Random :=
  redraw 0.0 tryUnit64 period r

/-- One try for a binary32 number in `[0, 1)`, as for binary64. -/
def tryUnit32 (r : Random) : Option Float32 × Random :=
  let (bits, r) := r.next
  let x := (bits >>> 1).toFloat32 * Float32.ofBits 0x20000000
  (if x < 1.0 then some x else none, r)

def unit32 (r : Random) : Float32 × Random :=
  redraw 0.0 tryUnit32 period r

/-- The number below `bound` that a word of `width` bits stands for: the high half of word times
bound. Words whose low half falls short of `2 ^ width % bound` stand for none, so that every number
has equally many words. -/
def scaled? (width word bound : Nat) : Option Nat :=
  let product := word * bound
  let words := Nat.pow 2 width
  if product % words < words % bound then none else some (product / words)

/-- A number below a positive `bound`, from the low 32 bits of each draw. -/
def below32 (bound : Nat) (r : Random) : Nat × Random :=
  redraw 0 (fun r => let (bits, r) := r.next; (scaled? 32 bits.toUInt32.toNat bound, r)) period r

/-- A number below a positive `bound`, from all 64 bits of each draw. -/
def below64 (bound : Nat) (r : Random) : Nat × Random :=
  redraw 0 (fun r => let (bits, r) := r.next; (scaled? 64 bits.toNat bound, r)) period r

end Random

end DesktopPet
