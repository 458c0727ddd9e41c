import DesktopPet.Proofs.Playback.Steady
import DesktopPet.Proofs.Selection.Choice

/-!
# When selection rolls

With conditions that leave the generator alone, selection draws only to decide: among all behaviors once if some are
eligible and none of them is mandatory, and among followers once if some are eligible. `nextRoll?` and `chainedRoll?`
say which roll it is, and the generator after selection is that after the roll (`selectNext?_rolls`,
`selectChained_rolls`).
-/

namespace DesktopPet

open Condition (View)

/-- A draw that decides among behaviors: below the sum of their weights, or below their number. -/
inductive Roll where
  | weighted (total : Nat)
  | uniform (count : Nat)
  deriving DecidableEq, Repr

/-- The number that is rolled, and the generator afterwards. -/
def Roll.draw : Roll → Random → Nat × Random
  | .weighted total => Random.below32 total
  | .uniform count => Random.below64 count

/-- The generator after the roll, if there is one. -/
def afterRoll (roll : Option Roll) (r : Random) : Random :=
  (roll.map fun roll => (roll.draw r).2).getD r

private theorem afterRoll_of_draw (roll : Roll) {r last : Random} {k : Nat} (drew : roll.draw r = (k, last)) :
    afterRoll (some roll) r = last := by
  rw [afterRoll, Option.map_some, Option.getD_some, drew]

namespace Catalog

/-- No condition of a block or a behavior asks for a random number. -/
structure WithoutChance (c : Catalog) : Prop where
  blocks : ∀ action ∈ c.actions, ∀ b ∈ action.blocks, ∀ condition, b.condition = some condition →
    condition.expr.asksChance = false
  behaviors : ∀ b ∈ c.behaviors, ∀ condition, b.condition = some condition → condition.expr.asksChance = false

/-- The behavior is a candidate, as far as that does not hang on the generator. -/
def accepts (c : Catalog) (view : View) (index : Nat) : Bool :=
  (c.isCandidate view index ⟨0⟩).1

/-- The candidates among some behaviors, as far as they do not hang on the generator. -/
def eligible (c : Catalog) (view : View) (indices : List Nat) : List Nat :=
  indices.filter (c.accepts view)

/-- The roll of a choice among all behaviors. There is none without a candidate, or if one of them is mandatory. -/
def nextRoll? (c : Catalog) (view : View) : Option Roll :=
  let eligible := c.eligible view (List.range c.behaviors.length)
  if (∀ i ∈ eligible, c.weight i ≠ 0) ∧ eligible ≠ [] then some (.weighted (c.weights eligible)) else none

/-- The behaviors that may follow one. -/
def followers (c : Catalog) (source : Nat) : List Nat :=
  ((c.behavior? source).map (·.next)).getD []

/-- The roll of a choice among followers. There is none without a candidate. -/
def chainedRoll? (c : Catalog) (view : View) (source : Nat) : Option Roll :=
  let eligible := c.eligible view (c.followers source)
  if eligible = [] then none else some (.uniform eligible.length)

variable {c : Catalog} (settled : c.WithoutChance) (view : View)

/-! ## Candidates -/

section Candidates

include settled

theorem blocks_steady : ∀ action ∈ c.actions, AnswersSteadily (·.holds view) action.blocks :=
  fun action there b member condition asked =>
    condition.expr.holds_steady view (settled.blocks action there b member condition asked)

theorem isCandidate_steady (index : Nat) : Steady (c.isCandidate view index) := by
  unfold isCandidate
  split
  next => exact .pure _
  next b there =>
    split
    next =>
      split
      next => exact .pure _
      next condition asked =>
        exact condition.expr.holds_steady view (settled.behaviors b (List.mem_of_getElem? there) condition asked)
    next => exact .pure _

/-- The answer is the same for every generator, and leaves it. -/
theorem isCandidate_eq (index : Nat) (r : Random) : c.isCandidate view index r = (c.accepts view index, r) := by
  obtain ⟨answer, same⟩ := isCandidate_steady settled view index
  rw [accepts, same, same]

theorem candidates_eq (indices : List Nat) (r : Random) :
    c.candidates view indices r = (c.eligible view indices, r) := by
  induction indices with
  | nil => rfl
  | cons index rest ih =>
    rw [candidates, stateM_bind_apply, isCandidate_eq settled, stateM_bind_apply, ih]
    change (if c.accepts view index then index :: c.eligible view rest else c.eligible view rest, r) = _
    rw [eligible, eligible, List.filter_cons]

end Candidates

/-! ## Rolls -/

/-- There is a roll exactly if there are candidates and none is mandatory. -/
theorem nextRoll?_iff :
    c.nextRoll? view ≠ none ↔ (∀ i ∈ c.eligible view (List.range c.behaviors.length), c.weight i ≠ 0) ∧
      c.eligible view (List.range c.behaviors.length) ≠ [] := by
  unfold nextRoll?
  dsimp only
  rw [ne_eq, ite_eq_right_iff, Classical.not_imp]
  exact and_iff_left nofun

theorem chainedRoll?_iff (source : Nat) :
    c.chainedRoll? view source ≠ none ↔ c.eligible view (c.followers source) ≠ [] := by
  unfold chainedRoll?
  dsimp only
  rw [ne_eq, ite_eq_left_iff, Classical.not_imp]
  exact and_iff_left nofun

include settled

/-- A choice among all behaviors makes its roll, and no other draw. -/
theorem selectNext?_rolls {r last : Random} {chosen : Nat} (answered : c.selectNext? view r = some (chosen, last)) :
    last = afterRoll (c.nextRoll? view) r := by
  have choice := selectNext?_choice (candidates_eq settled view _ r) answered
  unfold nextRoll?
  dsimp only
  generalize c.eligible view (List.range c.behaviors.length) = eligible at choice ⊢
  cases choice with
  | mandatory before after i split earlier weightless =>
    rw [if_neg fun rolls => rolls.1 chosen (by simp [split]) weightless]
    rfl
  | drawn i roll last filled optional drew falls =>
    rw [if_pos ⟨optional, filled⟩]
    exact (afterRoll_of_draw (.weighted _) drew).symm
  | standIn empty =>
    rw [if_neg fun rolls => rolls.2 empty]
    rfl

/-- So does a choice among followers, which finds one exactly if it rolls. -/
theorem selectChained_rolls (source : Nat) (r : Random) :
    (c.selectChained view source r).2 = afterRoll (c.chainedRoll? view source) r ∧
      ((c.selectChained view source r).1 = none ↔ c.chainedRoll? view source = none) := by
  unfold selectChained chainedRoll? followers
  cases c.behavior? source with
  | none => exact ⟨rfl, fun _ => rfl, fun _ => rfl⟩
  | some b =>
    dsimp only [Option.map_some, Option.getD_some]
    rw [stateM_bind_apply, candidates_eq settled]
    generalize c.eligible view b.next = eligible
    cases eligible with
    | nil => exact ⟨rfl, fun _ => rfl, fun _ => rfl⟩
    | cons first others =>
      have filled : 0 < (first :: others).length := Nat.zero_lt_succ _
      have below := Random.below64_lt filled r
      rw [if_neg (List.cons_ne_nil first others)]
      cases drew : Random.below64 (first :: others).length r with
      | mk roll last =>
        rw [drew] at below
        have chosen : (modifyGet (Random.below64 (first :: others).length) >>= fun i =>
            pure (first :: others)[i]? : StateM Random (Option Nat)) r = ((first :: others)[roll]?, last) :=
          modifyGet_bind_apply _ drew _
        rw [if_neg (by exact nofun), chosen, afterRoll_of_draw (.uniform _) drew]
        exact ⟨rfl, fun absent => absurd (List.getElem?_eq_none_iff.mp absent) (Nat.not_le.mpr below), nofun⟩

end Catalog

end DesktopPet
