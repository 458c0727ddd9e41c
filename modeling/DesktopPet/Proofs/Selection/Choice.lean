import DesktopPet.Proofs.Number.Draws
import DesktopPet.Proofs.Playback.Step
import DesktopPet.Selection
import Mathlib

/-!
# The rules of selection

`Choice` says which behavior may be chosen among the eligible ones and how far the generator gets: the first
mandatory one, else the one on which a roll below the sum of all weights falls, else the default. A roll falls
on the behavior that it meets when the weights are laid one after another, so that each behavior has as many
rolls as its weight.
-/

namespace DesktopPet

open Condition (View)

/-- A draw is made once, and what follows it goes on from there. -/
theorem modifyGet_bind_apply {σ α β : Type} (draw : σ → α × σ) {s later : σ} {a : α} (drew : draw s = (a, later))
    (next : α → StateM σ β) : ((modifyGet draw : StateM σ α) >>= next) s = next a later := by
  change next (draw s).1 (draw s).2 = next a later
  rw [drew]

namespace Random

private theorem scaled_lt {width word bound k : Nat} (fits : word < Nat.pow 2 width) (positive : 0 < bound)
    (scaled : scaled? width word bound = some k) : k < bound := by
  unfold scaled? at scaled
  dsimp only at scaled
  split at scaled
  · cases scaled
  · cases scaled
    exact Nat.div_lt_of_lt_mul (Nat.mul_lt_mul_of_pos_right fits positive)

/-- A roll stays below its bound. -/
theorem below32_lt {bound : Nat} (positive : 0 < bound) (r : Random) : (below32 bound r).1 < bound := by
  refine redraw_holds (· < bound) 0 _ positive (fun r k accepted => ?_) period r
  exact scaled_lt (r.next.1.toUInt32.toNat_lt) positive accepted

theorem below64_lt {bound : Nat} (positive : 0 < bound) (r : Random) : (below64 bound r).1 < bound := by
  refine redraw_holds (· < bound) 0 _ positive (fun r k accepted => ?_) period r
  exact scaled_lt r.next.1.toNat_lt positive accepted

end Random

namespace Catalog

variable (c : Catalog)

/-! ## Candidates -/

/-- The candidates are those that a filter keeps which asks each behavior once, in order. -/
theorem candidates_filterM (view : View) (indices : List Nat) :
    c.candidates view indices = indices.filterM (c.isCandidate view) := by
  have reversed (indices kept : List Nat) : indices.filterAuxM (c.isCandidate view) kept =
      (c.candidates view indices >>= fun others => pure (others.reverse ++ kept)) := by
    induction indices generalizing kept with
    | nil => rfl
    | cons index rest ih =>
      simp only [List.filterAuxM, candidates, ih, bind_assoc, pure_bind]
      congr 1
      funext chosen
      cases chosen with
      | false => rfl
      | true => simp
  simp [List.filterM, reversed]

theorem candidates_sublist (view : View) (indices : List Nat) (r : Random) :
    (c.candidates view indices r).1.Sublist indices := by
  induction indices generalizing r with
  | nil => exact List.Sublist.slnil
  | cons index rest ih =>
    have others := ih (c.isCandidate view index r).2
    change (if (c.isCandidate view index r).1 then index :: (c.candidates view rest (c.isCandidate view index r).2).1
      else (c.candidates view rest (c.isCandidate view index r).2).1).Sublist (index :: rest)
    split
    · exact others.cons_cons index
    · exact others.cons index

/-! ## Weights -/

/-- The sum of weights, whether or not it fits into a word. -/
def weights (indices : List Nat) : Nat :=
  (indices.map fun i => (c.weight i).toNat).sum

@[simp]
theorem weights_nil : c.weights [] = 0 :=
  rfl

@[simp]
theorem weights_cons (i : Nat) (rest : List Nat) :
    c.weights (i :: rest) = (c.weight i).toNat + c.weights rest :=
  List.sum_cons

private theorem weights_append (first second : List Nat) :
    c.weights (first ++ second) = c.weights first + c.weights second := by
  simp [weights]

/-- The sum in words is the sum of the weights. There is none exactly if that does not fit into a word. -/
theorem totalWeight?_eq (indices : List Nat) : (c.totalWeight? indices).map (·.toNat) =
    if c.weights indices < 2 ^ 32 then some (c.weights indices) else none := by
  have sum (start : UInt32) : (indices.foldlM (fun total i => addWords? total (c.weight i)) start).map (·.toNat) =
      if start.toNat + c.weights indices < 2 ^ 32 then some (start.toNat + c.weights indices) else none := by
    induction indices generalizing start with
    | nil => simp [start.toNat_lt]
    | cons i rest ih =>
      rw [List.foldlM_cons, weights_cons, ← Nat.add_assoc, addWords?]
      by_cases fits : start.toNat + (c.weight i).toNat < Nat.pow 2 32
      · have next : (start + c.weight i).toNat = start.toNat + (c.weight i).toNat := by
          rw [UInt32.toNat_add, Nat.mod_eq_of_lt fits]
        rw [if_pos fits, ← next]
        exact ih _
      · -- what overflows early cannot fit in the end
        have heavy : ¬ start.toNat + (c.weight i).toNat + c.weights rest < 2 ^ 32 :=
          fun light => fits (Nat.lt_of_le_of_lt (Nat.le_add_right _ _) light)
        rw [if_neg fits, if_neg heavy]
        rfl
  have total := sum 0
  rwa [UInt32.toNat_zero, Nat.zero_add] at total

private theorem totalWeight?_some {indices : List Nat} {total : UInt32} (added : c.totalWeight? indices = some total) :
    c.weights indices < 2 ^ 32 ∧ total.toNat = c.weights indices := by
  have sum := c.totalWeight?_eq indices
  rw [added, Option.map_some] at sum
  split at sum
  next fits => exact ⟨fits, Option.some.inj sum⟩
  · cases sum

private theorem totalWeight?_none {indices : List Nat} (overflows : c.totalWeight? indices = none) :
    2 ^ 32 ≤ c.weights indices := by
  have sum := c.totalWeight?_eq indices
  rw [overflows, Option.map_none] at sum
  split at sum
  · cases sum
  next heavy => exact Nat.le_of_not_lt heavy

private theorem weight_of_behavior {i : Nat} {b : Behavior} (there : c.behavior? i = some b) :
    c.weight i = b.frequency := by
  rw [weight, there]
  rfl

/-- All behaviors together weigh the sum of their frequencies. -/
theorem weights_range : c.weights (List.range c.behaviors.length) = (c.behaviors.map (·.frequency.toNat)).sum := by
  have listed : (List.range c.behaviors.length).map (fun i => (c.weight i).toNat) =
      c.behaviors.map (·.frequency.toNat) := by
    refine List.ext_getElem (by simp) fun i _ mapped => ?_
    have inside : i < c.behaviors.length := by simpa using mapped
    have there : c.behavior? i = some c.behaviors[i] := List.getElem?_eq_getElem inside
    simp [c.weight_of_behavior there]
  rw [weights, listed]

private theorem weights_sublist {first second : List Nat} (kept : first.Sublist second) :
    c.weights first ≤ c.weights second :=
  (kept.map _).sum_le_sum fun _ _ => Nat.zero_le _

/-- The weights of all behaviors together fit into a word. -/
def Light (c : Catalog) : Prop :=
  (c.behaviors.map (·.frequency.toNat)).sum < 2 ^ 32

theorem Light.candidates {c : Catalog} (light : c.Light) (view : View) (r : Random) :
    c.weights (c.candidates view (List.range c.behaviors.length) r).1 < 2 ^ 32 := by
  have kept := c.weights_sublist (c.candidates_sublist view (List.range c.behaviors.length) r)
  rw [weights_range] at kept
  exact Nat.lt_of_le_of_lt kept light

/-- A behavior is mandatory if it weighs nothing. -/
theorem mandatory_iff {i : Nat} (inside : i < c.behaviors.length) :
    (c.behavior? i).any (·.isMandatory) = true ↔ c.weight i = 0 := by
  have there : c.behavior? i = some c.behaviors[i] := List.getElem?_eq_getElem inside
  simp [there, c.weight_of_behavior there, Behavior.isMandatory]

/-! ## The walk along the weights -/

/-- A roll falls on a behavior if it is past the weights before it and within its own. -/
def Falls (eligible : List Nat) (roll i : Nat) : Prop :=
  ∃ before after, eligible = before ++ i :: after ∧ c.weights before ≤ roll ∧
    roll < c.weights before + (c.weight i).toNat

theorem pick_iff_falls (eligible : List Nat) (roll i : Nat) :
    c.pick? eligible roll = some i ↔ c.Falls eligible roll i := by
  induction eligible generalizing roll with
  | nil => simp [pick?, Falls]
  | cons first rest ih =>
    rw [pick?]
    split
    next within =>
      constructor
      · rintro ⟨⟩
        exact ⟨[], rest, rfl, Nat.zero_le _, by simpa using within⟩
      · rintro ⟨before, after, split, past, _⟩
        cases before with
        | nil =>
          cases split
          rfl
        | cons _ others =>
          cases split
          rw [weights_cons] at past
          omega
    next beyond =>
      rw [ih]
      constructor
      · rintro ⟨before, after, rfl, past, inside⟩
        exact ⟨first :: before, after, rfl, by rw [weights_cons]; omega, by rw [weights_cons]; omega⟩
      · rintro ⟨before, after, split, past, inside⟩
        cases before with
        | nil =>
          cases split
          simp only [weights_nil, Nat.zero_add] at inside
          exact absurd inside beyond
        | cons _ others =>
          cases split
          rw [weights_cons] at past inside
          exact ⟨others, after, rfl, by omega, by omega⟩

/-- A roll below the sum of the weights falls on a behavior. -/
theorem falls_of_lt {eligible : List Nat} {roll : Nat} (inside : roll < c.weights eligible) :
    ∃ i ∈ eligible, c.Falls eligible roll i := by
  induction eligible generalizing roll with
  | nil => exact absurd inside (Nat.not_lt_zero roll)
  | cons first rest ih =>
    rw [weights_cons] at inside
    by_cases within : roll < (c.weight first).toNat
    · exact ⟨first, List.mem_cons_self, [], rest, rfl, Nat.zero_le _, by simpa using within⟩
    · have left : roll - (c.weight first).toNat < c.weights rest := by omega
      obtain ⟨i, member, before, after, rfl, past, short⟩ := ih left
      exact ⟨i, List.mem_cons_of_mem _ member, first :: before, after, rfl, by rw [weights_cons]; omega,
        by rw [weights_cons]; omega⟩

/-- Of the rolls below the sum, each behavior has as many as its weight. -/
theorem falls_card {eligible : List Nat} (distinct : eligible.Nodup) {i : Nat} (member : i ∈ eligible) :
    ((Finset.range (c.weights eligible)).filter fun roll => c.pick? eligible roll = some i).card =
      (c.weight i).toNat := by
  obtain ⟨before, after, rfl⟩ := List.append_of_mem member
  have interval : (Finset.range (c.weights (before ++ i :: after))).filter
      (fun roll => c.pick? (before ++ i :: after) roll = some i) =
      Finset.Ico (c.weights before) (c.weights before + (c.weight i).toNat) := by
    ext roll
    rw [Finset.mem_filter, Finset.mem_range, Finset.mem_Ico, pick_iff_falls, weights_append, weights_cons]
    constructor
    · rintro ⟨_, first, last, split, past, short⟩
      -- an entry stands at one place only
      obtain ⟨rfl, _, _⟩ := (List.append_cons_inj_of_notMem (by grind) (by grind)).mp split
      exact ⟨past, short⟩
    · rintro ⟨past, short⟩
      exact ⟨by omega, before, after, rfl, past, short⟩
  rw [interval, Nat.card_Ico, Nat.add_sub_cancel_left]

/-- The walk in words of 32 bits. It has no answer if a weight that is to be taken off exceeds the roll. -/
def pickStrict? : List Nat → UInt32 → Option (Option Nat)
  | [], _ => some none
  | i :: rest, roll =>
    if roll < c.weight i then some (some i)
    else if roll.toNat < (c.weight i).toNat then none
    else pickStrict? rest (roll - c.weight i)

/-- No weight that is taken off exceeds the roll. -/
theorem pickStrict_eq (eligible : List Nat) (roll : UInt32) :
    c.pickStrict? eligible roll = some (c.pick? eligible roll.toNat) := by
  induction eligible generalizing roll with
  | nil => rfl
  | cons i rest ih =>
    simp only [pickStrict?, pick?, UInt32.lt_iff_toNat_lt]
    split
    · rfl
    next beyond =>
      have left : (roll - c.weight i).toNat = roll.toNat - (c.weight i).toNat :=
        UInt32.toNat_sub_of_le _ _ (UInt32.le_iff_toNat_le.mpr (Nat.le_of_not_lt beyond))
      rw [ih, left]

/-! ## The rules -/

/-- What the rules make of the eligible behaviors, from the generator as it is once all have been asked: a
behavior, and the generator after the choice. -/
inductive Choice (eligible : List Nat) (asked : Random) : Nat → Random → Prop where
  /-- The first behavior without weight wins, and nothing is drawn. -/
  | mandatory (before after : List Nat) (i : Nat) (split : eligible = before ++ i :: after)
      (earlier : ∀ j ∈ before, c.weight j ≠ 0) (weightless : c.weight i = 0) : Choice eligible asked i asked
  /-- One roll below the sum of the weights decides. -/
  | drawn (i roll : Nat) (last : Random) (filled : eligible ≠ []) (optional : ∀ j ∈ eligible, c.weight j ≠ 0)
      (drew : Random.below32 (c.weights eligible) asked = (roll, last)) (falls : c.Falls eligible roll i) :
      Choice eligible asked i last
  /-- Without eligible behaviors the default one stands in, and nothing is drawn. -/
  | standIn (empty : eligible = []) : Choice eligible asked c.defaultBehavior asked

variable {c}

theorem Falls.mem {eligible : List Nat} {roll i : Nat} (falls : c.Falls eligible roll i) : i ∈ eligible := by
  obtain ⟨before, after, split, _, _⟩ := falls
  simp [split]

theorem Choice.mem {eligible : List Nat} {asked last : Random} {i : Nat} (choice : c.Choice eligible asked i last)
    (filled : eligible ≠ []) : i ∈ eligible := by
  cases choice with
  | mandatory before after _ split earlier weightless => simp [split]
  | drawn _ roll _ _ _ _ falls => exact falls.mem
  | standIn empty => exact absurd empty filled

private theorem optional_of_absent {eligible : List Nat} (inside : ∀ i ∈ eligible, i < c.behaviors.length)
    (absent : (eligible.find? fun i => (c.behavior? i).any (·.isMandatory)) = none) : ∀ i ∈ eligible, c.weight i ≠ 0 :=
  fun i member weightless => List.find?_eq_none.mp absent i member ((c.mandatory_iff (inside i member)).mpr weightless)

section Asked

variable {view : View} {r asked : Random} {eligible : List Nat}
  (candidates : c.candidates view (List.range c.behaviors.length) r = (eligible, asked))
include candidates

theorem eligible_inside : ∀ i ∈ eligible, i < c.behaviors.length := by
  have kept := c.candidates_sublist view (List.range c.behaviors.length) r
  rw [candidates] at kept
  exact fun i member => List.mem_range.mp (kept.subset member)

theorem selectNext?_mandatory {i : Nat}
    (found : (eligible.find? fun i => (c.behavior? i).any (·.isMandatory)) = some i) :
    c.selectNext? view r = some (i, asked) := by
  simp only [selectNext?, candidates, found]
  rfl

/-- Without a mandatory behavior the weights decide, if they fit into a word. -/
theorem selectNext?_optional (absent : (eligible.find? fun i => (c.behavior? i).any (·.isMandatory)) = none) :
    c.selectNext? view r = (c.totalWeight? eligible).map fun total =>
      if 0 < total then
        (asked.below32 total.toNat).map (fun roll => (c.pick? eligible roll).getD c.defaultBehavior) id
      else (c.defaultBehavior, asked) := by
  simp only [selectNext?, candidates, absent]
  cases c.totalWeight? eligible with
  | none => rfl
  | some total => exact (apply_ite some (0 < total) _ _).symm

/-- An answer obeys the rules. -/
theorem selectNext?_choice {chosen : Nat} {last : Random} (answered : c.selectNext? view r = some (chosen, last)) :
    c.Choice eligible asked chosen last := by
  have inside := eligible_inside candidates
  cases found : eligible.find? fun i => (c.behavior? i).any (·.isMandatory) with
  | some i =>
    rw [selectNext?_mandatory candidates found] at answered
    cases Option.some.inj answered
    obtain ⟨weightless, before, after, rfl, earlier⟩ := List.find?_eq_some_iff_append.mp found
    refine .mandatory before after chosen rfl (fun j member => ?_)
      ((c.mandatory_iff (inside chosen (by simp))).mp weightless)
    have weighs := earlier j member
    rw [Bool.not_eq_true', ← Bool.not_eq_true, c.mandatory_iff (inside j (by simp [member]))] at weighs
    exact weighs
  | none =>
    have optional := optional_of_absent inside found
    rw [selectNext?_optional candidates found] at answered
    obtain ⟨total, added, answered⟩ := Option.map_eq_some_iff.mp answered
    obtain ⟨_, sum⟩ := c.totalWeight?_some added
    have weighs : 0 < total ↔ 0 < c.weights eligible := by rw [UInt32.lt_iff_toNat_lt, sum, UInt32.toNat_zero]
    rw [sum] at answered
    split at answered
    next positive =>
      replace positive := weighs.mp positive
      cases drew : Random.below32 (c.weights eligible) asked with
      | mk roll rolled =>
        have below := Random.below32_lt positive asked
        rw [drew] at below answered
        obtain ⟨i, _, falls⟩ := c.falls_of_lt below
        rw [Prod.map_apply, (c.pick_iff_falls eligible roll i).mpr falls] at answered
        cases answered
        exact .drawn i roll rolled (by rintro rfl; exact Nat.lt_irrefl 0 positive) optional drew falls
    next weightless =>
      replace weightless := mt weighs.mpr weightless
      cases answered
      refine .standIn (List.eq_nil_iff_forall_not_mem.mpr fun i member => optional i member ?_)
      obtain ⟨before, after, rfl⟩ := List.append_of_mem member
      rw [weights_append, weights_cons] at weightless
      exact UInt32.toNat_inj.mp (by simp only [UInt32.toNat_zero]; omega)

/-- There is no answer exactly if no eligible behavior is mandatory and their weights do not fit into a word. -/
theorem selectNext?_eq_none_iff :
    c.selectNext? view r = none ↔ (∀ i ∈ eligible, c.weight i ≠ 0) ∧ 2 ^ 32 ≤ c.weights eligible := by
  have inside := eligible_inside candidates
  cases found : eligible.find? fun i => (c.behavior? i).any (·.isMandatory) with
  | some i =>
    have member := List.mem_of_find?_eq_some found
    have mandatory := List.find?_some found
    have weightless := (c.mandatory_iff (inside i member)).mp mandatory
    rw [selectNext?_mandatory candidates found]
    exact ⟨nofun, fun heavy => absurd weightless (heavy.1 i member)⟩
  | none =>
    rw [selectNext?_optional candidates found, Option.map_eq_none_iff]
    refine ⟨fun overflows => ⟨optional_of_absent inside found, c.totalWeight?_none overflows⟩, fun heavy => ?_⟩
    have sum := c.totalWeight?_eq eligible
    rw [if_neg (Nat.not_lt.mpr heavy.2)] at sum
    exact Option.map_eq_none_iff.mp sum

end Asked

end Catalog

/-- Selection obeys the rules for the behaviors that are eligible when each is asked once, in order. Every roll
below the sum of their weights falls on one of them, each has as many rolls as its weight, in order, and the walk
in words of 32 bits finds it without ever taking off more than is left. -/
theorem selection_obeys_rules (c : Catalog) (view : View) (r : Random)
    (fits : (c.behaviors.map (·.frequency.toNat)).sum < 2 ^ 32) :
    let (eligible, asked) := (List.range c.behaviors.length).filterM (c.isCandidate view) r
    ∃ chosen last, c.selectNext? view r = some (chosen, last) ∧ c.Choice eligible asked chosen last ∧
      (eligible ≠ [] → chosen ∈ eligible) ∧
      (∀ roll : UInt32, roll.toNat < c.weights eligible →
        ∃ i ∈ eligible, c.Falls eligible roll.toNat i ∧ c.pickStrict? eligible roll = some (some i)) ∧
      ∀ i ∈ eligible, ((Finset.range (c.weights eligible)).filter fun roll => c.pick? eligible roll = some i).card =
        (c.weight i).toNat := by
  rw [← c.candidates_filterM]
  have kept := c.candidates_sublist view (List.range c.behaviors.length) r
  cases candidates : c.candidates view (List.range c.behaviors.length) r with
  | mk eligible asked =>
    rw [candidates] at kept
    have light := Catalog.Light.candidates fits view r
    rw [candidates] at light
    have answers : c.selectNext? view r ≠ none := fun missing =>
      absurd ((Catalog.selectNext?_eq_none_iff candidates).mp missing).2 (Nat.not_le.mpr light)
    obtain ⟨⟨chosen, last⟩, answered⟩ := Option.ne_none_iff_exists'.mp answers
    have choice := Catalog.selectNext?_choice candidates answered
    refine ⟨chosen, last, answered, choice, choice.mem, fun roll below => ?_, fun i member => ?_⟩
    · obtain ⟨i, member, falls⟩ := c.falls_of_lt below
      refine ⟨i, member, falls, ?_⟩
      rw [c.pickStrict_eq, (c.pick_iff_falls eligible _ i).mpr falls]
    · exact c.falls_card (List.nodup_range.sublist kept) member

/-- A behavior for the floor, one for the ceiling, one that a coin decides on, and one more. -/
def menu : Catalog :=
  let still : Action :=
    { name := "still", kind := .stay, footing := some .floor, blocks := [], defaultBlock := none, references := []
      looping := true, draggable := true, duration := none, embedded := [] }
  let stand : Behavior :=
    { name := "stand", frequency := 10, condition := none, hidden := false, action := 0, next := [] }
  let coin : Condition.Predicate := ⟨"random(0.5)", .random (.literal (.number 0.5))⟩
  { name := "menu", actions := [still, { still with name := "hang", footing := some .ceiling }]
    behaviors := [stand, { stand with name := "hang", frequency := 20, action := 1 },
      { stand with name := "nod", frequency := 30, condition := some coin },
      { stand with name := "wave", frequency := 60 }]
    defaultBehavior := 1, draggedBehavior := none, thrownBehavior := none }

/-- What a pet on the floor sees. -/
def onTheFloor : View :=
  { position := ⟨400.0, 844.0⟩, velocity := .zero, size := ⟨128.0, 128.0⟩, facing := .left
    contact := { onFloor := true }, isDragging := false, isThrown := false, area := .standard }

theorem selection_obeys_rules_menu :
    (menu.behaviors.map (·.frequency.toNat)).sum < 2 ^ 32 ∧
      ∃ eligible asked chosen last, (List.range 4).filterM (menu.isCandidate onTheFloor) ⟨4⟩ = (eligible, asked) ∧
        eligible = [0, 2, 3] ∧ menu.selectNext? onTheFloor ⟨4⟩ = some (chosen, last) ∧
        menu.Choice eligible asked chosen last ∧ chosen ∈ eligible ∧
        ((Finset.range 100).filter fun roll => menu.pick? eligible roll = some 2).card = 30 := by
  have fits : (menu.behaviors.map (·.frequency.toNat)).sum < 2 ^ 32 := by decide
  have known : ((List.range 4).filterM (menu.isCandidate onTheFloor) ⟨4⟩).1 = [0, 2, 3] := by decide +kernel
  have rules := selection_obeys_rules menu onTheFloor ⟨4⟩ fits
  rw [show menu.behaviors.length = 4 from rfl] at rules
  cases asking : (List.range 4).filterM (menu.isCandidate onTheFloor) ⟨4⟩ with
  | mk eligible asked =>
    rw [asking] at known rules
    obtain ⟨chosen, last, answered, choice, member, _, shares⟩ := rules
    dsimp only at known
    subst known
    exact ⟨fits, _, asked, chosen, last, rfl, rfl, answered, choice, member nofun, shares 2 (by decide)⟩

end DesktopPet
