import DesktopPet.Proofs.Playback.Step

/-!
# The choice of a block

A block is chosen in one pass over the blocks of an action, and the pass asks a condition only where the answer can
matter. `Survey` says what such a pass has seen: each block in its place, with the answer to its condition where that
was asked. The choice is the first best of the blocks that held (`best_block_chosen`), and the questions are those of
the survey, which a callback that takes notes brings to light.
-/

namespace DesktopPet

open Condition (Predicate)

/-- A block in its place, and the answer to its condition if that was asked. -/
structure Visit where
  block : Block
  index : Nat
  answer : Option Bool

/-- The block held: it has no condition, or the answer was yes. -/
def Visit.held (v : Visit) : Bool :=
  v.block.condition.isNone || v.answer = some true

/-- The blocks that held, each with its place. -/
def heldBlocks (visits : List Visit) : List (Block × Nat) :=
  (visits.filter Visit.held).map fun v => (v.block, v.index)

/-- The conditions that were asked in order, with their answers. -/
def questions (visits : List Visit) : List (Predicate × Bool) :=
  visits.filterMap fun v => do return (← v.block.condition, ← v.answer)

/-- A pass over some blocks. It asks the condition of a block unless a block before it held with at least its
priority. -/
structure Survey (blocks : List Block) (visits : List Visit) : Prop where
  blocks : visits.map (fun v => (v.block, v.index)) = blocks.zipIdx
  asked : ∀ v ∈ visits, v.answer.isSome = true ↔ v.block.condition.isSome = true ∧
    ∀ u ∈ visits, u.index < v.index → u.held = true → u.block.priority < v.block.priority

/-- The first of the blocks of highest priority among those given with their places, else the default block. -/
def Action.firstBest (a : Action) (held : List (Block × Nat)) : Option BlockRef :=
  ((held.maxOn? (·.1.priority)).map (.block ·.2)).or (a.defaultBlock.map fun _ => .default)

/-- The callback, with notes of what it was asked and what it answered. -/
def noting {σ : Type} (ask : Predicate → StateM σ Bool) :
    Predicate → StateM (σ × List (Predicate × Bool)) Bool :=
  fun condition (s, notes) =>
    let (yes, s) := ask condition s
    (yes, s, notes ++ [(condition, yes)])

/-! ## First bests -/

private theorem maxOn?_eq_none {held : List (Block × Nat)} : held.maxOn? (·.1.priority) = none ↔ held = [] := by
  rw [← Option.not_isSome_iff_eq_none, List.isSome_maxOn?_iff, Classical.not_not]

section FirstBest

variable (a : Action) (held : List (Block × Nat))

private theorem firstBest_eq_block_iff (i : Nat) :
    a.firstBest held = some (.block i) ↔ ∃ b, held.maxOn? (·.1.priority) = some (b, i) := by
  unfold Action.firstBest
  cases held.maxOn? (·.1.priority) with
  | none => simp
  | some best =>
    obtain ⟨b, j⟩ := best
    simp

private theorem firstBest_eq_default_iff :
    a.firstBest held = some .default ↔ held = [] ∧ a.defaultBlock.isSome = true := by
  unfold Action.firstBest
  cases best : held.maxOn? (·.1.priority) with
  | none => simp [maxOn?_eq_none.mp best, Option.isSome_iff_exists]
  | some e =>
    have some_held : held ≠ [] := List.ne_nil_of_mem (List.maxOn?_mem best)
    simp [some_held]

private theorem firstBest_eq_none_iff : a.firstBest held = none ↔ held = [] ∧ a.defaultBlock = none := by
  unfold Action.firstBest
  cases best : held.maxOn? (·.1.priority) with
  | none => simp [maxOn?_eq_none.mp best]
  | some e =>
    have some_held : held ≠ [] := List.ne_nil_of_mem (List.maxOn?_mem best)
    simp [some_held]

end FirstBest

/-- The best block so far, as the pass keeps it. -/
def bestSoFar (held : List (Block × Nat)) : Option (Nat × Int) :=
  (held.maxOn? (·.1.priority)).map fun e => (e.2, e.1.priority)

/-- A block is passed over if it would not become the best. -/
private theorem bestSoFar_any (held : List (Block × Nat)) (priority : Int) :
    (bestSoFar held).any (fun found => priority ≤ found.2) = true ↔ ∃ e ∈ held, priority ≤ e.1.priority := by
  unfold bestSoFar
  cases best : held.maxOn? (·.1.priority) with
  | none => simp [maxOn?_eq_none.mp best]
  | some e =>
    simp only [Option.map_some, Option.any_some, decide_eq_true_eq]
    constructor
    · exact fun bounded => ⟨e, List.maxOn?_mem best, bounded⟩
    · rintro ⟨other, member, bounded⟩
      have highest := List.le_apply_maxOn_of_mem (f := fun e : Block × Nat => e.1.priority) member
      rw [List.maxOn_eq_of_maxOn?_eq_some best] at highest
      exact Int.le_trans bounded highest

/-- One more block becomes the best if it holds, unless one of those before it has at least its priority. -/
private theorem bestSoFar_next (held : List (Block × Nat)) (b : Block) (i : Nat) (holds : Bool) :
    bestSoFar (held ++ if holds then [(b, i)] else []) =
      if holds = true ∧ (bestSoFar held).any (fun found => b.priority ≤ found.2) = false then some (i, b.priority)
      else bestSoFar held := by
  cases holds with
  | false => simp
  | true =>
    unfold bestSoFar
    rw [if_pos rfl, List.maxOn?_append, List.maxOn?_singleton]
    cases held.maxOn? (·.1.priority) with
    | none => simp
    | some e =>
      by_cases passed : b.priority ≤ e.1.priority
      · simp [maxOn_eq_if, passed]
      · simp [maxOn_eq_if, passed]

/-! ## One pass -/

@[simp] theorem questions_append (first second : List Visit) :
    questions (first ++ second) = questions first ++ questions second := by
  simp [questions]

theorem heldBlocks_concat (visits : List Visit) (v : Visit) :
    heldBlocks (visits ++ [v]) = heldBlocks visits ++ if v.held then [(v.block, v.index)] else [] := by
  cases held : v.held with
  | false => simp [heldBlocks, held]
  | true => simp [heldBlocks, held]

theorem Survey.index_lt {blocks : List Block} {visits : List Visit} (survey : Survey blocks visits) {v : Visit}
    (member : v ∈ visits) : v.index < blocks.length := by
  have there : (v.block, v.index) ∈ blocks.zipIdx := by
    rw [← survey.blocks]
    exact List.mem_map_of_mem member
  exact (List.mem_zipIdx' there).1

/-- The survey goes on with the next block. -/
theorem Survey.concat {blocks : List Block} {visits : List Visit} (survey : Survey blocks visits) (b : Block)
    (answer : Option Bool)
    (asked : answer.isSome = true ↔ b.condition.isSome = true ∧ ∀ e ∈ heldBlocks visits, e.1.priority < b.priority) :
    Survey (blocks ++ [b]) (visits ++ [⟨b, blocks.length, answer⟩]) := by
  constructor
  · simp [survey.blocks, List.zipIdx_append]
  · intro v member
    rcases List.mem_append.mp member with old | new
    · -- the new block stands behind all others
      have before := survey.index_lt old
      rw [survey.asked v old]
      simp only [List.forall_mem_append, List.forall_mem_singleton]
      exact and_congr_right fun _ => ⟨fun all => ⟨all, fun after => absurd after (by omega)⟩, And.left⟩
    · cases List.mem_singleton.mp new
      rw [asked]
      refine and_congr_right fun _ => ⟨fun all u member _ held => ?_, fun all e member => ?_⟩
      · rcases List.mem_append.mp member with old | new
        · exact all (u.block, u.index) (List.mem_map.mpr ⟨u, List.mem_filter.mpr ⟨old, held⟩, rfl⟩)
        · cases List.mem_singleton.mp new
          omega
      · obtain ⟨u, kept, rfl⟩ := List.mem_map.mp member
        obtain ⟨old, held⟩ := List.mem_filter.mp kept
        exact all u (List.mem_append_left _ old) (survey.index_lt old) held

private theorem noting_apply {σ : Type} (ask : Predicate → StateM σ Bool) (condition : Predicate) (s : σ)
    (notes : List (Predicate × Bool)) :
    noting ask condition (s, notes) =
      ((ask condition s).1, (ask condition s).2, notes ++ [(condition, (ask condition s).1)]) := rfl

/-- The pass over the blocks that are left completes the survey; the best block is the first best of all that held,
and the notes grow by the questions. The induction is on the blocks that are left. -/
theorem bestBlock_surveys {σ : Type} (ask : Predicate → StateM σ Bool) (blocks rest : List Block)
    (visits : List Visit) (s : σ) (survey : Survey blocks visits) :
    let out := Action.bestBlock ask rest blocks.length (bestSoFar (heldBlocks visits)) s
    ∃ later, Survey (blocks ++ rest) (visits ++ later) ∧ out.1 = bestSoFar (heldBlocks (visits ++ later)) ∧
      ∀ notes, Action.bestBlock (noting ask) rest blocks.length (bestSoFar (heldBlocks visits)) (s, notes) =
        (out.1, out.2, notes ++ questions later) := by
  induction rest generalizing blocks visits s with
  | nil => exact ⟨[], by simpa using survey, by simp [Action.bestBlock, stateM_pure_apply], by
      simp [Action.bestBlock, stateM_pure_apply, questions]⟩
  | cons b rest ih =>
    -- what is left to do once the block has its answer
    have goes_on (answer : Option Bool) (s' : σ) (best : Option (Nat × Int))
        (asked : answer.isSome = true ↔
          b.condition.isSome = true ∧ ∀ e ∈ heldBlocks visits, e.1.priority < b.priority)
        (kept : best = bestSoFar (heldBlocks (visits ++ [⟨b, blocks.length, answer⟩]))) :
        let out := Action.bestBlock ask rest (blocks.length + 1) best s'
        ∃ later, Survey (blocks ++ b :: rest) (visits ++ later) ∧
          out.1 = bestSoFar (heldBlocks (visits ++ later)) ∧
          ∀ notes, Action.bestBlock (noting ask) rest (blocks.length + 1) best
              (s', notes ++ questions [⟨b, blocks.length, answer⟩]) = (out.1, out.2, notes ++ questions later) := by
      obtain ⟨later, complete, first, noted⟩ :=
        ih (blocks ++ [b]) (visits ++ [⟨b, blocks.length, answer⟩]) s' (survey.concat b answer asked)
      rw [← kept, List.length_append, List.length_singleton] at first noted
      rw [List.append_assoc, List.singleton_append] at complete first
      refine ⟨⟨b, blocks.length, answer⟩ :: later, ?_, first, fun notes => ?_⟩
      · rwa [List.append_assoc, List.singleton_append] at complete
      · rw [noted, List.append_assoc, ← questions_append, List.singleton_append]
    rw [Action.bestBlock, Action.bestBlock]
    cases passed : (bestSoFar (heldBlocks visits)).any (fun found => b.priority ≤ found.2) with
    | true =>
      obtain ⟨e, member, bounded⟩ := (bestSoFar_any _ _).mp passed
      have unasked : ¬ ∀ e ∈ heldBlocks visits, e.1.priority < b.priority := fun all =>
        absurd (all e member) (Int.not_lt.mpr bounded)
      have onward := goes_on none s (bestSoFar (heldBlocks visits))
        ⟨fun never => absurd never Bool.false_ne_true, fun asked => absurd asked.2 unasked⟩
        (by rw [heldBlocks_concat, bestSoFar_next]; simp [passed])
      simpa [questions] using onward
    | false =>
      have leading : ∀ e ∈ heldBlocks visits, e.1.priority < b.priority := fun e member => by
        refine Int.not_le.mp fun bounded => ?_
        rw [(bestSoFar_any _ _).mpr ⟨e, member, bounded⟩] at passed
        cases passed
      simp only [Bool.false_eq_true, ↓reduceIte, stateM_bind_apply]
      cases conditional : b.condition with
      | none =>
        have onward := goes_on none s (some (blocks.length, b.priority)) (by simp [conditional])
          (by rw [heldBlocks_concat, bestSoFar_next]; simp [passed, Visit.held, conditional])
        simpa [Action.blockHolds, conditional, stateM_pure_apply, questions] using onward
      | some condition =>
        have onward := goes_on (some (ask condition s).1) (ask condition s).2
          (if (ask condition s).1 then some (blocks.length, b.priority) else bestSoFar (heldBlocks visits))
          (by simpa [conditional] using leading)
          (by rw [heldBlocks_concat, bestSoFar_next]; simp [passed, Visit.held, conditional])
        simpa [Action.blockHolds, conditional, noting_apply, questions] using onward

/-- A callback that answers by a fixed rule leaves the first best of all blocks that hold by it, asked or not. -/
theorem bestBlock_pure {σ : Type} (holds : Predicate → Bool) (blocks rest : List Block) (s : σ) :
    let holding (blocks : List Block) := blocks.zipIdx.filter fun e => e.1.condition.all holds
    (Action.bestBlock (fun condition => pure (holds condition)) rest blocks.length (bestSoFar (holding blocks)) s).1 =
      bestSoFar (holding (blocks ++ rest)) := by
  intro holding
  induction rest generalizing blocks s with
  | nil => rw [Action.bestBlock, stateM_pure_apply, List.append_nil]
  | cons b rest ih =>
    have later := ih (blocks ++ [b])
    have grown : holding (blocks ++ [b]) =
        holding blocks ++ if b.condition.all holds then [(b, blocks.length)] else [] := by
      cases held : b.condition.all holds with
      | false => simp [holding, List.zipIdx_append, held]
      | true => simp [holding, List.zipIdx_append, held]
    rw [List.length_append, List.length_singleton, List.append_assoc, List.singleton_append, grown, bestSoFar_next]
      at later
    have asked : Action.blockHolds (fun condition => (pure (holds condition) : StateM σ Bool)) b =
        pure (b.condition.all holds) := by
      unfold Action.blockHolds
      cases b.condition with
      | none => rfl
      | some condition => rfl
    rw [Action.bestBlock]
    cases passed : (bestSoFar (holding blocks)).any (fun found => b.priority ≤ found.2) with
    | true => simpa [passed] using later s
    | false =>
      rw [asked]
      simpa [passed] using later s

/-- What the pass makes of its best block in the end. -/
theorem selectBlock_of_best {σ : Type} (a : Action) (ask : Predicate → StateM σ Bool) (s : σ)
    (held : List (Block × Nat)) (best : (Action.bestBlock ask a.blocks 0 none s).1 = bestSoFar held) :
    a.selectBlock ask s = (a.firstBest held, (Action.bestBlock ask a.blocks 0 none s).2) := by
  rw [Action.selectBlock, stateM_bind_apply, best, bestSoFar, Action.firstBest]
  cases held.maxOn? (·.1.priority) with
  | none =>
    cases a.defaultBlock with
    | none => rfl
    | some block => rfl
  | some e => rfl

/-- The choice of a block asks the conditions of a survey of the blocks, in their order and nothing else, and answers
the first of the blocks of highest priority that held; without any it answers the default block, if there is one. With
a callback that answers by a fixed rule it is the first best of all blocks that hold by that rule. -/
theorem best_block_chosen {σ : Type} (a : Action) :
    (∀ (ask : Predicate → StateM σ Bool) (s : σ), ∃ visits, Survey a.blocks visits ∧
      (∀ notes, a.selectBlock (noting ask) (s, notes) =
        ((a.selectBlock ask s).1, (a.selectBlock ask s).2, notes ++ questions visits)) ∧
      (∀ i, (a.selectBlock ask s).1 = some (.block i) ↔
        ∃ b, (heldBlocks visits).maxOn? (·.1.priority) = some (b, i)) ∧
      ((a.selectBlock ask s).1 = some .default ↔ heldBlocks visits = [] ∧ a.defaultBlock.isSome = true) ∧
      ((a.selectBlock ask s).1 = none ↔ heldBlocks visits = [] ∧ a.defaultBlock = none)) ∧
    ∀ (holds : Predicate → Bool) (s : σ), (a.selectBlock (fun condition => pure (holds condition)) s).1 =
      a.firstBest (a.blocks.zipIdx.filter fun e => e.1.condition.all holds) := by
  constructor
  · intro ask s
    obtain ⟨visits, survey, best, noted⟩ := bestBlock_surveys ask [] a.blocks [] s ⟨rfl, by simp⟩
    have start : bestSoFar (heldBlocks []) = none := rfl
    simp only [start, List.length_nil] at best noted
    have chosen := selectBlock_of_best a ask s (heldBlocks visits) best
    refine ⟨visits, survey, fun notes => ?_, ?_, ?_, ?_⟩
    · have alike : (Action.bestBlock (noting ask) a.blocks 0 none (s, notes)).1 = bestSoFar (heldBlocks visits) := by
        rw [noted]
        exact best
      rw [selectBlock_of_best a (noting ask) (s, notes) (heldBlocks visits) alike, noted, chosen]
    · rw [chosen]
      exact firstBest_eq_block_iff a _
    · rw [chosen]
      exact firstBest_eq_default_iff a _
    · rw [chosen]
      exact firstBest_eq_none_iff a _
  · intro holds s
    have best := bestBlock_pure holds [] a.blocks s
    rw [selectBlock_of_best a _ s _ best, List.nil_append]

/-- The second of these conditions cannot matter any more once the first one holds, and is not asked. -/
example :
    let gated (source : String) (priority : Int) : Block :=
      { condition := some (.never source), priority, frames := [] }
    let pose : Action :=
      { name := "pose", kind := .stay, footing := none
        blocks := [gated "a" 1, gated "b" 0, gated "c" 5, gated "d" 2]
        defaultBlock := none, references := [], looping := true, draggable := true, duration := none
        embedded := [] }
    pose.selectBlock (noting fun condition => pure (condition.source ≠ "c")) ((), []) =
      (some (.block 3), (), [(.never "a", true), (.never "c", false), (.never "d", true)]) := rfl

end DesktopPet
