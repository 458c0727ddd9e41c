import DesktopPet.Player

/-!
# What one advance can do

Equations of the playback functions applied to a state of the callback. The callback may keep any
state and answer anything; the only fact about it that later proofs use is that the block chosen with
its help is there (`selectBlock_isSome`).
-/

namespace DesktopPet

open Condition (Predicate)

variable {σ : Type}

theorem stateM_bind_apply {α β : Type} (step : StateM σ α) (next : α → StateM σ β) (s : σ) :
    (step >>= next) s = next (step s).1 (step s).2 := rfl

theorem stateM_pure_apply {α : Type} (a : α) (s : σ) : (pure a : StateM σ α) s = (a, s) := rfl

/-! ## The choice of a block -/

/-- The best block is the best one so far or one of those that were looked at. -/
theorem bestBlock_range (ask : Predicate → StateM σ Bool) (blocks : List Block) (index : Nat)
    (best : Option (Nat × Int)) (s : σ) (i : Nat) (priority : Int)
    (found : (Action.bestBlock ask blocks index best s).1 = some (i, priority)) :
    best = some (i, priority) ∨ (index ≤ i ∧ i < index + blocks.length) := by
  induction blocks generalizing index best s with
  | nil => exact Or.inl found
  | cons b rest ih =>
    rw [Action.bestBlock] at found
    simp only [List.length_cons]
    split at found
    · rcases ih (index + 1) best s found with before | after
      · exact Or.inl before
      · exact Or.inr (by omega)
    · rw [stateM_bind_apply] at found
      rcases ih _ _ _ found with before | after
      · split at before
        · have same := Option.some.inj before
          have here : index = i := congrArg Prod.fst same
          exact Or.inr (by omega)
        · exact Or.inl before
      · exact Or.inr (by omega)

/-- A selected block is a block of the action. -/
theorem selectBlock_isSome (action : Action) (ask : Predicate → StateM σ Bool) (s : σ) (choice : BlockRef)
    (selected : (action.selectBlock ask s).1 = some choice) : (action.block? choice).isSome := by
  rw [Action.selectBlock, stateM_bind_apply] at selected
  cases best : (Action.bestBlock ask action.blocks 0 none s).1 with
  | none =>
    simp only [best] at selected
    split at selected
    next present =>
      cases Option.some.inj selected
      exact present
    · cases selected
  | some entry =>
    obtain ⟨i, priority⟩ := entry
    simp only [best] at selected
    cases Option.some.inj selected
    rcases bestBlock_range ask action.blocks 0 none s i priority best with absent | ⟨_, bound⟩
    · cases absent
    · simpa [Action.block?] using bound

/-! ## One leaf -/

theorem leaf_step_missing (leaf : LeafCursor) (c : Catalog) (ask : Predicate → StateM σ Bool)
    (looping inGap : Bool) (dt : Float32) (s : σ) (missing : c.action? leaf.action = none) :
    leaf.step c ask looping inGap dt s = ({ result := .done, leaf, inGap }, s) := by
  rw [LeafCursor.step, missing]
  rfl

theorem leaf_step_embedded (leaf : LeafCursor) (c : Catalog) (ask : Predicate → StateM σ Bool)
    (looping inGap : Bool) (dt : Float32) (s : σ) (action : Action)
    (present : c.action? leaf.action = some action) (embedded : action.kind = .embedded) :
    leaf.step c ask looping inGap dt s =
      ({ result := .done
         leaf := { leaf with entered := true }
         inGap
         events := if leaf.entered then {} else { embedded := [leaf.action] } }, s) := by
  rw [LeafCursor.step, present]
  simp only [embedded, ↓reduceIte]
  rfl

theorem leaf_step_gap (leaf : LeafCursor) (c : Catalog) (ask : Predicate → StateM σ Bool)
    (looping inGap : Bool) (dt : Float32) (s : σ) (action : Action)
    (present : c.action? leaf.action = some action) (framed : action.kind ≠ .embedded)
    (gap : (action.selectBlock ask s).1 = none) :
    leaf.step c ask looping inGap dt s =
      ({ result := .playing, leaf := { leaf with elapsed := leaf.elapsed + dt }, inGap := true },
        (action.selectBlock ask s).2) := by
  rw [LeafCursor.step, present]
  simp only [framed, ↓reduceIte]
  rw [stateM_bind_apply, gap]
  rfl

theorem leaf_step_frames (leaf : LeafCursor) (c : Catalog) (ask : Predicate → StateM σ Bool)
    (looping inGap : Bool) (dt : Float32) (s : σ) (action : Action) (choice : BlockRef) (block : Block)
    (present : c.action? leaf.action = some action) (framed : action.kind ≠ .embedded)
    (selected : (action.selectBlock ask s).1 = some choice) (named : action.block? choice = some block) :
    leaf.step c ask looping inGap dt s =
      ((leaf.turnTo choice).playFrames block.frames action.duration looping dt,
        (action.selectBlock ask s).2) := by
  rw [LeafCursor.step, present]
  simp only [framed, ↓reduceIte]
  rw [stateM_bind_apply, selected]
  simp only [named]
  rfl

/-- All that one leaf can do in an advance. -/
theorem leaf_step_cases (leaf : LeafCursor) (c : Catalog) (ask : Predicate → StateM σ Bool)
    (looping inGap : Bool) (dt : Float32) (s : σ) :
    (c.action? leaf.action = none ∧
      leaf.step c ask looping inGap dt s = ({ result := .done, leaf, inGap }, s)) ∨
    (∃ action, c.action? leaf.action = some action ∧ action.kind = .embedded ∧
      leaf.step c ask looping inGap dt s =
        ({ result := .done
           leaf := { leaf with entered := true }
           inGap
           events := if leaf.entered then {} else { embedded := [leaf.action] } }, s)) ∨
    (∃ action, c.action? leaf.action = some action ∧ action.kind ≠ .embedded ∧
      (action.selectBlock ask s).1 = none ∧
      leaf.step c ask looping inGap dt s =
        ({ result := .playing, leaf := { leaf with elapsed := leaf.elapsed + dt }, inGap := true },
          (action.selectBlock ask s).2)) ∨
    (∃ action choice block, c.action? leaf.action = some action ∧ action.kind ≠ .embedded ∧
      (action.selectBlock ask s).1 = some choice ∧ action.block? choice = some block ∧
      leaf.step c ask looping inGap dt s =
        ((leaf.turnTo choice).playFrames block.frames action.duration looping dt,
          (action.selectBlock ask s).2)) := by
  cases present : c.action? leaf.action with
  | none => exact Or.inl ⟨rfl, leaf_step_missing leaf c ask looping inGap dt s present⟩
  | some action =>
    refine Or.inr ?_
    by_cases embedded : action.kind = .embedded
    · exact Or.inl ⟨action, rfl, embedded, leaf_step_embedded leaf c ask looping inGap dt s action present embedded⟩
    refine Or.inr ?_
    cases selected : (action.selectBlock ask s).1 with
    | none =>
      exact Or.inl ⟨action, rfl, embedded, selected,
        leaf_step_gap leaf c ask looping inGap dt s action present embedded selected⟩
    | some choice =>
      obtain ⟨block, named⟩ := Option.isSome_iff_exists.mp (selectBlock_isSome action ask s choice selected)
      exact Or.inr ⟨action, choice, block, rfl, embedded, selected, named,
        leaf_step_frames leaf c ask looping inGap dt s action choice block present embedded selected named⟩

/-! ## Sequences -/

section Sequences

variable (c : Catalog) (ask : Predicate → StateM σ Bool) (leaves : List Nat) (looping : Bool)
  (passes position : Nat) (leaf : LeafCursor) (inGap : Bool) (dt : Float32) (s : σ)

/-- The step of the leaf that is current in a pass. -/
def sequenceLeafStep : LeafStep × σ :=
  leaf.step c ask (c.childLoops leaf.action) inGap dt s

/-- A leaf that is not over ends the advance. -/
theorem stepSequence_playing
    (playing : (sequenceLeafStep c ask leaf inGap dt s).1.result ≠ .done) :
    c.stepSequence ask leaves looping (passes + 1) position leaf inGap dt s =
      let step := sequenceLeafStep c ask leaf inGap dt s
      ({ result := .playing, position, leaf := step.1.leaf, inGap := step.1.inGap,
         events := step.1.events }, step.2) := by
  rw [Catalog.stepSequence, stateM_bind_apply]
  rw [sequenceLeafStep] at playing
  rw [if_neg playing]
  rfl

/-- A leaf that is over makes room for the next one, with no time left. -/
theorem stepSequence_next (child : Nat)
    (finished : (sequenceLeafStep c ask leaf inGap dt s).1.result = .done)
    (following : leaves[position + 1]? = some child) :
    c.stepSequence ask leaves looping (passes + 1) position leaf inGap dt s =
      let step := sequenceLeafStep c ask leaf inGap dt s
      let rest := c.stepSequence ask leaves looping passes (position + 1) { action := child }
        step.1.inGap 0.0 step.2
      ({ rest.1 with events := step.1.events ++ rest.1.events }, rest.2) := by
  rw [Catalog.stepSequence, stateM_bind_apply]
  rw [sequenceLeafStep] at finished
  rw [if_pos finished]
  simp only [following]
  rfl

/-- After the last leaf a looping sequence enters its first leaf and stops there. -/
theorem stepSequence_lap (first : Nat)
    (finished : (sequenceLeafStep c ask leaf inGap dt s).1.result = .done)
    (last : leaves[position + 1]? = none) (head : leaves.head? = some first) (loops : looping = true) :
    c.stepSequence ask leaves looping (passes + 1) position leaf inGap dt s =
      let step := sequenceLeafStep c ask leaf inGap dt s
      let lap := LeafCursor.step { action := first } c ask false step.1.inGap 0.0 step.2
      ({ result := .completedLooping, position := 0, leaf := lap.1.leaf, inGap := lap.1.inGap,
         events := step.1.events ++ lap.1.events }, lap.2) := by
  subst loops
  rw [Catalog.stepSequence, stateM_bind_apply]
  rw [sequenceLeafStep] at finished
  rw [if_pos finished]
  simp only [last, head]
  rfl

/-- After its last leaf any other sequence is over. -/
theorem stepSequence_terminal
    (finished : (sequenceLeafStep c ask leaf inGap dt s).1.result = .done)
    (last : leaves[position + 1]? = none) (ends : looping = true → leaves.head? = none) :
    c.stepSequence ask leaves looping (passes + 1) position leaf inGap dt s =
      let step := sequenceLeafStep c ask leaf inGap dt s
      ({ result := .completedTerminal, position := position + 1, leaf := step.1.leaf,
         inGap := step.1.inGap, events := step.1.events }, step.2) := by
  rw [Catalog.stepSequence, stateM_bind_apply]
  rw [sequenceLeafStep] at finished
  rw [if_pos finished]
  simp only [last]
  cases looping with
  | false => rfl
  | true =>
    simp only [ends rfl]
    rfl

end Sequences

/-! ## The player -/

section Players

variable (p : Player) (c : Catalog) (action : Action) (ask : Predicate → StateM σ Bool) (dt : Float32) (s : σ)

/-- All that an advance can do, down to what the place in the action decides. -/
theorem advance_cases :
    ((p.action = none ∨ p.finished = true) ∧
      p.advance c ask dt s = ((.completedTerminal, {}, p), s)) ∨
    (∃ index, p.action = some index ∧ p.finished = false ∧ c.action? index = none ∧
      p.advance c ask dt s = ((.completedTerminal, {}, { p with finished := true }), s)) ∨
    (∃ index action, p.action = some index ∧ p.finished = false ∧ c.action? index = some action ∧
      p.advance c ask dt s = p.advanceAction c action ask dt s) := by
  cases started : p.action with
  | none =>
    refine Or.inl ⟨Or.inl rfl, ?_⟩
    rw [Player.advance, started]
    rfl
  | some index =>
    cases finished : p.finished with
    | true =>
      refine Or.inl ⟨Or.inr rfl, ?_⟩
      rw [Player.advance, started]
      simp only [finished, ↓reduceIte]
      rfl
    | false =>
      refine Or.inr ?_
      cases found : c.action? index with
      | none =>
        refine Or.inl ⟨index, rfl, rfl, found, ?_⟩
        rw [Player.advance, started]
        simp only [finished, Bool.false_eq_true, ↓reduceIte, found]
        rfl
      | some action =>
        refine Or.inr ⟨index, action, rfl, rfl, found, ?_⟩
        rw [Player.advance, started]
        simp only [finished, Bool.false_eq_true, ↓reduceIte, found]

/-- An action that is over stays over. -/
theorem advance_over (ended : p.finished = true) : p.advance c ask dt s = ((.completedTerminal, {}, p), s) := by
  rcases advance_cases p c ask dt s with ⟨_, same⟩ | ⟨_, _, going, _⟩ | ⟨_, _, _, going, _⟩
  · exact same
  · rw [ended] at going
    cases going
  · rw [ended] at going
    cases going

theorem advance_going {index : Nat} (started : p.action = some index) (going : p.finished = false)
    (found : c.action? index = some action) : p.advance c ask dt s = p.advanceAction c action ask dt s := by
  rw [Player.advance, started]
  simp only [going, Bool.false_eq_true, ↓reduceIte, found]

theorem advanceAction_stopped (stopped : p.cursor = .stopped) :
    p.advanceAction c action ask dt s =
      ((.completedTerminal, {}, { p with elapsed := p.elapsed + dt, finished := true }), s) := by
  rw [Player.advanceAction]
  simp only [stopped]
  rfl

theorem advanceAction_single (leaf : LeafCursor) (placed : p.cursor = .single leaf) :
    p.advanceAction c action ask dt s =
      let step := leaf.step c ask action.looping p.inGap dt s
      let result := step.1.result.toPlayResult
      let after : Player :=
        { p with elapsed := p.elapsed + dt, cursor := .single step.1.leaf, inGap := step.1.inGap }
      let capped := (after.finishIf result).applyCap action.duration result
      ((capped.1, step.1.events, capped.2), step.2) := by
  rw [Player.advanceAction]
  simp only [placed]
  rfl

theorem advanceAction_sequence (leaves : List Nat) (position : Nat) (leaf : LeafCursor)
    (placed : p.cursor = .sequence leaves position leaf) :
    p.advanceAction c action ask dt s =
      let step := c.stepSequence ask leaves action.looping (leaves.length + 1) position leaf p.inGap dt s
      let after : Player :=
        { p with
          elapsed := p.elapsed + dt
          cursor := .sequence leaves step.1.position step.1.leaf
          inGap := step.1.inGap }
      let capped := (after.finishIf step.1.result).applyCap action.duration step.1.result
      ((capped.1, step.1.events, capped.2), step.2) := by
  rw [Player.advanceAction]
  simp only [placed]
  rfl

end Players

/-! ## The end of an advance -/

section Concluding

variable (p : Player) (cap : Option Float32) (result : PlayResult)

/-- Concluding an advance changes whether the action is over, and nothing else. If it was not over before, the answer
says whether it is. -/
theorem conclude_spec :
    let concluded := (p.finishIf result).applyCap cap result
    concluded.2 = { p with finished := concluded.2.finished } ∧
      (concluded.2.finished = true ↔
        p.finished = true ∨ result = .completedTerminal ∨ cap.any (· ≤ p.elapsed) = true) ∧
      (p.finished = false → (concluded.1 = .completedTerminal ↔ concluded.2.finished = true)) := by
  obtain ⟨action, cursor, elapsed, finished, inGap⟩ := p
  unfold Player.finishIf Player.applyCap
  by_cases terminal : result = .completedTerminal
  · simp [terminal]
  · by_cases capped : cap.any (· ≤ elapsed) = true
    · cases finished <;> simp [terminal, capped]
    · simp [terminal, capped]

theorem conclude_action : ((p.finishIf result).applyCap cap result).2.action = p.action := by
  rw [(conclude_spec p cap result).1]

theorem conclude_cursor : ((p.finishIf result).applyCap cap result).2.cursor = p.cursor := by
  rw [(conclude_spec p cap result).1]

theorem conclude_finished (going : p.finished = false)
    (finished : ((p.finishIf result).applyCap cap result).2.finished = true) :
    ((p.finishIf result).applyCap cap result).1 = .completedTerminal :=
  ((conclude_spec p cap result).2.2 going).mpr finished

/-- An action that is not over answers what its frames came to. -/
theorem conclude_result (going : ((p.finishIf result).applyCap cap result).2.finished = false) :
    ((p.finishIf result).applyCap cap result).1 = result := by
  rw [Player.applyCap] at going ⊢
  split at going
  next capped => cases going
  next uncapped => rw [if_neg uncapped]

end Concluding

/-! ## The action of a player -/

theorem start_action (action : Nat) (c : Catalog) : (Player.start action c).action = some action := by
  unfold Player.start
  split
  · rfl
  · split
    · split
      · rfl
      · rfl
    · rfl

/-- An action that is no sequence starts at its own frames. -/
theorem start_single {c : Catalog} {index : Nat} {action : Action} (found : c.action? index = some action)
    (plain : action.kind ≠ .sequence) :
    Player.start index c = { action := some index, cursor := .single { action := index } } := by
  rw [Player.start, found]
  simp only [plain, ↓reduceIte]

/-- An advance keeps to the action. -/
theorem advance_action {σ : Type} (p : Player) (c : Catalog) (ask : Predicate → StateM σ Bool) (dt : Float32)
    (s : σ) : (p.advance c ask dt s).1.2.2.action = p.action := by
  rcases advance_cases p c ask dt s with ⟨_, same⟩ | ⟨_, _, _, _, same⟩ | ⟨_, action, _, _, _, same⟩
  · rw [same]
  · rw [same]
  · rw [same]
    cases placed : p.cursor with
    | stopped => rw [advanceAction_stopped p c action ask dt s placed]
    | single leaf =>
      rw [advanceAction_single p c action ask dt s leaf placed]
      exact conclude_action _ _ _
    | sequence leaves position leaf =>
      rw [advanceAction_sequence p c action ask dt s leaves position leaf placed]
      exact conclude_action _ _ _

end DesktopPet
