import DesktopPet.Proofs.Catalog.WellFormed
import DesktopPet.Proofs.Playback.Step

/-!
# The frame on show

Whatever is done with a player, the block it names is a block of the leaf that plays and the frame it
names is a frame of that block, unless the block has none. The invariant is `Player.Valid`, which holds for any
catalog; `Player.Step` is one operation, and an advance may use any callback with any state of its own.
-/

namespace DesktopPet

open Condition (Predicate)

/-- The leaf's block is a block of its action, and its frame is one of the block's frames, if it has any. -/
def LeafCursor.Valid (c : Catalog) (leaf : LeafCursor) : Prop :=
  ∀ choice, leaf.block = some choice → ∃ action block,
    c.action? leaf.action = some action ∧ action.block? choice = some block ∧
      (block.frames ≠ [] → leaf.frame < block.frames.length)

/-- The leaf that plays is valid, and as long as a sequence goes on it is the leaf at its position. -/
structure Player.Valid (c : Catalog) (p : Player) : Prop where
  leaf : ∀ leaf, p.leaf? = some leaf → leaf.Valid c
  position : ∀ leaves position leaf, p.cursor = .sequence leaves position leaf → p.finished = false →
    leaves[position]? = some leaf.action

/-- One operation on a player. -/
inductive Player.Step (c : Catalog) : Player → Player → Prop where
  | start {p : Player} (action : Nat) : Step c p (Player.start action c)
  | stop {p : Player} : Step c p Player.stop
  | advance {σ : Type} {p : Player} (ask : Predicate → StateM σ Bool) (s : σ) (dt : Float32) :
      Step c p (p.advance c ask dt s).1.2.2

/-- Players that operations lead to from the player that was just made. -/
def Player.Reachable (c : Catalog) (p : Player) : Prop :=
  Relation.ReflTransGen (Player.Step c) {} p

variable {σ : Type} {c : Catalog}

/-! ## One leaf -/

theorem fresh_leaf_valid (action : Nat) : LeafCursor.Valid c { action } := by
  intro choice chosen
  cases chosen

theorem frames_of_action {action : Action} {index : Nat} {choice : BlockRef} {block : Block}
    (present : c.FramesPresent) (found : c.action? index = some action)
    (named : action.block? choice = some block) : block.frames ≠ [] :=
  present action (List.mem_of_getElem? found) block ((mem_allBlocks_iff action block).mpr ⟨choice, named⟩)

/-- The catch-up loop ends on a frame of the block. -/
theorem passFrames_frame_lt (frames : List Frame) (looping : Bool) (steps : Nat) (result : LeafResult)
    (i : Fin frames.length) (timer : Float32) :
    (passFrames frames looping steps result i timer).2.1 < frames.length := by
  induction steps generalizing result i timer with
  | zero => exact i.isLt
  | succ steps ih =>
    rw [passFrames]
    split
    · split
      · exact ih _ _ _
      · split
        · exact ih _ _ _
        · exact i.isLt
    · exact i.isLt

theorem playFrames_frame_lt (leaf : LeafCursor) (frames : List Frame) (cap : Option Float32)
    (looping : Bool) (dt : Float32) (inside : leaf.frame < frames.length) :
    (leaf.playFrames frames cap looping dt).leaf.frame < frames.length := by
  rw [LeafCursor.playFrames, dif_pos inside]
  exact passFrames_frame_lt frames looping maxFrameSteps .playing ⟨leaf.frame, inside⟩ _

@[simp] theorem playFrames_action (leaf : LeafCursor) (frames : List Frame) (cap : Option Float32)
    (looping : Bool) (dt : Float32) : (leaf.playFrames frames cap looping dt).leaf.action = leaf.action := by
  rw [LeafCursor.playFrames]
  split <;> rfl

@[simp] theorem playFrames_block (leaf : LeafCursor) (frames : List Frame) (cap : Option Float32)
    (looping : Bool) (dt : Float32) : (leaf.playFrames frames cap looping dt).leaf.block = leaf.block := by
  rw [LeafCursor.playFrames]
  split <;> rfl

@[simp] theorem turnTo_action (leaf : LeafCursor) (choice : BlockRef) :
    (leaf.turnTo choice).action = leaf.action := by
  rw [LeafCursor.turnTo]
  split <;> rfl

@[simp] theorem turnTo_block (leaf : LeafCursor) (choice : BlockRef) :
    (leaf.turnTo choice).block = some choice := by
  rw [LeafCursor.turnTo]
  split
  · assumption
  · rfl

/-- A change of block goes back to the first frame, so no frame index outlives its block. -/
theorem LeafCursor.Valid.turnTo {leaf : LeafCursor} (valid : leaf.Valid c) {action : Action} {choice : BlockRef}
    {block : Block} (found : c.action? leaf.action = some action) (named : action.block? choice = some block)
    (nonempty : block.frames ≠ []) : (leaf.turnTo choice).frame < block.frames.length := by
  rw [LeafCursor.turnTo]
  split
  next kept =>
    obtain ⟨action', block', found', named', inside⟩ := valid choice kept
    cases found.symm.trans found'
    cases named.symm.trans named'
    exact inside nonempty
  · exact List.length_pos_iff.mpr nonempty

theorem leaf_step_action (leaf : LeafCursor) (c : Catalog) (ask : Predicate → StateM σ Bool)
    (looping inGap : Bool) (dt : Float32) (s : σ) :
    (leaf.step c ask looping inGap dt s).1.leaf.action = leaf.action := by
  rcases leaf_step_cases leaf c ask looping inGap dt s with
    ⟨_, step⟩ | ⟨_, _, _, step⟩ | ⟨_, _, _, _, step⟩ | ⟨_, _, _, _, _, _, _, step⟩ <;> simp [step]

theorem LeafCursor.Valid.step {leaf : LeafCursor} (valid : leaf.Valid c) (ask : Predicate → StateM σ Bool)
    (looping inGap : Bool) (dt : Float32) (s : σ) : (leaf.step c ask looping inGap dt s).1.leaf.Valid c := by
  rcases leaf_step_cases leaf c ask looping inGap dt s with
    ⟨_, step⟩ | ⟨_, _, _, step⟩ | ⟨_, _, _, _, step⟩ | ⟨action, choice, block, found, _, _, named, step⟩
  · rw [step]
    exact valid
  · rw [step]
    exact valid
  · rw [step]
    exact valid
  · simp only [step]
    intro chosen same
    rw [playFrames_block, turnTo_block] at same
    cases Option.some.inj same
    refine ⟨action, block, by simpa using found, named, fun nonempty => ?_⟩
    exact playFrames_frame_lt _ _ _ looping dt (valid.turnTo found named nonempty)

/-! ## A sequence -/

/-- A sequence step leaves a valid leaf, and one that does not end the sequence stands at its
position. The induction is on the passes that are left. -/
theorem stepSequence_valid (ask : Predicate → StateM σ Bool) (leaves : List Nat) (looping : Bool)
    (passes position : Nat) (leaf : LeafCursor) (inGap : Bool) (dt : Float32) (s : σ)
    (valid : leaf.Valid c) (placed : leaves[position]? = some leaf.action) :
    let step := (c.stepSequence ask leaves looping passes position leaf inGap dt s).1
    step.leaf.Valid c ∧ (step.result ≠ .completedTerminal → leaves[step.position]? = some step.leaf.action) := by
  induction passes generalizing position leaf inGap dt s with
  | zero =>
    rw [Catalog.stepSequence]
    exact ⟨valid, fun _ => placed⟩
  | succ passes ih =>
    have stepped : (sequenceLeafStep c ask leaf inGap dt s).1.leaf.Valid c :=
      valid.step ask _ inGap dt s
    have kept : (sequenceLeafStep c ask leaf inGap dt s).1.leaf.action = leaf.action :=
      leaf_step_action leaf c ask _ inGap dt s
    by_cases finished : (sequenceLeafStep c ask leaf inGap dt s).1.result = .done
    · cases following : leaves[position + 1]? with
      | some child =>
        rw [stepSequence_next c ask leaves looping passes position leaf inGap dt s child finished following]
        exact ih (position + 1) { action := child } _ _ _ (fresh_leaf_valid child) following
      | none =>
        cases head : leaves.head? with
        | none =>
          rw [stepSequence_terminal c ask leaves looping passes position leaf inGap dt s finished following
            (fun _ => head)]
          exact ⟨stepped, fun going => absurd rfl going⟩
        | some first =>
          cases looping with
          | false =>
            rw [stepSequence_terminal c ask leaves false passes position leaf inGap dt s finished following
              (fun loops => absurd loops Bool.false_ne_true)]
            exact ⟨stepped, fun going => absurd rfl going⟩
          | true =>
            rw [stepSequence_lap c ask leaves true passes position leaf inGap dt s first finished following
              head rfl]
            refine ⟨(fresh_leaf_valid first).step ask _ _ _ _, fun _ => ?_⟩
            simp only [leaf_step_action]
            rw [← head, List.head?_eq_getElem?]
    · rw [stepSequence_playing c ask leaves looping passes position leaf inGap dt s finished]
      refine ⟨stepped, fun _ => ?_⟩
      simp only [kept]
      exact placed

/-! ## The player -/

/-- A player that stands nowhere shows nothing. -/
theorem stopped_valid (p : Player) (stopped : p.cursor = .stopped) : p.Valid c := by
  constructor
  · intro leaf playing
    rw [Player.leaf?, stopped] at playing
    cases playing
  · intro leaves position leaf placed
    rw [stopped] at placed
    cases placed

theorem start_valid (action : Nat) : (Player.start action c).Valid c := by
  rw [Player.start]
  split
  · exact stopped_valid _ rfl
  · split
    · split
      · exact stopped_valid _ rfl
      next first others _ =>
        refine ⟨?_, ?_⟩
        · intro leaf playing
          cases Option.some.inj playing
          exact fresh_leaf_valid first
        · intro leaves position leaf placed _
          cases placed
          rfl
    · constructor
      · intro leaf playing
        cases Option.some.inj playing
        exact fresh_leaf_valid action
      · intro leaves position leaf placed
        cases placed

/-- A place with a valid leaf stays valid when the advance is concluded; a sequence has to stand at its
position only if the advance did not end it. -/
theorem conclude_valid (after : Player) (cap : Option Float32) (result : PlayResult)
    (leaf : ∀ leaf, after.leaf? = some leaf → leaf.Valid c)
    (position : ∀ leaves position leaf, after.cursor = .sequence leaves position leaf →
      result ≠ .completedTerminal → leaves[position]? = some leaf.action) :
    Player.Valid c ((after.finishIf result).applyCap cap result).2 := by
  have place := conclude_cursor after cap result
  refine ⟨?_, ?_⟩
  · intro shown playing
    rw [Player.leaf?, place] at playing
    exact leaf shown playing
  · intro leaves there shown stands unfinished
    rw [place] at stands
    refine position leaves there shown stands fun terminal => ?_
    rw [(conclude_spec after cap result).2.1.mpr (Or.inr (Or.inl terminal))] at unfinished
    cases unfinished

/-- An advance keeps the invariant; its leaf and its position come out of one step of the cursor. -/
theorem Player.Valid.advance {p : Player} (valid : p.Valid c) (ask : Predicate → StateM σ Bool) (dt : Float32) (s : σ) :
    (p.advance c ask dt s).1.2.2.Valid c := by
  rcases advance_cases p c ask dt s with ⟨_, same⟩ | ⟨_, _, _, _, same⟩ | ⟨_, action, _, going, _, same⟩
  · rw [same]
    exact valid
  · rw [same]
    exact ⟨valid.leaf, fun _ _ _ _ unfinished => (nomatch unfinished)⟩
  · rw [same]
    cases placed : p.cursor with
    | stopped =>
      rw [advanceAction_stopped p c action ask dt s placed]
      exact ⟨valid.leaf, fun _ _ _ _ unfinished => (nomatch unfinished)⟩
    | single leaf =>
      have stepped := (valid.leaf leaf (by simp [Player.leaf?, placed])).step ask action.looping p.inGap dt s
      rw [advanceAction_single p c action ask dt s leaf placed]
      apply conclude_valid
      · intro shown playing
        cases Option.some.inj playing
        exact stepped
      · intro leaves position shown there
        cases there
    | sequence leaves position leaf =>
      obtain ⟨stepped, there⟩ := stepSequence_valid ask leaves action.looping (leaves.length + 1) position
        leaf p.inGap dt s (valid.leaf leaf (by simp [Player.leaf?, placed]))
        (valid.position leaves position leaf placed going)
      rw [advanceAction_sequence p c action ask dt s leaves position leaf placed]
      apply conclude_valid
      · intro shown playing
        cases Option.some.inj playing
        exact stepped
      · intro others place shown same unfinished
        cases same
        exact there unfinished

theorem Player.Valid.step {p q : Player} (valid : p.Valid c) (step : Player.Step c p q) : q.Valid c := by
  cases step with
  | start action => exact start_valid action
  | stop => exact stopped_valid _ rfl
  | advance ask s dt => exact valid.advance ask dt s

/-- Every player that operations lead to is valid; the catalog may be any. -/
theorem reachable_valid {p : Player} (reached : Player.Reachable c p) : p.Valid c := by
  induction reached with
  | refl => exact stopped_valid _ rfl
  | tail _ step valid => exact valid.step step

end DesktopPet
