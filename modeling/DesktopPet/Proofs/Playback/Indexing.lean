import DesktopPet.Proofs.Playback.Frames

/-!
# Playback by plain indices

`advance` carries its indices with their bounds. The definitions here look every frame and every leaf
up by a bare number and have no answer as soon as one of them is not there. On every player that
operations lead to both agree, so no look-up of an advance ever misses
(`advanceIndexed_eq`, `playback_frames_valid`).
-/

namespace DesktopPet

open Condition (Predicate)

variable {σ : Type}

/-- The catch-up loop with its frames looked up by number. -/
def passFramesIndexed? (frames : List Frame) (looping : Bool) :
    Nat → LeafResult → Nat → Float32 → Option (LeafResult × Nat × Float32 × PlayEvents)
  | 0, result, i, timer => do
    let current ← frames[i]?
    return (result, i, if current.duration ≤ timer then 0.0 else timer, {})
  | steps + 1, result, i, timer => do
    let current ← frames[i]?
    if current.duration ≤ timer then
      let timer := timer - current.duration
      if i + 1 < frames.length then
        let entered ← frames[i + 1]?
        let (result, j, timer, events) ← passFramesIndexed? frames looping steps result (i + 1) timer
        return (result, j, timer, entered.enter ++ events)
      else if looping then
        let entered ← frames[0]?
        let (result, j, timer, events) ← passFramesIndexed? frames looping steps .wrapped 0 timer
        return (result, j, timer, entered.enter ++ events)
      else return (.done, i, 0.0, {})
    else return (result, i, timer, {})

/-- The frames of a selected block, entered at the frame number of the leaf whatever it is. -/
def LeafCursor.playFramesIndexed? (leaf : LeafCursor) (frames : List Frame) (cap : Option Float32)
    (looping : Bool) (dt : Float32) : Option LeafStep :=
  if frames.isEmpty then some { result := .done, leaf, inGap := false }
  else do
    let entering ← if leaf.entered then pure {} else (frames[leaf.frame]?).map Frame.enter
    let elapsed := leaf.elapsed + dt
    let (result, frame, timer, events) ←
      passFramesIndexed? frames looping maxFrameSteps .playing leaf.frame (leaf.timer + dt)
    return { result := if cap.any (· ≤ elapsed) then .done else result
             leaf := { leaf with frame, timer, elapsed, entered := true }
             inGap := false
             events := entering ++ events }

/-- A computation that always answers, among those that may not. -/
def answering {α : Type} (step : StateM σ α) : StateT σ Option α :=
  fun s => some (step s)

/-- One leaf. -/
def LeafCursor.stepIndexed? (leaf : LeafCursor) (c : Catalog) (ask : Predicate → StateM σ Bool)
    (looping inGap : Bool) (dt : Float32) : StateT σ Option LeafStep := do
  match c.action? leaf.action with
  | none => pure { result := .done, leaf, inGap }
  | some action =>
    if action.kind = .embedded then
      pure { result := .done
             leaf := { leaf with entered := true }
             inGap
             events := if leaf.entered then {} else { embedded := [leaf.action] } }
    else
      match ← answering (action.selectBlock ask) with
      | none => pure { result := .playing, leaf := { leaf with elapsed := leaf.elapsed + dt }, inGap := true }
      | some choice =>
        let leaf := leaf.turnTo choice
        match action.block? choice with
        | none => pure { result := .done, leaf, inGap := false }
        | some block => fun s => (leaf.playFramesIndexed? block.frames action.duration looping dt).map (·, s)

/-- A sequence, with its leaves looked up by position. -/
def Catalog.stepSequenceIndexed? (c : Catalog) (ask : Predicate → StateM σ Bool) (leaves : List Nat)
    (looping : Bool) : Nat → Nat → LeafCursor → Bool → Float32 → StateT σ Option SequenceStep
  | 0, position, leaf, inGap, _ => pure { result := .playing, position, leaf, inGap, events := {} }
  | passes + 1, position, leaf, inGap, dt => do
    let step ← leaf.stepIndexed? c ask (c.childLoops leaf.action) inGap dt
    if step.result = .done then
      if leaves.length ≤ position + 1 then
        if looping then
          match leaves[0]? with
          | none => fun _ => none
          | some first =>
            let lap ← LeafCursor.stepIndexed? { action := first } c ask false step.inGap 0.0
            pure { result := .completedLooping, position := 0, leaf := lap.leaf, inGap := lap.inGap,
                   events := step.events ++ lap.events }
        else
          pure { result := .completedTerminal, position := position + 1, leaf := step.leaf,
                 inGap := step.inGap, events := step.events }
      else
        match leaves[position + 1]? with
        | none => fun _ => none
        | some child =>
          let rest ← c.stepSequenceIndexed? ask leaves looping passes (position + 1) { action := child }
            step.inGap 0.0
          pure { rest with events := step.events ++ rest.events }
    else
      pure { result := .playing, position, leaf := step.leaf, inGap := step.inGap, events := step.events }

/-- One advance of an action that is there and not over. -/
def Player.advanceActionIndexed? (p : Player) (c : Catalog) (action : Action)
    (ask : Predicate → StateM σ Bool) (dt : Float32) : StateT σ Option (PlayResult × PlayEvents × Player) := do
  let p := { p with elapsed := p.elapsed + dt }
  match p.cursor with
  | .stopped => pure (.completedTerminal, {}, { p with finished := true })
  | .single leaf =>
    let step ← leaf.stepIndexed? c ask action.looping p.inGap dt
    let result := step.result.toPlayResult
    let p := { p with cursor := .single step.leaf, inGap := step.inGap }
    let (result, p) := (p.finishIf result).applyCap action.duration result
    pure (result, step.events, p)
  | .sequence leaves position leaf =>
    let step ← c.stepSequenceIndexed? ask leaves action.looping (leaves.length + 1) position leaf p.inGap dt
    let p := { p with cursor := .sequence leaves step.position step.leaf, inGap := step.inGap }
    let (result, p) := (p.finishIf step.result).applyCap action.duration step.result
    pure (result, step.events, p)

/-- One advance. -/
def Player.advanceIndexed? (p : Player) (c : Catalog) (ask : Predicate → StateM σ Bool) (dt : Float32) :
    StateT σ Option (PlayResult × PlayEvents × Player) :=
  match p.action with
  | none => pure (.completedTerminal, {}, p)
  | some index =>
    if p.finished then pure (.completedTerminal, {}, p)
    else
      match c.action? index with
      | none => pure (.completedTerminal, {}, { p with finished := true })
      | some action => p.advanceActionIndexed? c action ask dt

/-! ## Agreement with the running definitions -/

private theorem answering_bind_apply {α β : Type} (step : StateM σ α) (next : α → StateT σ Option β) (s : σ) :
    (answering step >>= next) s = next (step s).1 (step s).2 := rfl

private theorem stateT_bind_apply {α β : Type} (step : StateT σ Option α) (next : α → StateT σ Option β) (s : σ)
    (a : α × σ) (answer : step s = some a) : (step >>= next) s = next a.1 a.2 := by
  change (step s).bind (fun a => next a.1 a.2) = next a.1 a.2
  rw [answer]
  rfl

private theorem stateT_pure_apply {α : Type} (a : α) (s : σ) : (pure a : StateT σ Option α) s = some (a, s) := rfl

/-- From a frame of the block the catch-up loop only looks up frames of the block. -/
theorem passFramesIndexed_eq (frames : List Frame) (looping : Bool) (steps : Nat) (result : LeafResult)
    (i : Fin frames.length) (timer : Float32) :
    passFramesIndexed? frames looping steps result i timer =
      some (passFrames frames looping steps result i timer) := by
  induction steps generalizing result i timer with
  | zero => simp [passFramesIndexed?, passFrames]
  | succ steps ih =>
    rw [passFramesIndexed?, passFrames]
    have here : frames[i.val]? = some frames[i.val] := List.getElem?_eq_getElem i.isLt
    simp only [here, Fin.getElem_fin]
    by_cases due : frames[i.val].duration ≤ timer
    · by_cases more : i.val + 1 < frames.length
      · have rest := ih result ⟨i.val + 1, more⟩ (timer - frames[i.val].duration)
        simp only at rest
        simp [due, more, rest]
      · cases looping with
        | true =>
          have first : 0 < frames.length := Nat.zero_lt_of_lt i.isLt
          have rest := ih .wrapped ⟨0, first⟩ (timer - frames[i.val].duration)
          simp only at rest
          simp [due, more, rest, first]
        | false => simp [due, more]
    · simp [due]

theorem playFramesIndexed_eq (leaf : LeafCursor) (frames : List Frame) (cap : Option Float32)
    (looping : Bool) (dt : Float32) (inside : leaf.frame < frames.length) :
    leaf.playFramesIndexed? frames cap looping dt = some (leaf.playFrames frames cap looping dt) := by
  have present : frames.isEmpty = false := by
    cases frames with
    | nil => exact absurd inside (Nat.not_lt_zero _)
    | cons _ _ => rfl
  have passed := passFramesIndexed_eq frames looping maxFrameSteps .playing ⟨leaf.frame, inside⟩ (leaf.timer + dt)
  simp only at passed
  rw [LeafCursor.playFramesIndexed?, LeafCursor.playFrames, dif_pos inside]
  simp only [present, Bool.false_eq_true, ↓reduceIte, passed]
  cases entered : leaf.entered with
  | true => rfl
  | false =>
    simp only [List.getElem?_eq_getElem inside]
    rfl

/-- A valid leaf of a catalog with frames looks up no frame outside its block. -/
theorem leaf_stepIndexed_eq {c : Catalog} (leaf : LeafCursor) (ask : Predicate → StateM σ Bool)
    (looping inGap : Bool) (dt : Float32) (s : σ) (present : c.FramesPresent) (valid : leaf.Valid c) :
    leaf.stepIndexed? c ask looping inGap dt s = some (leaf.step c ask looping inGap dt s) := by
  rw [LeafCursor.stepIndexed?]
  rcases leaf_step_cases leaf c ask looping inGap dt s with ⟨missing, step⟩ | ⟨action, found, embedded, step⟩ |
    ⟨action, found, framed, gap, step⟩ | ⟨action, choice, block, found, framed, selected, named, step⟩
  · rw [step]
    simp only [missing]
    rfl
  · rw [step]
    simp only [found, embedded, ↓reduceIte]
    rfl
  · rw [step]
    simp only [found, framed, ↓reduceIte]
    rw [answering_bind_apply, gap]
    rfl
  · have inside := valid.turnTo found named (frames_of_action present found named)
    rw [step]
    simp only [found, framed, ↓reduceIte]
    rw [answering_bind_apply, selected]
    simp only [named]
    rw [playFramesIndexed_eq _ _ _ _ _ inside]
    rfl

/-- A sequence at the position of its leaf looks up no leaf beyond its list. -/
theorem stepSequenceIndexed_eq {c : Catalog} (ask : Predicate → StateM σ Bool) (leaves : List Nat)
    (looping : Bool) (passes position : Nat) (leaf : LeafCursor) (inGap : Bool) (dt : Float32) (s : σ)
    (present : c.FramesPresent) (valid : leaf.Valid c) (placed : leaves[position]? = some leaf.action) :
    c.stepSequenceIndexed? ask leaves looping passes position leaf inGap dt s =
      some (c.stepSequence ask leaves looping passes position leaf inGap dt s) := by
  induction passes generalizing position leaf inGap dt s with
  | zero =>
    rw [Catalog.stepSequenceIndexed?, Catalog.stepSequence]
    rfl
  | succ passes ih =>
    have stepped := leaf_stepIndexed_eq leaf ask (c.childLoops leaf.action) inGap dt s present valid
    rw [Catalog.stepSequenceIndexed?, stateT_bind_apply _ _ s _ stepped]
    by_cases finished : (sequenceLeafStep c ask leaf inGap dt s).1.result = .done
    · have finished' := finished
      rw [sequenceLeafStep] at finished'
      simp only [finished', ↓reduceIte]
      by_cases last : leaves.length ≤ position + 1
      · have ended : leaves[position + 1]? = none := List.getElem?_eq_none last
        simp only [last, ↓reduceIte]
        cases looping with
        | false =>
          rw [stepSequence_terminal c ask leaves false passes position leaf inGap dt s finished ended
            (fun loops => absurd loops Bool.false_ne_true)]
          rfl
        | true =>
          have nonempty : 0 < leaves.length :=
            Nat.lt_of_le_of_lt (Nat.zero_le position) (List.getElem?_eq_some_iff.mp placed).1
          have head : leaves.head? = some leaves[0] := by
            rw [List.head?_eq_getElem?, List.getElem?_eq_getElem nonempty]
          have lap := leaf_stepIndexed_eq { action := leaves[0] } ask false
            (sequenceLeafStep c ask leaf inGap dt s).1.inGap 0.0
            (sequenceLeafStep c ask leaf inGap dt s).2 present (fresh_leaf_valid leaves[0])
          rw [stepSequence_lap c ask leaves true passes position leaf inGap dt s leaves[0] finished ended head rfl]
          rw [sequenceLeafStep] at lap
          simp only [List.getElem?_eq_getElem nonempty, ↓reduceIte]
          rw [stateT_bind_apply _ _ _ _ lap]
          rfl
      · have inside : position + 1 < leaves.length := Nat.lt_of_not_le last
        have following : leaves[position + 1]? = some leaves[position + 1] :=
          List.getElem?_eq_getElem inside
        have rest := ih (position + 1) { action := leaves[position + 1] }
          (sequenceLeafStep c ask leaf inGap dt s).1.inGap 0.0
          (sequenceLeafStep c ask leaf inGap dt s).2 (fresh_leaf_valid _) following
        rw [stepSequence_next c ask leaves looping passes position leaf inGap dt s _ finished following]
        rw [sequenceLeafStep] at rest
        simp only [last, ↓reduceIte, following]
        rw [stateT_bind_apply _ _ _ _ rest]
        rfl
    · rw [stepSequence_playing c ask leaves looping passes position leaf inGap dt s finished]
      rw [sequenceLeafStep] at finished
      simp only [finished, ↓reduceIte]
      rfl

theorem advanceActionIndexed_eq {c : Catalog} (p : Player) (action : Action) (ask : Predicate → StateM σ Bool)
    (dt : Float32) (s : σ) (present : c.FramesPresent) (valid : p.Valid c) (going : p.finished = false) :
    p.advanceActionIndexed? c action ask dt s = some (p.advanceAction c action ask dt s) := by
  rw [Player.advanceActionIndexed?]
  cases placed : p.cursor with
  | stopped =>
    rw [advanceAction_stopped p c action ask dt s placed]
    simp only [stateT_pure_apply, placed]
  | single leaf =>
    have stepped := leaf_stepIndexed_eq leaf ask action.looping p.inGap dt s present
      (valid.leaf leaf (by simp [Player.leaf?, placed]))
    rw [advanceAction_single p c action ask dt s leaf placed]
    simp only
    rw [stateT_bind_apply _ _ s _ stepped]
    rfl
  | sequence leaves position leaf =>
    have stepped := stepSequenceIndexed_eq ask leaves action.looping (leaves.length + 1) position leaf
      p.inGap dt s present (valid.leaf leaf (by simp [Player.leaf?, placed]))
      (valid.position leaves position leaf placed going)
    rw [advanceAction_sequence p c action ask dt s leaves position leaf placed]
    simp only
    rw [stateT_bind_apply _ _ s _ stepped]
    rfl

/-- On a valid player no look-up of an advance misses. -/
theorem advanceIndexed_eq {c : Catalog} (p : Player) (ask : Predicate → StateM σ Bool) (dt : Float32) (s : σ)
    (present : c.FramesPresent) (valid : p.Valid c) :
    p.advanceIndexed? c ask dt s = some (p.advance c ask dt s) := by
  rw [Player.advanceIndexed?, Player.advance]
  cases p.action with
  | none => rfl
  | some index =>
    cases going : p.finished with
    | true => rfl
    | false =>
      cases found : c.action? index with
      | none =>
        simp only [Bool.false_eq_true, ↓reduceIte, found]
        rfl
      | some action =>
        simp only [Bool.false_eq_true, ↓reduceIte, found]
        exact advanceActionIndexed_eq p action ask dt s present valid going

/-! ## Runs -/

/-- After any operations with any callbacks, a block that is named is there, its frame number is one of
its frames and that frame is on show; an unfinished sequence stands at its leaf; and no look-up of a
further advance misses. -/
theorem playback_frames_valid (c : Catalog) (present : c.FramesPresent) (p : Player)
    (reached : Player.Reachable c p) :
    (∀ choice, p.block? = some choice → ∃ action block i, ∃ inside : i < block.frames.length,
      p.leafAction?.bind c.action? = some action ∧ action.block? choice = some block ∧
        p.frameIndex? = some i ∧ p.currentFrame? c = some block.frames[i]) ∧
    (∀ leaves position leaf, p.cursor = .sequence leaves position leaf → p.finished = false →
      ∃ inside : position < leaves.length, leaf.action = leaves[position]) ∧
    (∀ (σ : Type) (ask : Predicate → StateM σ Bool) (dt : Float32) (s : σ),
      p.advanceIndexed? c ask dt s = some (p.advance c ask dt s)) := by
  have valid := reachable_valid reached
  refine ⟨?_, ?_, fun σ ask dt s => advanceIndexed_eq p ask dt s present valid⟩
  · intro choice named
    obtain ⟨leaf, playing, chosen⟩ := Option.bind_eq_some_iff.mp named
    obtain ⟨action, block, found, there, framed⟩ := valid.leaf leaf playing choice chosen
    have inside := framed (frames_of_action present found there)
    refine ⟨action, block, leaf.frame, inside, ?_, there, ?_, ?_⟩
    · simp [Player.leafAction?, playing, found]
    · simp [Player.frameIndex?, playing, chosen, Option.filter]
    · simp [Player.currentFrame?, playing, chosen, found, there, inside]
  · intro leaves position leaf placed going
    obtain ⟨inside, same⟩ := List.getElem?_eq_some_iff.mp (valid.position leaves position leaf placed going)
    exact ⟨inside, same.symm⟩

/-- A sequence of a look around, with a block for one condition and a default block, and a wave. -/
def duet : Catalog :=
  let frame : Frame :=
    { image := none, duration := 0.1, velocity := .zero, anchor := .zero, sound := none, volume := 1.0 }
  let look : Action :=
    { name := "look", kind := .stay, footing := none
      blocks := [{ condition := some (.never "onFloor"), priority := 1, frames := [frame, frame, frame] }]
      defaultBlock := some { condition := none, priority := 0, frames := [frame, frame] }
      references := [], looping := true, draggable := true, duration := some 1.0, embedded := [] }
  let wave : Action := { look with name := "wave", duration := none, looping := false }
  let both : Action :=
    { look with
      name := "both", kind := .sequence, blocks := [], defaultBlock := none, references := [0, 1]
      duration := none }
  { name := "duet", actions := [look, wave, both], behaviors := [], defaultBehavior := 0
    draggedBehavior := none, thrownBehavior := none }

/-- The conditions hold every other time they are asked. -/
def alternating : Predicate → StateM Nat Bool :=
  fun _ asked => (asked % 2 = 0, asked + 1)

/-- The sequence after a long step in its gated block, where the next one finds the condition false. -/
def duetPlayer : Player :=
  (((Player.start 2 duet).advance duet alternating 0.25 0).1.2.2.advance duet alternating 0.05 1).1.2.2

private theorem duetPlayer_reachable : Player.Reachable duet duetPlayer :=
  ((Relation.ReflTransGen.single (.start 2)).tail (.advance alternating 0 0.25)).tail
    (.advance alternating 1 0.05)

theorem playback_frames_valid_duet :
    duet.FramesPresent ∧ Player.Reachable duet duetPlayer ∧ duetPlayer.block? = some .default ∧
      (∃ action block i, ∃ inside : i < block.frames.length,
        duetPlayer.leafAction?.bind duet.action? = some action ∧ action.block? .default = some block ∧
          duetPlayer.frameIndex? = some i ∧ duetPlayer.currentFrame? duet = some block.frames[i]) :=
  ⟨by decide, duetPlayer_reachable, by decide +kernel,
    (playback_frames_valid duet (by decide) duetPlayer duetPlayer_reachable).1 .default (by decide +kernel)⟩

end DesktopPet
