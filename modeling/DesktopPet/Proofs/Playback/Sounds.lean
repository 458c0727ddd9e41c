import DesktopPet.Proofs.Playback.Frames

/-!
# Sounds

The sounds of an advance are those of the frames that it enters, each once for each entry
(`sounds_fire_on_entry`). The frame of a block that is newly selected is entered first; all others are entered in
turn by the catch-up loop, which `passFrames_walks` counts round and round.
-/

namespace DesktopPet

open Condition (Predicate)
open Pack (needsFrames)

/-- The sounds of the frames of these numbers, with their gains. A frame without a sound is silent. -/
def soundsOf (frames : List Frame) (entered : List Nat) : List (String × Float32) :=
  entered.filterMap fun i => frames[i]?.bind fun frame => frame.sound.map fun sound => (sound, frame.volume)

/-- The numbers of the `k` frames after frame `f` of `n` frames that are played round and round. -/
def framesAfter (n f k : Nat) : List Nat :=
  (List.range' (f + 1) k).map (· % n)

@[simp] theorem sounds_append (e f : PlayEvents) : (e ++ f).sounds = e.sounds ++ f.sounds := rfl

private theorem framesAfter_succ (n f k : Nat) : framesAfter n f (k + 1) = (f + 1) % n :: framesAfter n (f + 1) k := by
  rw [framesAfter, List.range'_succ, List.map_cons]
  rfl

private theorem soundsOf_cons {frames : List Frame} {i : Nat} {frame : Frame} (here : frames[i]? = some frame)
    (others : List Nat) : soundsOf frames (i :: others) = frame.enter.sounds ++ soundsOf frames others := by
  rw [soundsOf, List.filterMap_cons, here, Option.bind_some, Frame.enter]
  cases frame.sound with
  | none => rfl
  | some sound => rfl

/-! ## The catch-up loop -/

/-- The loop enters the frames after the one it starts from, one by one and round and round, and stops at the last it
has entered. It starts from entry `f` of a walk that may have gone round before. Without looping it does not get
beyond the last frame. -/
theorem passFrames_walks (frames : List Frame) (looping : Bool) (steps : Nat) (result : LeafResult)
    (i : Fin frames.length) (timer : Float32) (f : Nat) (start : f % frames.length = i.val) :
    ∃ k ≤ steps, (passFrames frames looping steps result i timer).2.1 = (f + k) % frames.length ∧
      (looping = false → i.val + k < frames.length) ∧
      (passFrames frames looping steps result i timer).2.2.2.sounds =
        soundsOf frames (framesAfter frames.length f k) := by
  induction steps generalizing result i timer f with
  | zero => exact ⟨0, Nat.le_refl 0, start.symm, fun _ => i.isLt, rfl⟩
  | succ steps ih =>
    have stays : ∃ k ≤ steps + 1, i.val = (f + k) % frames.length ∧ (looping = false → i.val + k < frames.length) ∧
        [] = soundsOf frames (framesAfter frames.length f k) :=
      ⟨0, Nat.zero_le _, start.symm, fun _ => i.isLt, rfl⟩
    have enters (j : Fin frames.length) (result : LeafResult) (timer : Float32)
        (next : (f + 1) % frames.length = j.val) (onward : looping = false → j.val = i.val + 1) :
        ∃ k ≤ steps + 1, (passFrames frames looping steps result j timer).2.1 = (f + k) % frames.length ∧
          (looping = false → i.val + k < frames.length) ∧
          frames[j].enter.sounds ++ (passFrames frames looping steps result j timer).2.2.2.sounds =
            soundsOf frames (framesAfter frames.length f k) := by
      obtain ⟨k, few, reached, bounded, sounds⟩ := ih result j timer (f + 1) next
      refine ⟨k + 1, by omega, by rw [reached]; congr 1; omega, fun ends => ?_, ?_⟩
      · have inside := bounded ends
        rw [onward ends] at inside
        omega
      · rw [framesAfter_succ, next, soundsOf_cons (List.getElem?_eq_getElem j.isLt), sounds]
        rfl
    rw [passFrames]
    split
    · split
      next more =>
        refine enters ⟨i.val + 1, more⟩ result _ ?_ fun _ => rfl
        rw [← Nat.mod_add_mod, start, Nat.mod_eq_of_lt more]
      next last =>
        split
        next loops =>
          have round : i.val + 1 = frames.length := by omega
          refine enters ⟨0, Nat.zero_lt_of_lt i.isLt⟩ .wrapped _ ?_ fun ends => ?_
          · rw [← Nat.mod_add_mod, start, round, Nat.mod_self]
          · rw [loops] at ends
            cases ends
        · exact stays
    · exact stays

/-- A frame that is on show already is not entered again. -/
theorem playFrames_walks (leaf : LeafCursor) (frames : List Frame) (cap : Option Float32) (looping : Bool)
    (dt : Float32) (inside : leaf.frame < frames.length) :
    ∃ k ≤ maxFrameSteps, (leaf.playFrames frames cap looping dt).leaf.frame = (leaf.frame + k) % frames.length ∧
      (looping = false → leaf.frame + k < frames.length) ∧
      (leaf.playFrames frames cap looping dt).events.sounds =
        soundsOf frames ((if leaf.entered then [] else [leaf.frame]) ++ framesAfter frames.length leaf.frame k) := by
  obtain ⟨k, few, reached, bounded, sounds⟩ := passFrames_walks frames looping maxFrameSteps .playing
    ⟨leaf.frame, inside⟩ (leaf.timer + dt) leaf.frame (Nat.mod_eq_of_lt inside)
  rw [LeafCursor.playFrames, dif_pos inside]
  refine ⟨k, few, reached, bounded, ?_⟩
  rw [sounds_append, sounds]
  cases leaf.entered with
  | true => rfl
  | false => exact (soundsOf_cons (List.getElem?_eq_getElem inside) _).symm

/-! ## Players of one action -/

/-- A player of an action that is no sequence has a cursor for it, and the frame of its block has been entered. -/
structure Player.Placed (c : Catalog) (p : Player) : Prop where
  single : ∀ index action, p.action = some index → c.action? index = some action → action.kind ≠ .sequence →
    ∃ leaf, p.cursor = .single leaf ∧ leaf.action = index
  entered : ∀ leaf, p.cursor = .single leaf → leaf.block.isSome = true → leaf.entered = true

section Placed

variable {σ : Type} {c : Catalog}

private theorem leaf_step_entered (leaf : LeafCursor) (ask : Predicate → StateM σ Bool) (looping inGap : Bool)
    (dt : Float32) (s : σ) (present : c.FramesPresent) (valid : leaf.Valid c)
    (entered : leaf.block.isSome = true → leaf.entered = true) :
    (leaf.step c ask looping inGap dt s).1.leaf.block.isSome = true →
      (leaf.step c ask looping inGap dt s).1.leaf.entered = true := by
  rcases leaf_step_cases leaf c ask looping inGap dt s with
    ⟨_, step⟩ | ⟨_, _, _, step⟩ | ⟨_, _, _, _, step⟩ | ⟨action, choice, block, found, _, _, named, step⟩
  · rw [step]
    exact entered
  · rw [step]
    exact fun _ => rfl
  · rw [step]
    exact entered
  · have inside := valid.turnTo found named (frames_of_action present found named)
    rw [step, LeafCursor.playFrames, dif_pos inside]
    exact fun _ => rfl

theorem stopped_placed (p : Player) (stopped : p.cursor = .stopped) (idle : p.action = none) : p.Placed c := by
  constructor
  · intro index action playing
    rw [idle] at playing
    cases playing
  · intro leaf placed
    rw [stopped] at placed
    cases placed

theorem start_placed (action : Nat) : (Player.start action c).Placed c := by
  constructor
  · intro index found playing there plain
    rw [start_action, Option.some.injEq] at playing
    subst playing
    exact ⟨{ action }, by rw [start_single there plain], rfl⟩
  · intro leaf placed chosen
    unfold Player.start at placed
    split at placed
    · cases placed
    · split at placed
      · split at placed
        · cases placed
        · cases placed
      · cases placed
        cases chosen

/-- What an advance does with the cursor of one action. -/
theorem advance_single {p : Player} {index : Nat} {action : Action} {leaf : LeafCursor}
    (started : p.action = some index) (going : p.finished = false) (found : c.action? index = some action)
    (placed : p.cursor = .single leaf) (ask : Predicate → StateM σ Bool) (dt : Float32) (s : σ) :
    let step := (leaf.step c ask action.looping p.inGap dt s).1
    (p.advance c ask dt s).1.2.1 = step.events ∧ (p.advance c ask dt s).1.2.2.cursor = .single step.leaf := by
  rw [advance_going p c action ask dt s started going found, advanceAction_single p c action ask dt s leaf placed]
  exact ⟨rfl, conclude_cursor _ _ _⟩

theorem advance_placed (p : Player) (ask : Predicate → StateM σ Bool) (dt : Float32) (s : σ)
    (present : c.FramesPresent) (valid : p.Valid c) (placed : p.Placed c) :
    (p.advance c ask dt s).1.2.2.Placed c := by
  rcases advance_cases p c ask dt s with ⟨_, same⟩ | ⟨_, _, _, _, same⟩ | ⟨index, action, started, going, found, same⟩
  · rw [same]
    exact placed
  · rw [same]
    exact ⟨placed.single, placed.entered⟩
  · cases cursor : p.cursor with
    | single leaf =>
      obtain ⟨_, after⟩ := advance_single started going found cursor ask dt s
      constructor
      · intro index found playing there plain
        rw [advance_action] at playing
        obtain ⟨other, before, mine⟩ := placed.single index found playing there plain
        rw [cursor, Cursor.single.injEq] at before
        exact ⟨_, after, by rw [leaf_step_action, before, mine]⟩
      · intro other stands
        rw [after, Cursor.single.injEq] at stands
        rw [← stands]
        exact leaf_step_entered leaf ask _ _ dt s present (valid.leaf leaf (by simp [Player.leaf?, cursor]))
          (placed.entered leaf cursor)
    | stopped =>
      rw [same, advanceAction_stopped p c action ask dt s cursor]
      exact ⟨placed.single, placed.entered⟩
    | sequence leaves position leaf =>
      rw [same, advanceAction_sequence p c action ask dt s leaves position leaf cursor]
      constructor
      · intro index found playing there plain
        rw [conclude_action] at playing
        obtain ⟨_, before, _⟩ := placed.single index found playing there plain
        rw [cursor] at before
        cases before
      · intro other stands
        rw [conclude_cursor] at stands
        cases stands

/-- Every player that operations lead to is placed. -/
theorem reachable_placed (p : Player) (present : c.FramesPresent) (reached : Player.Reachable c p) : p.Placed c := by
  induction reached with
  | refl => exact stopped_placed _ rfl rfl
  | tail before step placed =>
    cases step with
    | start action => exact start_placed action
    | stop => exact stopped_placed _ rfl rfl
    | advance ask s dt => exact advance_placed _ ask dt s present (reachable_valid before) placed

end Placed

/-! ## The sounds of an advance -/

/-- An advance that selects a block of `n` frames enters the frames after frame `f`, round and round, and stops at the
last of them; `f` is the frame on show, or the first frame if the block was not playing before, and then it is entered
as well. The sounds are those of the frames entered, in order. -/
theorem sounds_fire_on_entry (c : Catalog) (present : c.FramesPresent) (p : Player) (reached : Player.Reachable c p)
    (index : Nat) (action : Action) (started : p.action = some index) (going : p.finished = false)
    (found : c.action? index = some action) (framed : needsFrames action.kind = true) {σ : Type}
    (ask : Predicate → StateM σ Bool) (dt : Float32) (s : σ) (choice : BlockRef)
    (selected : (action.selectBlock ask s).1 = some choice) :
    let out := (p.advance c ask dt s).1
    ∃ block f k, action.block? choice = some block ∧
      (if p.block? = some choice then p.frameIndex? = some f else f = 0) ∧
      k ≤ maxFrameSteps ∧ (action.looping = false → f + k < block.frames.length) ∧
      out.2.2.block? = some choice ∧ out.2.2.frameIndex? = some ((f + k) % block.frames.length) ∧
      out.2.1.sounds = soundsOf block.frames
        ((if p.block? = some choice then [] else [0]) ++ framesAfter block.frames.length f k) := by
  have placed := reachable_placed p present reached
  obtain ⟨plain, shown⟩ := (needsFrames_iff action.kind).mp framed
  obtain ⟨leaf, cursor, mine⟩ := placed.single index action started found plain
  obtain ⟨block, named⟩ := Option.isSome_iff_exists.mp (selectBlock_isSome action ask s choice selected)
  have there : c.action? leaf.action = some action := by rw [mine]; exact found
  have valid := (reachable_valid reached).leaf leaf (by simp [Player.leaf?, cursor])
  have inside := valid.turnTo there named (frames_of_action present there named)
  obtain ⟨events, after⟩ := advance_single started going found cursor ask dt s
  rw [leaf_step_frames leaf c ask action.looping p.inGap dt s action choice block there shown selected named]
    at events after
  obtain ⟨k, few, reached, bounded, sounds⟩ :=
    playFrames_walks (leaf.turnTo choice) block.frames action.duration action.looping dt inside
  have was : p.block? = leaf.block := by simp [Player.block?, Player.leaf?, cursor]
  refine ⟨block, (leaf.turnTo choice).frame, k, named, ?_, few, bounded, ?_, ?_, ?_⟩
  · rw [was, LeafCursor.turnTo]
    split
    next kept => simp [Player.frameIndex?, Player.leaf?, cursor, kept, Option.filter]
    · rfl
  · simp [Player.block?, Player.leaf?, after]
  · simp [Player.frameIndex?, Player.leaf?, after, Option.filter, reached]
  · rw [events, sounds, was]
    congr 2
    rw [LeafCursor.turnTo]
    split
    next kept => simp [placed.entered leaf cursor (by simp [kept])]
    · rfl

/-- A clock that goes round three frames and sounds in the first and the last of them. -/
def clock : Catalog :=
  let silent : Frame :=
    { image := none, duration := 0.25, velocity := .zero, anchor := .zero, sound := none, volume := 1.0 }
  let tick : Frame := { silent with sound := some "tick", volume := 0.5 }
  let tock : Frame := { silent with sound := some "tock" }
  let strike : Action :=
    { name := "strike", kind := .animate, footing := none
      blocks := [{ condition := none, priority := 0, frames := [tick, silent, tock] }]
      defaultBlock := none, references := [], looping := true, draggable := true, duration := none
      embedded := [] }
  { name := "clock", actions := [strike], behaviors := [], defaultBehavior := 0
    draggedBehavior := none, thrownBehavior := none }

/-- The clock in its second frame. -/
def clockPlayer : Player :=
  ((Player.start 0 clock).advance clock (fun _ => pure false) 0.375 ()).1.2.2

private theorem clockPlayer_reachable : Player.Reachable clock clockPlayer :=
  (Relation.ReflTransGen.single (.start 0)).tail (.advance _ () 0.375)

/-- Three quarters of a second go round the clock once. -/
theorem sounds_fire_on_entry_clock :
    clock.FramesPresent ∧ Player.Reachable clock clockPlayer ∧ clockPlayer.frameIndex? = some 1 ∧
      ∃ block f k, clock.actions[0].block? (.block 0) = some block ∧
        clockPlayer.frameIndex? = some f ∧ k ≤ maxFrameSteps ∧
        (clockPlayer.advance clock (fun _ => pure false) 0.75 ()).1.2.2.frameIndex? =
          some ((f + k) % block.frames.length) ∧
        (clockPlayer.advance clock (fun _ => pure false) 0.75 ()).1.2.1.sounds =
          soundsOf block.frames (framesAfter block.frames.length f k) := by
  have playing : clockPlayer.block? = some (.block 0) := by decide +kernel
  obtain ⟨block, f, k, named, shown, few, _, _, reached, sounds⟩ :=
    sounds_fire_on_entry clock (by decide) clockPlayer clockPlayer_reachable 0 clock.actions[0] (by decide +kernel)
      (by decide +kernel) (by decide) (by decide) (fun _ => pure false) 0.75 () (.block 0) (by decide)
  rw [if_pos playing] at shown sounds
  exact ⟨by decide, clockPlayer_reachable, by decide +kernel, block, f, k, named, shown, few, reached, sounds⟩

example :
    (clockPlayer.advance clock (fun _ => pure false) 0.75 ()).1.2.1.sounds = [("tock", 1.0), ("tick", 0.5)] := by
  decide +kernel

end DesktopPet
