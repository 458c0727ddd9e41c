import DesktopPet.Proofs.Playback.Sequence

/-!
# Gaps

While no block of an action holds, its player waits. Advances of this kind may be put into the run of an action
without a time cap anywhere, and all others show what they show without them (`gaps_are_transparent`). A gap leaves
its mark only on the time that the action has taken, and without a cap nothing reads it: `Player.SamePlace` relates
the two runs.
-/

namespace DesktopPet

open Condition (Predicate)
open Pack (needsFrames)

/-- An advance of a run. Those that are inserted can be left out. -/
structure Scheduled where
  advance : Advance
  inserted : Bool

/-- What is seen of an advance: what it answers, and what the player shows then. -/
structure Shown where
  result : PlayResult
  events : PlayEvents
  finished : Bool
  block : Option BlockRef
  frameIndex : Option Nat
  frame : Option Frame
  velocity : Vector2
  deriving DecidableEq

def Played.shown (c : Catalog) (played : Played) : Shown where
  result := played.result
  events := played.events
  finished := played.after.finished
  block := played.after.block?
  frameIndex := played.after.frameIndex?
  frame := played.after.currentFrame? c
  velocity := played.after.frameVelocity c

/-- An advance in which the player only waits: nothing ends or begins, and the frame stays in place with the time
spent in it. -/
structure Played.Waits (c : Catalog) (played : Played) : Prop where
  result : played.result = .playing
  events : played.events = {}
  going : played.after.finished = false
  block : played.after.block? = played.before.block?
  frameIndex : played.after.frameIndex? = played.before.frameIndex?
  frame : played.after.currentFrame? c = played.before.currentFrame? c
  timer : played.after.leaf?.map (·.timer) = played.before.leaf?.map (·.timer)
  velocity : played.after.frameVelocity c = .zero

/-! ## One leaf without a time cap -/

section Leaf

variable {σ : Type} {c : Catalog} {action : Action} (leaf : LeafCursor) (time : Float32)

private theorem turnTo_time (choice : BlockRef) :
    { leaf with elapsed := time }.turnTo choice = { leaf.turnTo choice with elapsed := time } := by
  unfold LeafCursor.turnTo
  split
  · rfl
  · rfl

/-- Without a time cap the frames do not depend on the time that the action has taken. -/
theorem playFrames_time (frames : List Frame) (looping : Bool) (dt : Float32) :
    ∃ time', { leaf with elapsed := time }.playFrames frames none looping dt =
      let step := leaf.playFrames frames none looping dt
      { step with leaf := { step.leaf with elapsed := time' } } := by
  by_cases inside : leaf.frame < frames.length
  · refine ⟨time + dt, ?_⟩
    rw [LeafCursor.playFrames, LeafCursor.playFrames, dif_pos inside, dif_pos inside]
    -- Without its cap the step compares no times.
    simp only [Option.any_none]
  · refine ⟨time, ?_⟩
    rw [LeafCursor.playFrames, LeafCursor.playFrames, dif_neg inside, dif_neg inside]

/-- Nor does a whole step, and whether there was a gap before does not matter to it. -/
theorem leaf_step_time (found : c.action? leaf.action = some action) (framed : action.kind ≠ .embedded)
    (uncapped : action.duration = none) (ask : Predicate → StateM σ Bool) (looping inGap inGap' : Bool)
    (dt : Float32) (s : σ) :
    ∃ time', ({ leaf with elapsed := time }.step c ask looping inGap' dt s).1 =
      let step := (leaf.step c ask looping inGap dt s).1
      { step with leaf := { step.leaf with elapsed := time' } } := by
  cases selected : (action.selectBlock ask s).1 with
  | none =>
    refine ⟨time + dt, ?_⟩
    rw [leaf_step_gap leaf c ask looping inGap dt s action found framed selected,
      leaf_step_gap { leaf with elapsed := time } c ask looping inGap' dt s action found framed selected]
  | some choice =>
    obtain ⟨block, named⟩ := Option.isSome_iff_exists.mp (selectBlock_isSome action ask s choice selected)
    obtain ⟨time', same⟩ := playFrames_time (leaf.turnTo choice) time block.frames looping dt
    refine ⟨time', ?_⟩
    rw [leaf_step_frames leaf c ask looping inGap dt s action choice block found framed selected named,
      leaf_step_frames { leaf with elapsed := time } c ask looping inGap' dt s action choice block found framed
        selected named, turnTo_time, uncapped, same]

end Leaf

/-! ## Two players at the same place -/

/-- Two players of an action that is no sequence are at the same place of it. They may have spent different times
there, and one of them may be in a gap. -/
structure Player.SamePlace (index : Nat) (p q : Player) : Prop where
  action : p.action = some index ∧ q.action = some index
  finished : q.finished = p.finished
  cursor : ∃ leaf time, leaf.action = index ∧ p.cursor = .single leaf ∧
    q.cursor = .single { leaf with elapsed := time }

section Place

variable {c : Catalog} {index : Nat} {action : Action} {p q : Player}

theorem Player.SamePlace.shows (same : p.SamePlace index q) :
    q.block? = p.block? ∧ q.frameIndex? = p.frameIndex? ∧ q.currentFrame? c = p.currentFrame? c := by
  obtain ⟨leaf, time, _, here, there⟩ := same.cursor
  simp [Player.block?, Player.frameIndex?, Player.currentFrame?, Player.leaf?, here, there, Option.filter]

/-- A player that is over does not move, in a gap or not. -/
theorem Player.SamePlace.velocity (same : p.SamePlace index q) (gap : p.finished = false → q.inGap = p.inGap) :
    q.frameVelocity c = p.frameVelocity c := by
  obtain ⟨leaf, time, _, here, there⟩ := same.cursor
  have moved : (q.inGap || q.finished) = (p.inGap || p.finished) := by
    rw [same.finished]
    cases ended : p.finished with
    | true => simp
    | false => rw [gap ended]
  simp [Player.frameVelocity, Player.leafAction?, Player.currentFrame?, Player.leaf?, here, there, moved]

theorem Player.SamePlace.shown {played played' : Played} (same : played.after.SamePlace index played'.after)
    (result : played'.result = played.result) (events : played'.events = played.events)
    (gap : played.after.finished = false → played'.after.inGap = played.after.inGap) :
    played.shown c = played'.shown c := by
  obtain ⟨block, frameIndex, frame⟩ := same.shows (c := c)
  unfold Played.shown
  rw [result, events, same.finished, block, frameIndex, frame, same.velocity gap]

/-- An advance of one action without a time cap ends it exactly if its leaf is over. -/
theorem advance_uncapped {σ : Type} {leaf : LeafCursor} (started : p.action = some index)
    (going : p.finished = false) (found : c.action? index = some action) (uncapped : action.duration = none)
    (placed : p.cursor = .single leaf) (ask : Predicate → StateM σ Bool) (dt : Float32) (s : σ) :
    (p.advance c ask dt s).1 =
      let step := (leaf.step c ask action.looping p.inGap dt s).1
      (step.result.toPlayResult, step.events,
        { p with
          elapsed := p.elapsed + dt
          cursor := .single step.leaf
          inGap := step.inGap
          finished := step.result = .done }) := by
  rw [advance_going p c action ask dt s started going found, advanceAction_single p c action ask dt s leaf placed,
    uncapped]
  simp only [Player.finishIf, Player.applyCap]
  cases (leaf.step c ask action.looping p.inGap dt s).1.result with
  | playing => simp [LeafResult.toPlayResult, going]
  | wrapped => simp [LeafResult.toPlayResult, going]
  | done => simp [LeafResult.toPlayResult]

variable (found : c.action? index = some action) (framed : needsFrames action.kind = true)
  (uncapped : action.duration = none)
include found framed uncapped

/-- The same advance shows the same at the same place. -/
theorem Player.SamePlace.play (same : p.SamePlace index q) (a : Advance) (lap lap' : Nat) :
    (a.play c lap p).shown c = (a.play c lap' q).shown c ∧
      (a.play c lap p).after.SamePlace index (a.play c lap' q).after := by
  cases ended : p.finished with
  | true =>
    have idle := advance_over p c a.ask a.dt a.state ended
    have idle' := advance_over q c a.ask a.dt a.state (by rw [same.finished, ended])
    have next : (a.play c lap p).after.SamePlace index (a.play c lap' q).after := by
      rw [Advance.play, Advance.play, idle, idle']
      exact same
    refine ⟨next.shown ?_ ?_ fun going => ?_, next⟩
    · rw [Advance.play, Advance.play, idle, idle']
    · rw [Advance.play, Advance.play, idle, idle']
    · rw [Advance.play, idle, ended] at going
      cases going
  | false =>
    have going : q.finished = false := by rw [same.finished, ended]
    have plain := ((needsFrames_iff action.kind).mp framed).2
    obtain ⟨leaf, time, mine, here, there⟩ := same.cursor
    have first := advance_uncapped same.action.1 ended found uncapped here a.ask a.dt a.state
    have second := advance_uncapped same.action.2 going found uncapped there a.ask a.dt a.state
    obtain ⟨time', step⟩ := leaf_step_time leaf time (by rw [mine, found]) plain uncapped a.ask action.looping
      p.inGap q.inGap a.dt a.state
    rw [step] at second
    have next : (a.play c lap p).after.SamePlace index (a.play c lap' q).after := by
      constructor
      · exact ⟨by rw [Advance.play, first]; exact same.action.1, by rw [Advance.play, second]; exact same.action.2⟩
      · rw [Advance.play, Advance.play, first, second]
      · rw [Advance.play, Advance.play, first, second]
        exact ⟨_, time', by rw [leaf_step_action, mine], rfl, rfl⟩
    refine ⟨next.shown ?_ ?_ fun _ => ?_, next⟩
    · rw [Advance.play, Advance.play, first, second]
    · rw [Advance.play, Advance.play, first, second]
    · rw [Advance.play, Advance.play, first, second]

/-- An advance in a gap waits, and the place stays the same. -/
theorem Player.SamePlace.wait (same : p.SamePlace index q) (a : Advance) (lap : Nat)
    (gap : (action.selectBlock a.ask a.state).1 = none) :
    (p.finished = false → (a.play c lap p).Waits c) ∧ (a.play c lap p).after.SamePlace index q := by
  cases ended : p.finished with
  | true =>
    rw [Advance.play, advance_over p c a.ask a.dt a.state ended]
    refine ⟨fun going => ?_, same⟩
    cases going
  | false =>
    have plain := ((needsFrames_iff action.kind).mp framed).2
    obtain ⟨leaf, time, mine, here, there⟩ := same.cursor
    have step := advance_uncapped same.action.1 ended found uncapped here a.ask a.dt a.state
    rw [leaf_step_gap leaf c a.ask action.looping p.inGap a.dt a.state action (by rw [mine, found]) plain gap] at step
    refine ⟨fun _ => ?_, ?_⟩
    · constructor
      all_goals simp [Advance.play, step, LeafResult.toPlayResult, Player.block?, Player.frameIndex?,
        Player.currentFrame?, Player.frameVelocity, Player.leaf?, here, Option.filter]
    · constructor
      · exact ⟨by rw [Advance.play, step]; exact same.action.1, same.action.2⟩
      · rw [Advance.play, step, same.finished, ended]
        rfl
      · rw [Advance.play, step]
        exact ⟨{ leaf with elapsed := leaf.elapsed + a.dt }, time, mine, rfl, there⟩

/-- Two runs from the same place, one with the inserted advances and one without. The induction is on the script; an
inserted advance moves the first player alone, and `Player.SamePlace` carries over. -/
theorem plays_alike (script : List Scheduled)
    (gaps : ∀ e ∈ script, e.inserted = true → (action.selectBlock e.advance.ask e.advance.state).1 = none)
    (lap lap' : Nat) (same : p.SamePlace index q) :
    let run := script.zip (c.play p lap (script.map (·.advance)))
    (run.filter (!·.1.inserted)).map (·.2.shown c) =
        (c.play q lap' ((script.filter (!·.inserted)).map (·.advance))).map (·.shown c) ∧
      ∀ e ∈ run, e.1.inserted = true → e.2.before.finished = false → e.2.Waits c := by
  induction script generalizing p q lap lap' with
  | nil => simp [Catalog.play]
  | cons e rest ih =>
    have later := fun e member => gaps e (List.mem_cons_of_mem _ member)
    intro run
    cases put : e.inserted with
    | true =>
      obtain ⟨waits, next⟩ := same.wait found framed uncapped e.advance lap (gaps e List.mem_cons_self put)
      obtain ⟨alike, waiting⟩ := ih later (lapAfter lap (e.advance.play c lap p).turns) lap' next
      refine ⟨?_, ?_⟩
      · simpa [run, Catalog.play, put] using alike
      · intro e' member
        rcases List.mem_cons.mp member with rfl | member
        · exact fun _ => waits
        · exact waiting e' member
    | false =>
      obtain ⟨shown, next⟩ := same.play found framed uncapped e.advance lap lap'
      obtain ⟨alike, waiting⟩ := ih later (lapAfter lap (e.advance.play c lap p).turns)
        (lapAfter lap' (e.advance.play c lap' q).turns) next
      refine ⟨?_, ?_⟩
      · simpa [run, Catalog.play, put, shown] using alike
      · intro e' member
        rcases List.mem_cons.mp member with rfl | member
        · intro wrong
          rw [put] at wrong
          cases wrong
        · exact waiting e' member

end Place

/-- Advances in which no block holds may be put into a run of an action without a time cap, anywhere and with any
times: all other advances show the same as without them. Before the action is over they only wait. -/
theorem gaps_are_transparent (c : Catalog) (index : Nat) (action : Action) (found : c.action? index = some action)
    (framed : needsFrames action.kind = true) (uncapped : action.duration = none) (script : List Scheduled)
    (gaps : ∀ e ∈ script, e.inserted = true → (action.selectBlock e.advance.ask e.advance.state).1 = none) :
    let run := script.zip (c.play (Player.start index c) 0 (script.map (·.advance)))
    (run.filter (!·.1.inserted)).map (·.2.shown c) =
        (c.play (Player.start index c) 0 ((script.filter (!·.inserted)).map (·.advance))).map (·.shown c) ∧
      ∀ e ∈ run, e.1.inserted = true → e.2.before.finished = false → e.2.Waits c := by
  have start := start_single found ((needsFrames_iff action.kind).mp framed).1
  refine plays_alike found framed uncapped script gaps 0 0 ⟨?_, rfl, ?_⟩
  · rw [start]
    exact ⟨rfl, rfl⟩
  · rw [start]
    exact ⟨{ action := index }, 0.0, rfl, rfl, rfl⟩

/-- A walk in two frames, for as long as its condition holds. -/
def stroll : Catalog :=
  let frame : Frame :=
    { image := none, duration := 0.25, velocity := ⟨-2.0, 0.0⟩, anchor := .zero, sound := none, volume := 1.0 }
  let walk : Action :=
    { name := "walk", kind := .move, footing := none
      blocks := [{ condition := some (.never "onFloor"), priority := 0
                   frames := [{ frame with sound := some "step" }, frame] }]
      defaultBlock := none, references := [], looping := true, draggable := true, duration := none
      embedded := [] }
  { name := "stroll", actions := [walk], behaviors := [], defaultBehavior := 0
    draggedBehavior := none, thrownBehavior := none }

/-- Steps of the walk with a long gap in the middle of a frame and one before the walk begins. -/
def strollScript : List Scheduled :=
  [(4.0, true), (0.125, false), (8.0, true), (0.25, false), (0.5, false)].map fun (dt, inserted) =>
    { advance := { State := Unit, ask := fun _ => pure !inserted, state := (), dt }, inserted }

/-- Neither gap takes time from the frames, and the sound of the first one is not repeated. -/
theorem gaps_are_transparent_stroll :
    (strollScript.map (·.inserted) = [true, false, true, false, false] ∧
      (stroll.play (Player.start 0 stroll) 0 ((strollScript.filter (!·.inserted)).map (·.advance))).map
          (fun played => (played.after.frameIndex?, played.events.sounds.length)) =
        [(some 0, 1), (some 1, 0), (some 1, 1)]) ∧
      let run := strollScript.zip (stroll.play (Player.start 0 stroll) 0 (strollScript.map (·.advance)))
      (run.filter (!·.1.inserted)).map (·.2.shown stroll) =
          (stroll.play (Player.start 0 stroll) 0 ((strollScript.filter (!·.inserted)).map (·.advance))).map
            (·.shown stroll) ∧
        ∀ e ∈ run, e.1.inserted = true → e.2.before.finished = false → e.2.Waits stroll :=
  ⟨by decide +kernel,
    gaps_are_transparent stroll 0 stroll.actions[0] (by decide) (by decide) (by decide) strollScript
      fun e member put => by
        obtain ⟨⟨dt, inserted⟩, _, rfl⟩ := List.mem_map.mp member
        obtain rfl : inserted = true := put
        rfl⟩

end DesktopPet
