import DesktopPet.Proofs.Playback.Sequence

/-!
# The work of an advance

However much time passes and whatever the frames last, one advance does a bounded amount of work (`advances_bounded`).
The catch-up loop of a leaf has nothing but its count to stop it, for neither a frame without duration nor an infinite
timer uses any time up; when the count stops it, the rest of the time is dropped. A sequence needs no limit of passes:
each pass that is not the last one leaves a child behind for good (`SequenceRun.passes`).
-/

namespace DesktopPet

open Condition (Predicate)

/-! ## The catch-up loop -/

/-- The frames that the catch-up loop passes, one by one: from a frame in which so many seconds have been spent on to
the frame after it with the seconds left, and from the last frame back to the first one if the frames loop. -/
inductive FramePasses (frames : List Frame) (looping : Bool) : Nat → Nat × Float32 → Nat × Float32 → Prop where
  | none {place : Nat × Float32} : FramePasses frames looping 0 place place
  | next {passed i : Nat} {timer : Float32} {place : Nat × Float32} (more : i + 1 < frames.length)
      (due : frames[i].duration ≤ timer)
      (rest : FramePasses frames looping passed (i + 1, timer - frames[i].duration) place) :
      FramePasses frames looping (passed + 1) (i, timer) place
  | wrap {passed i : Nat} {timer : Float32} {place : Nat × Float32} (inside : i < frames.length)
      (last : i + 1 = frames.length) (loops : looping = true) (due : frames[i].duration ≤ timer)
      (rest : FramePasses frames looping passed (0, timer - frames[i].duration) place) :
      FramePasses frames looping (passed + 1) (i, timer) place

/-- The catch-up loop passes so many frames from a place on and leaves a frame with a timer. It has `left` seconds
there, which it keeps if they are too few for the frame. If they are not, the loop has been stopped, by its count or by
the end of frames that do not loop, and the timer is reset. -/
structure CatchUp (frames : List Frame) (looping : Bool) (limit : Nat) (start : Nat × Float32) (passed frame : Nat)
    (left timer : Float32) : Prop where
  inside : frame < frames.length
  few : passed ≤ limit
  walk : FramePasses frames looping passed start (frame, left)
  rest : ¬ frames[frame].duration ≤ left → timer = left
  reset : frames[frame].duration ≤ left →
    timer = 0.0 ∧ (passed = limit ∨ looping = false ∧ frame + 1 = frames.length)

/-- The loop ends within its count. The induction is on what is left of the count. -/
theorem passFrames_catchUp (frames : List Frame) (looping : Bool) (steps : Nat) (result : LeafResult)
    (i : Fin frames.length) (timer : Float32) :
    let out := passFrames frames looping steps result i timer
    ∃ passed left, CatchUp frames looping steps (i, timer) passed out.2.1 left out.2.2.1 := by
  induction steps generalizing result i timer with
  | zero =>
    refine ⟨0, timer, i.isLt, Nat.le_refl 0, .none, fun early => ?_, fun due => ⟨?_, .inl rfl⟩⟩
    · exact if_neg early
    · exact if_pos due
  | succ steps ih =>
    rw [passFrames]
    split
    next due =>
      split
      next more =>
        obtain ⟨passed, left, inside, few, walk, rest, reset⟩ :=
          ih result ⟨i.val + 1, more⟩ (timer - frames[i].duration)
        refine ⟨passed + 1, left, inside, Nat.succ_le_succ few, .next more due walk, rest, fun still => ?_⟩
        exact (reset still).imp_right (Or.imp_left (congrArg (· + 1)))
      next beyond =>
        have last : i.val + 1 = frames.length := Nat.le_antisymm i.isLt (Nat.le_of_not_lt beyond)
        split
        next loops =>
          obtain ⟨passed, left, inside, few, walk, rest, reset⟩ :=
            ih .wrapped ⟨0, Nat.zero_lt_of_lt i.isLt⟩ (timer - frames[i].duration)
          refine ⟨passed + 1, left, inside, Nat.succ_le_succ few, .wrap i.isLt last loops due walk, rest,
            fun still => ?_⟩
          exact (reset still).imp_right (Or.imp_left (congrArg (· + 1)))
        next ends =>
          refine ⟨0, timer, i.isLt, Nat.zero_le _, .none, fun early => absurd due early,
            fun _ => ⟨rfl, .inr ⟨?_, last⟩⟩⟩
          simpa using ends
    next early => exact ⟨0, timer, i.isLt, Nat.zero_le _, .none, fun _ => rfl, fun due => absurd due early⟩

/-! ## Leaves -/

/-- A leaf that selects a block with frames catches up with the time. -/
theorem LeafCursor.Valid.catchUp {σ : Type} {c : Catalog} {leaf : LeafCursor} (valid : leaf.Valid c)
    (ask : Predicate → StateM σ Bool) (looping inGap : Bool) (dt : Float32) (s : σ) {action : Action}
    {choice : BlockRef} {block : Block} (found : c.action? leaf.action = some action) (framed : action.kind ≠ .embedded)
    (selected : (action.selectBlock ask s).1 = some choice) (named : action.block? choice = some block)
    (nonempty : block.frames ≠ []) :
    let after := (leaf.step c ask looping inGap dt s).1.leaf
    ∃ passed left, CatchUp block.frames looping maxFrameSteps
      ((leaf.turnTo choice).frame, (leaf.turnTo choice).timer + dt) passed after.frame left after.timer := by
  have inside := valid.turnTo found named nonempty
  have caught := passFrames_catchUp block.frames looping maxFrameSteps .playing
    ⟨(leaf.turnTo choice).frame, inside⟩ ((leaf.turnTo choice).timer + dt)
  rw [leaf_step_frames leaf c ask looping inGap dt s action choice block found framed selected named,
    LeafCursor.playFrames, dif_pos inside]
  exact caught

/-! ## Sequences -/

namespace SequenceRun

variable {c : Catalog} {leaves : List Nat} {looping : Bool} {lap position : Nat} {leaf : LeafCursor}
  {step : SequenceStep} {turns : List Turn}

/-- Each pass of an advance has a leaf of its own; the turn that enters the next lap is behind the last pass. -/
theorem passes (run : SequenceRun c leaves looping lap position leaf step turns) (inside : position < leaves.length) :
    turns.countP (·.lap = lap) + position ≤ leaves.length := by
  induction run with
  | playing _ _ => simpa [Nat.add_comm] using Nat.succ_le_of_lt inside
  | next _ _ following _ ih =>
    have rest := ih (List.getElem?_eq_some_iff.mp following).1
    rw [List.countP_cons_of_pos (by simp)]
    omega
  | again _ _ _ _ _ _ => simpa [Nat.add_comm] using Nat.succ_le_of_lt inside
  | finish _ _ _ _ => simpa [Nat.add_comm] using Nat.succ_le_of_lt inside

/-- An advance steps the leaf that stands and new ones. -/
theorem stepped (run : SequenceRun c leaves looping lap position leaf step turns) :
    ∀ t ∈ turns, t.before = leaf ∨ ∃ child, t.before = { action := child } := by
  induction run with
  | playing _ _ => simp
  | next _ _ _ _ ih =>
    intro t member
    rcases List.mem_cons.mp member with rfl | later
    · exact .inl rfl
    · exact .inr ((ih t later).elim (⟨_, ·⟩) id)
  | again _ _ _ _ _ _ => simp
  | finish _ _ _ _ => simp

end SequenceRun

/-- More passes than there are leaves from here on make no difference. -/
theorem stepSequence_enough {σ : Type} (c : Catalog) (ask : Predicate → StateM σ Bool) (leaves : List Nat)
    (looping : Bool) (more passes position : Nat) (leaf : LeafCursor) (inGap : Bool) (dt : Float32) (s : σ)
    (inside : position < leaves.length) (enough : leaves.length ≤ position + passes) :
    c.stepSequence ask leaves looping (passes + more) position leaf inGap dt s =
      c.stepSequence ask leaves looping passes position leaf inGap dt s := by
  induction passes generalizing position leaf inGap dt s with
  | zero => omega
  | succ passes ih =>
    rw [Nat.add_right_comm]
    by_cases spent : (sequenceLeafStep c ask leaf inGap dt s).1.result = .done
    · cases following : leaves[position + 1]? with
      | some child =>
        have within := (List.getElem?_eq_some_iff.mp following).1
        rw [stepSequence_next c ask leaves looping _ position leaf inGap dt s child spent following,
          stepSequence_next c ask leaves looping _ position leaf inGap dt s child spent following]
        simp only
        rw [ih (position + 1) _ _ _ _ within (by omega)]
      | none =>
        by_cases laps : looping = true ∧ leaves.head? ≠ none
        · obtain ⟨first, head⟩ := Option.ne_none_iff_exists'.mp laps.2
          rw [stepSequence_lap c ask leaves looping _ position leaf inGap dt s first spent following head laps.1,
            stepSequence_lap c ask leaves looping _ position leaf inGap dt s first spent following head laps.1]
        · have ends (loops : looping = true) : leaves.head? = none := by
            by_contra headed
            exact laps ⟨loops, headed⟩
          rw [stepSequence_terminal c ask leaves looping _ position leaf inGap dt s spent following ends,
            stepSequence_terminal c ask leaves looping _ position leaf inGap dt s spent following ends]
    · rw [stepSequence_playing c ask leaves looping _ position leaf inGap dt s spent,
        stepSequence_playing c ask leaves looping _ position leaf inGap dt s spent]

/-! ## Players -/

/-- An advance of a sequence goes on from where it stands. -/
theorem Player.Valid.standing {c : Catalog} {p : Player} (valid : p.Valid c) {index position : Nat}
    {leaves : List Nat} {leaf : LeafCursor} (started : p.action = some index)
    (cursor : p.cursor = .sequence leaves position leaf) (going : p.finished = false) :
    p.Standing index leaves position leaf :=
  ⟨started, cursor, going, valid.position leaves position leaf cursor going⟩

/-- What an advance of a sequence does, and how much of it. -/
structure SequenceWork {σ : Type} (c : Catalog) (ask : Predicate → StateM σ Bool) (leaves : List Nat)
    (looping : Bool) (position : Nat) (leaf : LeafCursor) (inGap : Bool) (dt : Float32) (s : σ) (turns : List Turn)
    (after : Cursor) : Prop where
  /-- The advance ends because a leaf plays on, the sequence starts over or the sequence is over; and the cursor that it
  leaves comes out of its last turn. -/
  ends : ∃ step last, SequenceRun c leaves looping 0 position leaf step turns ∧ turns.getLast? = some last ∧
    step.leaf = last.step.leaf ∧ after = .sequence leaves step.position step.leaf
  stepped : ∀ t ∈ turns, t.before = leaf ∨ ∃ child, t.before = { action := child }
  /-- There is a pass left, out of one more than there are leaves. -/
  passes : turns.countP (·.lap = 0) < leaves.length + 1
  /-- Children that are left behind; the entry of the next lap leaves none. -/
  completed : turns.countP (fun t => t.lap = 0 ∧ t.step.result = .done) ≤ leaves.length
  /-- More passes would make no difference. -/
  unlimited : ∀ more, c.stepSequence ask leaves looping (leaves.length + 1 + more) position leaf inGap dt s =
    c.stepSequence ask leaves looping (leaves.length + 1) position leaf inGap dt s

/-- One advance of a player does bounded work, whatever the catalog, the callback and the time. A leaf that it steps is
that of the player or a new one, and catches up by at most 1024 frames; if there is time for another frame then, the
timer is reset. A sequence leaves no more children behind than it has leaves, and the limit of its passes does not
strike: a child that is entered is stepped. -/
theorem advances_bounded (c : Catalog) (p : Player) (reached : Player.Reachable c p) :
    (∀ leaf, (p.leaf? = some leaf ∨ ∃ child, leaf = { action := child }) →
      ∀ {σ : Type} (ask : Predicate → StateM σ Bool) (looping inGap : Bool) (dt : Float32) (s : σ)
        action choice block,
        c.action? leaf.action = some action → action.kind ≠ .embedded →
        (action.selectBlock ask s).1 = some choice → action.block? choice = some block → block.frames ≠ [] →
        let after := (leaf.step c ask looping inGap dt s).1.leaf
        ∃ passed left, CatchUp block.frames looping 1024
          ((leaf.turnTo choice).frame, (leaf.turnTo choice).timer + dt) passed after.frame left after.timer) ∧
    ∀ index action leaves position leaf, p.action = some index → p.finished = false →
      c.action? index = some action → p.cursor = .sequence leaves position leaf →
      ∀ {σ : Type} (ask : Predicate → StateM σ Bool) (dt : Float32) (s : σ),
        SequenceWork c ask leaves action.looping position leaf p.inGap dt s (p.turns c ask 0 dt s)
          (p.advance c ask dt s).1.2.2.cursor := by
  have valid := reachable_valid reached
  refine ⟨?_, ?_⟩
  · intro leaf stepped σ ask looping inGap dt s action choice block found framed selected named nonempty
    have stands : leaf.Valid c := by
      rcases stepped with playing | ⟨child, rfl⟩
      · exact valid.leaf leaf playing
      · exact fresh_leaf_valid child
    exact stands.catchUp ask looping inGap dt s found framed selected named nonempty
  · intro index action leaves position leaf started going found cursor σ ask dt s
    let call : Advance := { State := σ, ask, state := s, dt }
    have standing := valid.standing started cursor going
    have inside : position < leaves.length := (List.getElem?_eq_some_iff.mp standing.placed).1
    obtain ⟨step, run, _, _, after, _⟩ := play_standing call 0 found standing
    have turned : (call.play c 0 p).turns = p.turns c ask 0 dt s := rfl
    rw [turned] at run
    obtain ⟨last, there, same, _⟩ := run.last
    have few := run.passes inside
    have done : (p.turns c ask 0 dt s).countP (fun t => t.lap = 0 ∧ t.step.result = .done) ≤
        (p.turns c ask 0 dt s).countP (·.lap = 0) :=
      List.countP_mono_left fun t _ both => by simpa using (of_decide_eq_true both).1
    refine ⟨⟨step, last, run, there, same, after⟩, run.stepped, by omega, by omega, fun more => ?_⟩
    exact stepSequence_enough c ask leaves action.looping more (leaves.length + 1) position leaf p.inGap dt s inside
      (by omega)

/-- A greeting by the host and then a spin for ten seconds, in one frame that takes no time and rings each time it is
entered, over and over. -/
def teacups : Catalog :=
  let frame : Frame :=
    { image := none, duration := 0.0, velocity := .zero, anchor := .zero, sound := some "bell", volume := 1.0 }
  let greet : Action :=
    { name := "greet", kind := .embedded, footing := none, blocks := [], defaultBlock := none, references := []
      looping := false, draggable := true, duration := none, embedded := [] }
  let spin : Action :=
    { greet with
      name := "spin", kind := .stay, looping := true, duration := some 10.0
      defaultBlock := some { condition := none, priority := 0, frames := [frame] } }
  let round : Action := { greet with name := "round", kind := .sequence, references := [0, 1], looping := true }
  { name := "teacups", actions := [greet, spin, round], behaviors := [], defaultBehavior := 0
    draggedBehavior := none, thrownBehavior := none }

/-- The spin rings when it is entered and once for each of the 1024 frames of the catch-up. -/
theorem advances_bounded_teacups :
    let p := Player.start 2 teacups
    let ask : Predicate → StateM Unit Bool := fun _ => pure false
    let out := (p.advance teacups ask (1.0 / 0.0) ()).1
    (p.turns teacups ask 0 (1.0 / 0.0) ()).map (·.position) = [0, 1] ∧
      out.2.1.sounds.length = 1025 ∧
      Player.Reachable teacups p ∧
      SequenceWork teacups ask [0, 1] true 0 { action := 0 } false (1.0 / 0.0) ()
        (p.turns teacups ask 0 (1.0 / 0.0) ()) out.2.2.cursor := by
  have reached : Player.Reachable teacups (Player.start 2 teacups) := .single (.start 2)
  have placed : (Player.start 2 teacups).cursor = .sequence [0, 1] 0 { action := 0 } := by decide
  exact ⟨by decide +kernel, by decide +kernel, reached,
    (advances_bounded teacups _ reached).2 2 _ _ _ _ rfl rfl rfl placed _ _ _⟩

end DesktopPet
