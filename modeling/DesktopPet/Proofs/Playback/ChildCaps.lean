import DesktopPet.Proofs.Number.Order
import DesktopPet.Proofs.Pack.Compiled
import DesktopPet.Proofs.Playback.Sequence

/-!
# Time caps in a sequence

A child of a sequence counts the time it has taken whether or not a block of it plays, but the time is compared with
its cap only where a block plays. A child whose cap is reached in a gap is not left then:
`capped_child_waits_in_gap`. `capped_children_left` says when it is.
-/

namespace DesktopPet

open Condition (Predicate)
open Pack (Issue)

/-- The place of the current child among the leaves of a sequence. -/
def Player.position? (p : Player) : Option Nat :=
  match p.cursor with
  | .sequence _ position _ => some position
  | _ => none

/-- The sequence has left its child: it is over, has started over or has moved on to another one. -/
def Played.leavesChild (played : Played) : Bool :=
  played.after.finished || played.result = .completedLooping || played.after.position? ≠ played.before.position?

/-- The time on the current child after an advance, from that before it. The advance that enters a child does not count
for it. -/
def Played.childTime (played : Played) (time : Float32) : Float32 :=
  if played.leavesChild then 0.0 else time + played.dt

/-- The time on the child that is current after some advances. -/
def timeOnChild (run : List Played) : Float32 :=
  run.foldl (fun time played => played.childTime time) 0.0

/-! ## One leaf -/

section Leaf

variable {σ : Type} (leaf : LeafCursor) (c : Catalog) (ask : Predicate → StateM σ Bool) (looping inGap : Bool)
  (dt : Float32) (s : σ)

@[simp] theorem turnTo_elapsed (choice : BlockRef) : (leaf.turnTo choice).elapsed = leaf.elapsed := by
  rw [LeafCursor.turnTo]
  split <;> rfl

private theorem playFrames_elapsed (frames : List Frame) (cap : Option Float32) :
    let step := leaf.playFrames frames cap looping dt
    (step.leaf.elapsed = leaf.elapsed + dt ∨ step.result = .done ∧ step.leaf.elapsed = leaf.elapsed) ∧
      (cap.any (· ≤ leaf.elapsed + dt) = true → step.result = .done) := by
  rw [LeafCursor.playFrames]
  split
  · exact ⟨Or.inl rfl, fun capped => if_pos capped⟩
  · exact ⟨Or.inr ⟨rfl, rfl⟩, fun _ => rfl⟩

/-- A leaf counts the time of every advance, unless it is over at once. -/
theorem leaf_step_elapsed :
    let step := (leaf.step c ask looping inGap dt s).1
    step.leaf.elapsed = leaf.elapsed + dt ∨ step.result = .done ∧ step.leaf.elapsed = leaf.elapsed := by
  rcases leaf_step_cases leaf c ask looping inGap dt s with
    ⟨_, step⟩ | ⟨_, _, _, step⟩ | ⟨_, _, _, _, step⟩ | ⟨action, choice, block, _, _, _, _, step⟩
  · rw [step]
    exact Or.inr ⟨rfl, rfl⟩
  · rw [step]
    exact Or.inr ⟨rfl, rfl⟩
  · rw [step]
    exact Or.inl rfl
  · rw [step]
    simpa using (playFrames_elapsed (leaf.turnTo choice) looping dt block.frames action.duration).1

/-- A leaf that has reached its cap is over, except in a gap. -/
theorem leaf_step_capped {child : Action} {cap : Float32} (present : c.action? leaf.action = some child)
    (capped : child.duration = some cap) (reached : cap ≤ leaf.elapsed + dt) :
    (leaf.step c ask looping inGap dt s).1.result = .done ↔
      child.kind = .embedded ∨ (child.selectBlock ask s).1.isSome = true := by
  by_cases embedded : child.kind = .embedded
  · simp [leaf_step_embedded leaf c ask looping inGap dt s child present embedded, embedded]
  cases selected : (child.selectBlock ask s).1 with
  | none => simp [leaf_step_gap leaf c ask looping inGap dt s child present embedded selected, embedded]
  | some choice =>
    obtain ⟨block, named⟩ := Option.isSome_iff_exists.mp (selectBlock_isSome child ask s choice selected)
    have ends := (playFrames_elapsed (leaf.turnTo choice) looping dt block.frames child.duration).2
    rw [turnTo_elapsed, capped] at ends
    rw [leaf_step_frames leaf c ask looping inGap dt s child choice block present embedded selected named, capped]
    simpa using ends (by simpa using reached)

/-- Without time a new leaf has taken none. -/
theorem fresh_step_elapsed (action : Nat) :
    (LeafCursor.step { action } c ask looping inGap 0.0 s).1.leaf.elapsed = 0.0 := by
  have none : (0.0 : Float32) + 0.0 = 0.0 := by decide +kernel
  rcases leaf_step_elapsed { action } c ask looping inGap 0.0 s with counted | ⟨_, kept⟩
  · exact counted.trans none
  · exact kept

end Leaf

/-! ## One advance of a sequence -/

/-- The sequence is over, or it has just entered a child: its first one again, or one from this position on. -/
def SequenceStep.EntersFrom (step : SequenceStep) (position : Nat) : Prop :=
  step.result = .completedTerminal ∨
    step.leaf.elapsed = 0.0 ∧ (step.result = .completedLooping ∨ position ≤ step.position)

section Steps

variable {σ : Type} (c : Catalog) (ask : Predicate → StateM σ Bool) (leaves : List Nat) (looping : Bool)

/-- A child that is over makes room for another one, if all passes after it do what they should. -/
theorem stepSequence_leaves (passes position : Nat) (leaf : LeafCursor) (inGap : Bool) (dt : Float32) (s : σ)
    (later : ∀ (child : Nat) (inGap : Bool) (s : σ),
      (c.stepSequence ask leaves looping passes (position + 1) { action := child } inGap 0.0 s).1.EntersFrom
        (position + 1))
    (spent : (sequenceLeafStep c ask leaf inGap dt s).1.result = .done) :
    (c.stepSequence ask leaves looping (passes + 1) position leaf inGap dt s).1.EntersFrom (position + 1) := by
  cases following : leaves[position + 1]? with
  | some child =>
    rw [stepSequence_next c ask leaves looping passes position leaf inGap dt s child spent following]
    exact later child _ _
  | none =>
    by_cases loops : looping = true
    · cases head : leaves.head? with
      | some first =>
        rw [stepSequence_lap c ask leaves looping passes position leaf inGap dt s first spent following head loops]
        exact Or.inr ⟨fresh_step_elapsed c ask false _ _ first, Or.inl rfl⟩
      | none =>
        rw [stepSequence_terminal c ask leaves looping passes position leaf inGap dt s spent following
          fun _ => head]
        exact Or.inl rfl
    · rw [stepSequence_terminal c ask leaves looping passes position leaf inGap dt s spent following
        fun loops' => absurd loops' loops]
      exact Or.inl rfl

/-- Passes without time end at a child that was just entered. The induction is on the passes. -/
theorem stepSequence_entered (passes position child : Nat) (inGap : Bool) (s : σ) :
    (c.stepSequence ask leaves looping passes position { action := child } inGap 0.0 s).1.EntersFrom position := by
  induction passes generalizing position child inGap s with
  | zero => exact Or.inr ⟨rfl, Or.inr (Nat.le_refl position)⟩
  | succ passes ih =>
    by_cases spent : (sequenceLeafStep c ask { action := child } inGap 0.0 s).1.result = .done
    · rcases stepSequence_leaves c ask leaves looping passes position _ inGap 0.0 s (ih (position + 1)) spent with
        ended | ⟨entered, lap | onward⟩
      · exact Or.inl ended
      · exact Or.inr ⟨entered, Or.inl lap⟩
      · exact Or.inr ⟨entered, Or.inr (Nat.le_of_succ_le onward)⟩
    · rw [stepSequence_playing c ask leaves looping passes position _ inGap 0.0 s spent]
      exact Or.inr ⟨fresh_step_elapsed c ask _ inGap s child, Or.inr (Nat.le_refl position)⟩

end Steps

section Advances

variable {c : Catalog} {index : Nat} {action : Action} {leaves : List Nat} {p : Player} {position : Nat}
  {leaf : LeafCursor}

/-- Between two places in a sequence, the child is left if the places differ or the sequence has started over. -/
theorem leavesChild_iff {played : Played} {position' : Nat} {leaf' : LeafCursor}
    (before : played.before.Standing index leaves position leaf)
    (after : played.after.Standing index leaves position' leaf') :
    played.leavesChild = true ↔ played.result = .completedLooping ∨ position' ≠ position := by
  simp [Played.leavesChild, Player.position?, before.cursor, after.cursor, after.going]

/-- An advance that does not end a sequence answers what its step came to, and leaves it there. -/
theorem play_onward (a : Advance) (lap : Nat) (found : c.action? index = some action)
    (standing : p.Standing index leaves position leaf) (going : (a.play c lap p).after.finished = false) :
    let out := (c.stepSequence a.ask leaves action.looping (leaves.length + 1) position leaf p.inGap a.dt a.state).1
    out.result ≠ .completedTerminal ∧ (a.play c lap p).result = out.result ∧
      (a.play c lap p).after.Standing index leaves out.position out.leaf := by
  intro out
  obtain ⟨_, _, _, _, _, _, _, answers⟩ := play_standing a lap found standing
  obtain ⟨t, _, stands⟩ := play_stands a lap found standing
  have advanced := advance_going p c action a.ask a.dt a.state standing.action standing.going found
  rw [advanceAction_sequence p c action a.ask a.dt a.state leaves position leaf standing.cursor] at advanced
  have result : (a.play c lap p).result = out.result := by
    rw [Advance.play, advanced] at going ⊢
    exact conclude_result _ _ _ going
  have cursor : (a.play c lap p).after.cursor = .sequence leaves out.position out.leaf := by
    rw [Advance.play, advanced]
    exact conclude_cursor _ _ _
  have same : t.position = out.position ∧ t.step.leaf = out.leaf := by
    simpa using (stands going).cursor.symm.trans cursor
  refine ⟨fun terminal => ?_, result, ?_⟩
  · rw [answers.mp (result.trans terminal)] at going
    cases going
  · rw [← same.1, ← same.2]
    exact stands going

/-- An advance leaves the child at which a sequence stands if that is over, or the sequence is. The child that is
current after it has taken no time if it is another one, and the time of the advance in addition if it is not. -/
theorem play_child (a : Advance) (lap : Nat) (found : c.action? index = some action)
    (standing : p.Standing index leaves position leaf) :
    let played := a.play c lap p
    (played.leavesChild = true ↔
      (sequenceLeafStep c a.ask leaf p.inGap a.dt a.state).1.result = .done ∨ played.after.finished = true) ∧
    (played.after.finished = false → ∃ position' leaf', played.after.Standing index leaves position' leaf' ∧
      leaf'.elapsed = played.childTime leaf.elapsed) := by
  intro played
  cases ended : played.after.finished with
  | true => simp [Played.leavesChild, ended]
  | false =>
    obtain ⟨going, result, stands⟩ := play_onward a lap found standing ended
    have left : played.leavesChild = true ↔ _ := leavesChild_iff standing stands
    rw [result] at left
    by_cases spent : (sequenceLeafStep c a.ask leaf p.inGap a.dt a.state).1.result = .done
    · have onward := stepSequence_leaves c a.ask leaves action.looping leaves.length position leaf p.inGap a.dt
        a.state (stepSequence_entered c a.ask leaves action.looping leaves.length (position + 1)) spent
      obtain ⟨entered, onward⟩ := onward.resolve_left going
      have leaves' : played.leavesChild = true := left.mpr (onward.imp_right Nat.ne_of_gt)
      exact ⟨by simp [leaves', spent], fun _ => ⟨_, _, stands, by rw [Played.childTime, if_pos leaves', entered]⟩⟩
    · have counted := (leaf_step_elapsed leaf c a.ask (c.childLoops leaf.action) p.inGap a.dt a.state).resolve_right
        fun ended => spent ended.1
      rw [stepSequence_playing c a.ask leaves action.looping leaves.length position leaf p.inGap a.dt a.state spent]
        at left stands
      have stays : played.leavesChild = false := by simpa using left
      exact ⟨by simp [stays, spent], fun _ => ⟨_, _, stands, by rw [Played.childTime, stays]; exact counted⟩⟩

/-- Every advance of a run is of a sequence that is over or of one that stands at a leaf, and the leaf has counted the
time on its child. The induction is on the advances. -/
theorem play_timed (found : c.action? index = some action) (calls : List Advance) (lap : Nat) (p : Player)
    (time : Float32)
    (begins : p.finished = true ∨ ∃ position leaf, p.Standing index leaves position leaf ∧ leaf.elapsed = time)
    (k : Nat) (a : Advance) (played : Played) (called : calls[k]? = some a)
    (there : (c.play p lap calls)[k]? = some played) :
    ∃ lap' q, played = a.play c lap' q ∧ (q.finished = true ∨ ∃ position leaf,
      q.Standing index leaves position leaf ∧
        leaf.elapsed = ((c.play p lap calls).take k).foldl (fun time played => played.childTime time) time) := by
  induction calls generalizing lap p time k with
  | nil => cases called
  | cons b rest ih =>
    cases k with
    | zero =>
      obtain rfl := Option.some.inj called
      obtain rfl := Option.some.inj there
      exact ⟨lap, p, rfl, begins⟩
    | succ k =>
      refine ih (lapAfter lap (b.play c lap p).turns) (b.play c lap p).after ((b.play c lap p).childTime time) ?_ k
        called there
      cases going : (b.play c lap p).after.finished with
      | true => exact Or.inl rfl
      | false =>
        rcases begins with ended | ⟨position, leaf, standing, rfl⟩
        · rw [(play_finished b c lap p ended).2.2, ended] at going
          cases going
        · exact Or.inr ((play_child b lap found standing).2 going)

/-- A sequence without leaves is over at once. -/
theorem start_over (found : c.action? index = some action) (sequence : action.kind = .sequence)
    (empty : c.leaves maxSequenceDepth index = []) : (Player.start index c).finished = true := by
  rw [Player.start, found]
  simp [sequence, empty]

end Advances

/-- In a run of a sequence of a pack, an advance with which the time on the current child reaches the cap of the child
leaves it exactly if the child is a call of the host or a block of it is selected, or if the sequence is over. A child
that an advance enters has not reached its cap then. -/
theorem capped_children_left (p : PackSpec) (c : Catalog) (issues : List Issue)
    (compiled : p.compile = .ok (c, issues)) (index : Nat) (action : Action)
    (found : c.action? index = some action) (sequence : action.kind = .sequence) (calls : List Advance) (k : Nat)
    (a : Advance) (played : Played) (called : calls[k]? = some a)
    (there : (c.play (Player.start index c) 0 calls)[k]? = some played) :
    let run := c.play (Player.start index c) 0 calls
    (∀ child cap, played.before.leafAction?.bind c.action? = some child → child.duration = some cap →
      cap ≤ timeOnChild (run.take k) + played.dt →
        (played.leavesChild = true ↔
          child.kind = .embedded ∨ (child.selectBlock a.ask a.state).1.isSome = true ∨
            played.after.finished = true)) ∧
    ∀ child cap, played.after.leafAction?.bind c.action? = some child → child.duration = some cap →
      played.leavesChild = true → ¬ cap ≤ timeOnChild (run.take (k + 1)) := by
  intro run
  have begins : (Player.start index c).finished = true ∨ ∃ position leaf,
      (Player.start index c).Standing index (c.leaves maxSequenceDepth index) position leaf ∧ leaf.elapsed = 0.0 := by
    cases head : (c.leaves maxSequenceDepth index)[0]? with
    | none => exact Or.inl (start_over found sequence (List.isEmpty_iff.mp (by simpa using head)))
    | some first => exact Or.inr ⟨0, _, start_stands found sequence first head, rfl⟩
  obtain ⟨lap, q, rfl, stands⟩ := play_timed found calls 0 _ 0.0 begins k a played called there
  refine ⟨fun child cap current capped reached => ?_, fun child cap current capped left => ?_⟩
  · rcases stands with ended | ⟨position, leaf, standing, counted⟩
    · have still : (a.play c lap q).after.finished = true := by rw [(play_finished a c lap q ended).2.2, ended]
      simp [Played.leavesChild, still]
    · have present : c.action? leaf.action = some child := by
        have same : q.leafAction? = some leaf.action := by
          rw [Player.leafAction?, Player.leaf?, standing.cursor]
          rfl
        change q.leafAction?.bind c.action? = _ at current
        rwa [same] at current
      have reached' : cap ≤ leaf.elapsed + a.dt := by
        rw [counted]
        exact reached
      rw [(play_child a lap found standing).1, sequenceLeafStep,
        leaf_step_capped leaf c a.ask _ q.inGap a.dt a.state present capped reached', or_assoc]
  · have member : child ∈ c.actions := by
      obtain ⟨i, _, listed⟩ := Option.bind_eq_some_iff.mp current
      exact List.mem_of_getElem? listed
    have positive := ((compiled_packs_wellFormed p c issues compiled).playable child member).cap cap capped
    have entered : timeOnChild (run.take (k + 1)) = 0.0 := by
      rw [timeOnChild, List.take_add_one, there]
      simp [Played.childTime, left]
    rw [entered]
    exact fun reached => Number.not_lt_of_le cap 0.0 reached positive.2

/-- A tour that waits for a second on the floor, and rests then. -/
def vigilPack : PackSpec :=
  { name := "vigil"
    defaultBehavior := "rest"
    actions :=
      [{ name := "wait", kind := "Stay", duration := some 1.0
         animations := [{ condition := some "onFloor", frames := [{ image := some "wait.png" }] }] },
       { name := "rest", kind := "Stay", animations := [{ frames := [{ image := some "rest.png" }] }] },
       { name := "tour", kind := "Sequence", references := ["wait", "rest"] }]
    behaviors := [{ name := "rest" }] }

/-- Two advances in the air and one on the floor. -/
def vigilCalls : List Advance :=
  [(0.5, false), (0.75, false), (0.25, true)].map fun (dt, onFloor) =>
    { State := Unit, ask := fun _ => pure onFloor, state := (), dt }

/-- The second of waiting is over with the second advance, which does not leave the child. -/
theorem capped_child_waits_in_gap :
    ∃ (c : Catalog) (issues : List Issue) (played : Played), vigilPack.compile = .ok (c, issues) ∧
      (c.play (Player.start 2 c) 0 vigilCalls)[1]? = some played ∧
      (played.before.leafAction?.bind c.action?).bind (·.duration) = some 1.0 ∧
      1.0 ≤ timeOnChild ((c.play (Player.start 2 c) 0 vigilCalls).take 1) + played.dt ∧
      played.leavesChild = false := by
  refine ⟨_, _, _, rfl, rfl, ?_⟩
  decide +kernel

/-- The third advance leaves it, with a quarter of a second on the floor. -/
theorem capped_children_left_vigil :
    ∃ (c : Catalog) (issues : List Issue) (played : Played) (child : Action),
      vigilPack.compile = .ok (c, issues) ∧
      (c.play (Player.start 2 c) 0 vigilCalls)[2]? = some played ∧
      played.before.leafAction?.bind c.action? = some child ∧ child.duration = some 1.0 ∧
      1.0 ≤ timeOnChild ((c.play (Player.start 2 c) 0 vigilCalls).take 2) + played.dt ∧
      played.leavesChild = true := by
  have reached : ∃ (c : Catalog) (issues : List Issue) (action : Action) (played : Played),
      vigilPack.compile = .ok (c, issues) ∧ c.action? 2 = some action ∧ action.kind = .sequence ∧
      (c.play (Player.start 2 c) 0 vigilCalls)[2]? = some played ∧
      (played.before.leafAction?.bind c.action?).map
          (fun child => (child.duration, (child.selectBlock (fun _ => pure true) ()).1.isSome)) =
        some (some 1.0, true) ∧
      1.0 ≤ timeOnChild ((c.play (Player.start 2 c) 0 vigilCalls).take 2) + played.dt := by
    refine ⟨_, _, _, _, rfl, rfl, rfl, rfl, ?_⟩
    decide +kernel
  obtain ⟨c, issues, action, played, compiled, found, sequence, there, waiting, reached⟩ := reached
  obtain ⟨child, current, facts⟩ := Option.map_eq_some_iff.mp waiting
  obtain ⟨capped, selected⟩ := Prod.mk.inj facts
  have left := (capped_children_left vigilPack c issues compiled 2 action found sequence vigilCalls 2 _ played rfl
    there).1 child 1.0 current capped reached
  exact ⟨c, issues, played, child, compiled, there, current, capped, reached,
    left.mpr (Or.inr (Or.inl selected))⟩

end DesktopPet
