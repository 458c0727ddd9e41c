import DesktopPet.Proofs.Playback.Frames
import Mathlib.Data.List.Chain

/-!
# Turns of a sequence

Within one advance a sequence may step many of its leaves. `Catalog.sequenceTurns` is the step of a sequence
with a record of these turns; it computes the same step (`sequenceTurns_step`). `SequenceRun` says once what the
turns of an advance can be, and the facts about them are inductions on it.
-/

namespace DesktopPet

open Condition (Predicate)

/-- One step of one leaf cursor of a sequence. -/
structure Turn where
  /-- How often the sequence has started over. -/
  lap : Nat
  /-- The place of the leaf among the leaves. -/
  position : Nat
  before : LeafCursor
  step : LeafStep

/-- `stepSequence` with the turns it takes. The lap goes up where the cursor of the first leaf is made anew. -/
def Catalog.sequenceTurns {σ : Type} (c : Catalog) (ask : Predicate → StateM σ Bool) (leaves : List Nat)
    (looping : Bool) :
    Nat → Nat → Nat → LeafCursor → Bool → Float32 → StateM σ (SequenceStep × List Turn)
  | 0, _, position, leaf, inGap, _ => pure ({ result := .playing, position, leaf, inGap, events := {} }, [])
  | passes + 1, lap, position, leaf, inGap, dt => do
    let step ← leaf.step c ask (c.childLoops leaf.action) inGap dt
    if step.result = .done then
      match leaves[position + 1]? with
      | some child =>
        let (rest, turns) ←
          c.sequenceTurns ask leaves looping passes lap (position + 1) { action := child } step.inGap 0.0
        pure ({ rest with events := step.events ++ rest.events }, ⟨lap, position, leaf, step⟩ :: turns)
      | none =>
        match looping, leaves.head? with
        | true, some first =>
          let entry ← LeafCursor.step { action := first } c ask false step.inGap 0.0
          pure ({ result := .completedLooping, position := 0, leaf := entry.leaf, inGap := entry.inGap,
                  events := step.events ++ entry.events },
            [⟨lap, position, leaf, step⟩, ⟨lap + 1, 0, { action := first }, entry⟩])
        | _, _ =>
          pure ({ result := .completedTerminal, position := position + 1, leaf := step.leaf,
                  inGap := step.inGap, events := step.events }, [⟨lap, position, leaf, step⟩])
    else
      pure ({ result := .playing, position, leaf := step.leaf, inGap := step.inGap, events := step.events },
        [⟨lap, position, leaf, step⟩])

/-- The turns of one advance of a player. -/
def Player.turns {σ : Type} (p : Player) (c : Catalog) (ask : Predicate → StateM σ Bool) (lap : Nat)
    (dt : Float32) (s : σ) : List Turn :=
  match p.cursor, p.action.bind c.action? with
  | .sequence leaves position leaf, some action =>
    if p.finished then []
    else
      (c.sequenceTurns ask leaves action.looping (leaves.length + 1) lap position leaf p.inGap dt s).1.2
  | _, _ => []

/-! ## Turns of one advance -/

/-- The leaf takes this step under some callback. -/
def LeafCursor.Takes (c : Catalog) (leaf : LeafCursor) (step : LeafStep) : Prop :=
  ∃ (σ : Type) (ask : Predicate → StateM σ Bool) (looping inGap : Bool) (dt : Float32) (s : σ),
    step = (leaf.step c ask looping inGap dt s).1

/-- What a sequence can do in one advance, from a lap, a position and a leaf on. -/
inductive SequenceRun (c : Catalog) (leaves : List Nat) (looping : Bool) (lap : Nat) :
    Nat → LeafCursor → SequenceStep → List Turn → Prop where
  | playing {position : Nat} {leaf : LeafCursor} {step : LeafStep}
      (taken : leaf.Takes c step) (going : step.result ≠ .done) :
      SequenceRun c leaves looping lap position leaf
        { result := .playing, position, leaf := step.leaf, inGap := step.inGap, events := step.events }
        [⟨lap, position, leaf, step⟩]
  | next {position child : Nat} {leaf : LeafCursor} {step : LeafStep} {rest : SequenceStep}
      {turns : List Turn} (taken : leaf.Takes c step) (spent : step.result = .done)
      (following : leaves[position + 1]? = some child)
      (run : SequenceRun c leaves looping lap (position + 1) { action := child } rest turns) :
      SequenceRun c leaves looping lap position leaf { rest with events := step.events ++ rest.events }
        (⟨lap, position, leaf, step⟩ :: turns)
  | again {position first : Nat} {leaf : LeafCursor} {step entry : LeafStep}
      (taken : leaf.Takes c step) (spent : step.result = .done) (last : leaves[position + 1]? = none)
      (loops : looping = true) (head : leaves.head? = some first)
      (entered : LeafCursor.Takes c { action := first } entry) :
      SequenceRun c leaves looping lap position leaf
        { result := .completedLooping, position := 0, leaf := entry.leaf, inGap := entry.inGap,
          events := step.events ++ entry.events }
        [⟨lap, position, leaf, step⟩, ⟨lap + 1, 0, { action := first }, entry⟩]
  | finish {position : Nat} {leaf : LeafCursor} {step : LeafStep}
      (taken : leaf.Takes c step) (spent : step.result = .done) (last : leaves[position + 1]? = none)
      (ends : looping = false) :
      SequenceRun c leaves looping lap position leaf
        { result := .completedTerminal, position := position + 1, leaf := step.leaf, inGap := step.inGap,
          events := step.events }
        [⟨lap, position, leaf, step⟩]

section Steps

variable {σ : Type} (c : Catalog) (ask : Predicate → StateM σ Bool) (leaves : List Nat) (looping : Bool)

/-- The turns are recorded beside the step that a sequence takes anyway. -/
theorem sequenceTurns_step (passes lap position : Nat) (leaf : LeafCursor) (inGap : Bool) (dt : Float32)
    (s : σ) :
    let traced := c.sequenceTurns ask leaves looping passes lap position leaf inGap dt s
    (traced.1.1, traced.2) = c.stepSequence ask leaves looping passes position leaf inGap dt s := by
  induction passes generalizing position leaf inGap dt s with
  | zero => rfl
  | succ passes ih =>
    simp only [Catalog.sequenceTurns, stateM_bind_apply]
    by_cases spent : (sequenceLeafStep c ask leaf inGap dt s).1.result = .done
    · have stepDone := spent
      rw [sequenceLeafStep] at stepDone
      rw [if_pos stepDone]
      cases following : leaves[position + 1]? with
      | some child =>
        rw [stepSequence_next c ask leaves looping passes position leaf inGap dt s child spent following]
        simp only [stateM_bind_apply, sequenceLeafStep]
        rw [← ih]
        rfl
      | none =>
        cases looping with
        | false =>
          rw [stepSequence_terminal c ask leaves false passes position leaf inGap dt s spent following
            (fun loops => absurd loops Bool.false_ne_true)]
          rfl
        | true =>
          cases head : leaves.head? with
          | none =>
            rw [stepSequence_terminal c ask leaves true passes position leaf inGap dt s spent following
              (fun _ => head)]
            rfl
          | some first =>
            rw [stepSequence_lap c ask leaves true passes position leaf inGap dt s first spent following head rfl]
            rfl
    · have going := spent
      rw [sequenceLeafStep] at going
      rw [if_neg going, stepSequence_playing c ask leaves looping passes position leaf inGap dt s spent]
      rfl

/-- The passes of an advance are enough: each takes one leaf, and there is one more of them than leaves. -/
theorem sequenceTurns_run (passes lap position : Nat) (leaf : LeafCursor) (inGap : Bool) (dt : Float32) (s : σ)
    (inside : position < leaves.length) (enough : leaves.length < position + passes) :
    let traced := (c.sequenceTurns ask leaves looping passes lap position leaf inGap dt s).1
    SequenceRun c leaves looping lap position leaf traced.1 traced.2 := by
  induction passes generalizing position leaf inGap dt s with
  | zero => omega
  | succ passes ih =>
    have taken : leaf.Takes c (leaf.step c ask (c.childLoops leaf.action) inGap dt s).1 :=
      ⟨σ, ask, _, inGap, dt, s, rfl⟩
    simp only [Catalog.sequenceTurns, stateM_bind_apply]
    by_cases spent : (leaf.step c ask (c.childLoops leaf.action) inGap dt s).1.result = .done
    · rw [if_pos spent]
      cases following : leaves[position + 1]? with
      | some child =>
        have within : position + 1 < leaves.length := (List.getElem?_eq_some_iff.mp following).1
        exact .next taken spent following (ih (position + 1) _ _ _ _ within (by omega))
      | none =>
        cases looping with
        | false => exact .finish taken spent following rfl
        | true =>
          have head : leaves.head? = some leaves[0] := by
            rw [List.head?_eq_getElem?, List.getElem?_eq_getElem (by omega)]
          simp only [head]
          exact .again taken spent following rfl head ⟨σ, ask, _, _, _, _, rfl⟩
    · rw [if_neg spent]
      exact .playing taken spent

end Steps

/-! ## The order of turns -/

/-- A leaf cursor as it is made for the leaf at a position. -/
def Turn.Fresh (leaves : List Nat) (t : Turn) : Prop :=
  ∃ child, leaves[t.position]? = some child ∧ t.before = { action := child }

/-- A turn after another. The same cursor goes on, or its leaf is over and a cursor is made for the leaf after
it: for the first leaf only after the last one, and only if the sequence loops. -/
inductive Turn.Follows (leaves : List Nat) (looping : Bool) (t t' : Turn) : Prop where
  | stays (lap : t'.lap = t.lap) (position : t'.position = t.position) (kept : t'.before = t.step.leaf)
  | next (spent : t.step.result = .done) (lap : t'.lap = t.lap) (position : t'.position = t.position + 1)
      (fresh : t'.Fresh leaves)
  | again (spent : t.step.result = .done) (last : t.position + 1 = leaves.length) (loops : looping = true)
      (lap : t'.lap = t.lap + 1) (position : t'.position = 0) (fresh : t'.Fresh leaves)

/-- The turn steps the leaf of its position, as that leaf steps. -/
structure Turn.Sound (c : Catalog) (leaves : List Nat) (t : Turn) : Prop where
  placed : leaves[t.position]? = some t.before.action
  taken : t.before.Takes c t.step

theorem Turn.Fresh.placed {leaves : List Nat} {t : Turn} (fresh : t.Fresh leaves) :
    leaves[t.position]? = some t.before.action := by
  obtain ⟨child, there, made⟩ := fresh
  rw [there, made]

@[simp] theorem embedded_append (e f : PlayEvents) : (e ++ f).embedded = e.embedded ++ f.embedded := rfl

theorem takes_action {c : Catalog} {leaf : LeafCursor} {step : LeafStep} (taken : leaf.Takes c step) :
    step.leaf.action = leaf.action := by
  obtain ⟨σ, ask, looping, inGap, dt, s, rfl⟩ := taken
  exact leaf_step_action leaf c ask looping inGap dt s

namespace SequenceRun

variable {c : Catalog} {leaves : List Nat} {looping : Bool} {lap position : Nat} {leaf : LeafCursor}
  {step : SequenceStep} {turns : List Turn}

/-- The first turn is that of the cursor that stands. -/
theorem head (run : SequenceRun c leaves looping lap position leaf step turns) :
    ∃ first others, turns = first :: others ∧ first.lap = lap ∧ first.position = position ∧
      first.before = leaf := by
  cases run <;> exact ⟨_, _, rfl, rfl, rfl, rfl⟩

theorem sound (run : SequenceRun c leaves looping lap position leaf step turns)
    (placed : leaves[position]? = some leaf.action) : ∀ t ∈ turns, t.Sound c leaves := by
  induction run with
  | playing taken _ => simpa using ⟨placed, taken⟩
  | next taken _ following _ ih => simpa using ⟨⟨placed, taken⟩, ih following⟩
  | again taken _ _ _ head entered =>
    rw [List.head?_eq_getElem?] at head
    simpa using ⟨⟨placed, taken⟩, ⟨head, entered⟩⟩
  | finish taken _ _ _ => simpa using ⟨placed, taken⟩

theorem chain (run : SequenceRun c leaves looping lap position leaf step turns)
    (inside : position < leaves.length) : turns.IsChain (Turn.Follows leaves looping) := by
  induction run with
  | playing _ _ => exact .singleton _
  | next _ spent following run ih =>
    have within := (List.getElem?_eq_some_iff.mp following).1
    obtain ⟨first, others, rfl, sameLap, after, made⟩ := run.head
    refine .cons_cons (.next spent sameLap after ?_) (ih within)
    exact ⟨_, by rw [after]; exact following, made⟩
  | @again position _ _ _ _ _ spent last loops head _ =>
    have ended : position + 1 = leaves.length := by
      have := List.getElem?_eq_none_iff.mp last
      omega
    rw [List.head?_eq_getElem?] at head
    exact .cons_cons (.again spent ended loops rfl rfl ⟨_, head, rfl⟩) (.singleton _)
  | finish _ _ _ _ => exact .singleton _

/-- The cursor that the advance leaves is that of its last turn. -/
theorem last (run : SequenceRun c leaves looping lap position leaf step turns) :
    ∃ t, turns.getLast? = some t ∧ step.leaf = t.step.leaf ∧
      (step.result ≠ .completedTerminal → step.position = t.position) := by
  induction run with
  | playing _ _ => exact ⟨_, rfl, rfl, fun _ => rfl⟩
  | next _ _ _ run ih =>
    obtain ⟨first, others, rfl, _⟩ := run.head
    obtain ⟨t, there, same, stands⟩ := ih
    exact ⟨t, by simpa using there, same, stands⟩
  | again _ _ _ _ _ _ => exact ⟨_, rfl, rfl, fun _ => rfl⟩
  | finish _ _ _ _ => exact ⟨_, rfl, rfl, fun going => absurd rfl going⟩

/-- An advance starts at most one more lap. -/
theorem laps (run : SequenceRun c leaves looping lap position leaf step turns) :
    ∀ t ∈ turns, lap ≤ t.lap ∧ t.lap ≤ lap + 1 := by
  induction run with
  | playing _ _ => simp
  | next _ _ _ _ ih => simpa using ih
  | again _ _ _ _ _ _ => simp
  | finish _ _ _ _ => simp

/-- The events of an advance are those of its turns. -/
theorem embedded (run : SequenceRun c leaves looping lap position leaf step turns) :
    step.events.embedded = turns.flatMap (·.step.events.embedded) := by
  induction run with
  | playing _ _ => simp
  | next _ _ _ _ ih => simp [ih]
  | again _ _ _ _ _ _ => simp
  | finish _ _ _ _ => simp

/-- A sequence ends when its last leaf is over, unless it loops. -/
theorem terminal_iff (run : SequenceRun c leaves looping lap position leaf step turns)
    (inside : position < leaves.length) :
    step.result = .completedTerminal ↔
      looping = false ∧ ∃ t ∈ turns, t.position + 1 = leaves.length ∧ t.step.result = .done := by
  induction run with
  | playing _ going => simp [going]
  | @next position _ _ _ _ _ _ _ following _ ih =>
    have within := (List.getElem?_eq_some_iff.mp following).1
    have before : position + 1 ≠ leaves.length := by omega
    simp [ih within, before]
  | again _ _ _ loops _ _ => simp [loops]
  | @finish position _ _ _ spent last ends =>
    have ended : position + 1 = leaves.length := by
      have := List.getElem?_eq_none_iff.mp last
      omega
    simp [ends, ended, spent]

end SequenceRun

end DesktopPet
