import DesktopPet.Catalog

/-!
# Playback

A player walks the frames of one action. Each advance picks the block to play, moves through the
frames whose time is up, and collects the sounds of the frames it enters and the calls of the host
that it meets. A sequence is flattened into its leaves when it starts, and they play one after
another. While no block of an action holds, the last frame stays in place and no frame time passes.
-/

namespace DesktopPet

open Condition (Predicate)

inductive PlayResult where
  | playing
  /-- A looping action started over. -/
  | completedLooping
  /-- The action is over. -/
  | completedTerminal
  deriving DecidableEq, Repr

/-- What an advance gave rise to: sounds with their gain, and actions handed to the host. -/
structure PlayEvents where
  sounds : List (String × Float32) := []
  embedded : List Nat := []
  deriving DecidableEq, Repr

def PlayEvents.append (e f : PlayEvents) : PlayEvents :=
  ⟨e.sounds ++ f.sounds, e.embedded ++ f.embedded⟩

instance : Append PlayEvents := ⟨PlayEvents.append⟩

structure LeafCursor where
  action : Nat
  block : Option BlockRef := none
  frame : Nat := 0
  /-- Seconds spent in the frame. -/
  timer : Float32 := 0.0
  /-- Seconds spent in the action. -/
  elapsed : Float32 := 0.0
  /-- The current frame, or the call of the host, has been entered. -/
  entered : Bool := false
  deriving DecidableEq, Repr

inductive Cursor where
  | stopped
  | single (leaf : LeafCursor)
  | sequence (leaves : List Nat) (position : Nat) (leaf : LeafCursor)
  deriving DecidableEq, Repr

inductive LeafResult where
  | playing | wrapped | done
  deriving DecidableEq, Repr

structure Player where
  action : Option Nat := none
  cursor : Cursor := .stopped
  /-- Seconds since the action started. -/
  elapsed : Float32 := 0.0
  finished : Bool := false
  /-- No block held in the last advance. -/
  inGap : Bool := false
  deriving DecidableEq, Repr

/-- Frames passed in one advance at most. -/
def maxFrameSteps : Nat := 1024

/-- Depth at which nested sequences are cut off. -/
def maxSequenceDepth : Nat := 32

/-- The leaves of an action in playing order; `depth` more levels of sequences are opened. -/
def Catalog.leaves (c : Catalog) : Nat → Nat → List Nat
  | depth, index =>
    match c.action? index with
    | none => []
    | some action =>
      if action.kind = .sequence then
        match depth with
        | 0 => []
        | depth + 1 => action.references.flatMap (c.leaves depth)
      else [index]

/-- The events of entering a frame. -/
def Frame.enter (f : Frame) : PlayEvents :=
  { sounds := (f.sound.map fun sound => (sound, f.volume)).toList }

/-- What the leaf of an action by itself means for the action. -/
def LeafResult.toPlayResult : LeafResult → PlayResult
  | .playing => .playing
  | .wrapped => .completedLooping
  | .done => .completedTerminal

structure LeafStep where
  result : LeafResult
  leaf : LeafCursor
  inGap : Bool
  events : PlayEvents := {}
  deriving DecidableEq, Repr

/-- Passes the frames whose time is up, at most `steps` of them, from frame `i` with `timer` seconds
spent in it. Answers the result, the frame reached, the time left over and the events. When the last
step is spent and time is left for another, the rest of the time is dropped. -/
def passFrames (frames : List Frame) (looping : Bool) :
    Nat → LeafResult → Fin frames.length → Float32 → LeafResult × Nat × Float32 × PlayEvents
  | 0, result, i, timer => (result, i, if frames[i].duration ≤ timer then 0.0 else timer, {})
  | steps + 1, result, i, timer =>
    if frames[i].duration ≤ timer then
      let timer := timer - frames[i].duration
      if h : i.val + 1 < frames.length then
        let (result, j, timer, events) := passFrames frames looping steps result ⟨i.val + 1, h⟩ timer
        (result, j, timer, frames[i.val + 1].enter ++ events)
      else if looping then
        let first : Fin frames.length := ⟨0, Nat.zero_lt_of_lt i.isLt⟩
        let (result, j, timer, events) := passFrames frames looping steps .wrapped first timer
        (result, j, timer, frames[first].enter ++ events)
      else (.done, i, 0.0, {})
    else (result, i, timer, {})

def LeafCursor.playFrames (leaf : LeafCursor) (frames : List Frame) (cap : Option Float32) (looping : Bool)
    (dt : Float32) : LeafStep :=
  if h : leaf.frame < frames.length then
    let entering := if leaf.entered then {} else frames[leaf.frame].enter
    let elapsed := leaf.elapsed + dt
    let (result, frame, timer, events) :=
      passFrames frames looping maxFrameSteps .playing ⟨leaf.frame, h⟩ (leaf.timer + dt)
    { result := if cap.any (· ≤ elapsed) then .done else result
      leaf := { leaf with frame, timer, elapsed, entered := true }
      inGap := false
      events := entering ++ events }
  else { result := .done, leaf, inGap := false }

/-- Turns a leaf to the block that was selected; a change of block starts it from its first frame. -/
def LeafCursor.turnTo (leaf : LeafCursor) (choice : BlockRef) : LeafCursor :=
  if leaf.block = some choice then leaf
  else { leaf with block := some choice, frame := 0, timer := 0.0, entered := false }

/-- Advances one leaf by `dt` seconds. A call of the host is over at once; without a block that holds
only the time of the action passes. -/
def LeafCursor.step {σ : Type} (leaf : LeafCursor) (c : Catalog) (ask : Predicate → StateM σ Bool)
    (looping inGap : Bool) (dt : Float32) : StateM σ LeafStep := do
  match c.action? leaf.action with
  | none => pure { result := .done, leaf, inGap }
  | some action =>
    if action.kind = .embedded then
      pure { result := .done
             leaf := { leaf with entered := true }
             inGap
             events := if leaf.entered then {} else { embedded := [leaf.action] } }
    else
      match ← action.selectBlock ask with
      | none => pure { result := .playing, leaf := { leaf with elapsed := leaf.elapsed + dt }, inGap := true }
      | some choice =>
        let leaf := leaf.turnTo choice
        match action.block? choice with
        | none => pure { result := .done, leaf, inGap := false }
        | some block => pure (leaf.playFrames block.frames action.duration looping dt)

structure SequenceStep where
  result : PlayResult
  position : Nat
  leaf : LeafCursor
  inGap : Bool
  events : PlayEvents
  deriving DecidableEq, Repr

/-- A child of a sequence repeats its frames if it loops and its own time cap ends it. -/
def Catalog.childLoops (c : Catalog) (child : Nat) : Bool :=
  (c.action? child).any fun action => action.looping && action.duration.isSome

/-- Advances a sequence by `dt` seconds: steps the current leaf, and on to the next one with no time
left while leaves are over. A looping sequence starts its next lap at once, enters its first leaf and
stops there. `passes` bounds the number of leaves tried. -/
def Catalog.stepSequence {σ : Type} (c : Catalog) (ask : Predicate → StateM σ Bool) (leaves : List Nat)
    (looping : Bool) : Nat → Nat → LeafCursor → Bool → Float32 → StateM σ SequenceStep
  | 0, position, leaf, inGap, _ => pure { result := .playing, position, leaf, inGap, events := {} }
  | passes + 1, position, leaf, inGap, dt => do
    let step ← leaf.step c ask (c.childLoops leaf.action) inGap dt
    if step.result = .done then
      match leaves[position + 1]? with
      | some child =>
        let rest ← c.stepSequence ask leaves looping passes (position + 1) { action := child } step.inGap 0.0
        pure { rest with events := step.events ++ rest.events }
      | none =>
        match looping, leaves.head? with
        | true, some first =>
          let lap ← LeafCursor.step { action := first } c ask false step.inGap 0.0
          pure { result := .completedLooping, position := 0, leaf := lap.leaf, inGap := lap.inGap,
                 events := step.events ++ lap.events }
        | _, _ =>
          pure { result := .completedTerminal, position := position + 1, leaf := step.leaf,
                 inGap := step.inGap, events := step.events }
    else
      pure { result := .playing, position, leaf := step.leaf, inGap := step.inGap, events := step.events }

namespace Player

/-- A player that starts an action from its first frame. An action that is not there, or a sequence
without leaves, is over at once. -/
def start (action : Nat) (c : Catalog) : Player :=
  match c.action? action with
  | none => { action := some action, finished := true }
  | some found =>
    if found.kind = .sequence then
      match c.leaves maxSequenceDepth action with
      | [] => { action := some action, finished := true }
      | first :: others =>
        { action := some action, cursor := .sequence (first :: others) 0 { action := first } }
    else { action := some action, cursor := .single { action } }

def stop : Player := {}

def leaf? (p : Player) : Option LeafCursor :=
  match p.cursor with
  | .stopped => none
  | .single leaf => some leaf
  | .sequence _ _ leaf => some leaf

/-- The action whose frames are shown. -/
def leafAction? (p : Player) : Option Nat :=
  p.leaf?.map (·.action)

def block? (p : Player) : Option BlockRef :=
  p.leaf?.bind (·.block)

def frameIndex? (p : Player) : Option Nat :=
  (p.leaf?.filter (·.block.isSome)).map (·.frame)

def currentFrame? (p : Player) (c : Catalog) : Option Frame := do
  let leaf ← p.leaf?
  let action ← c.action? leaf.action
  let block ← action.block? (← leaf.block)
  block.frames[leaf.frame]?

/-- The authored velocity of the frame that is shown. Only a moving action that plays has one. -/
def frameVelocity (p : Player) (c : Catalog) : Vector2 :=
  if p.inGap || p.finished then .zero
  else
    match p.leafAction?.bind c.action? with
    | some action =>
      if action.kind = .move then ((p.currentFrame? c).map (·.velocity)).getD .zero else .zero
    | none => .zero

/-- An action is over once an advance came to its end. -/
def finishIf (p : Player) (result : PlayResult) : Player :=
  if result = .completedTerminal then { p with finished := true } else p

/-- The time cap of an action ends it, whatever its frames came to. -/
def applyCap (p : Player) (cap : Option Float32) (result : PlayResult) : PlayResult × Player :=
  if !p.finished && cap.any (· ≤ p.elapsed) then (.completedTerminal, { p with finished := true })
  else (result, p)

/-- Advances an action that is there and not over. -/
def advanceAction {σ : Type} (p : Player) (c : Catalog) (action : Action) (ask : Predicate → StateM σ Bool)
    (dt : Float32) : StateM σ (PlayResult × PlayEvents × Player) := do
  let p := { p with elapsed := p.elapsed + dt }
  match p.cursor with
  | .stopped => pure (.completedTerminal, {}, { p with finished := true })
  | .single leaf =>
    let step ← leaf.step c ask action.looping p.inGap dt
    let result := step.result.toPlayResult
    let p := { p with cursor := .single step.leaf, inGap := step.inGap }
    let (result, p) := (p.finishIf result).applyCap action.duration result
    pure (result, step.events, p)
  | .sequence leaves position leaf =>
    let step ← c.stepSequence ask leaves action.looping (leaves.length + 1) position leaf p.inGap dt
    let p := { p with cursor := .sequence leaves step.position step.leaf, inGap := step.inGap }
    let (result, p) := (p.finishIf step.result).applyCap action.duration step.result
    pure (result, step.events, p)

/-- Advances playback by `dt` seconds. Without an action there is nothing to play, and an action that
is over stays over. -/
def advance {σ : Type} (p : Player) (c : Catalog) (ask : Predicate → StateM σ Bool) (dt : Float32) :
    StateM σ (PlayResult × PlayEvents × Player) :=
  match p.action with
  | none => pure (.completedTerminal, {}, p)
  | some index =>
    if p.finished then pure (.completedTerminal, {}, p)
    else
      match c.action? index with
      | none => pure (.completedTerminal, {}, { p with finished := true })
      | some action => p.advanceAction c action ask dt

end Player

end DesktopPet
