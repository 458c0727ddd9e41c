import DesktopPet.Catalog
import DesktopPet.Number.PowerOfTen
import DesktopPet.Pack.Spec

/-!
# Compiling packs

`PackSpec.compile` checks a pack, compiles its conditions and resolves its names to indices. A fault
of one definition is reported as an issue and the definition goes on without the faulty part, or is
dropped; only a pack without a usable default behavior is refused.
-/

namespace DesktopPet

namespace Pack

open Condition (CompileError Predicate)

inductive PackError where
  | noBehaviors (pack : String)
  | missingDefaultBehavior (pack name : String)
  deriving DecidableEq, Repr

def PackError.message : PackError → String
  | .noBehaviors pack => "pack '" ++ pack ++ "' has no usable behaviors"
  | .missingDefaultBehavior pack name =>
    "pack '" ++ pack ++ "': default behavior '" ++ name ++ "' is missing or was dropped"

inductive Table where
  | actions | behaviors
  deriving DecidableEq, Repr

/-- The interactions for which a pack may name a behavior. -/
inductive Role where
  | dragged | thrown
  deriving DecidableEq, Repr

/-- Faults that do not keep a pack from loading. -/
inductive Issue where
  | invalidCondition (owner source : String) (error : CompileError)
  | unknownActionKind (action kind : String)
  | unknownBorderType (action border : String)
  | emptyBlock (action : String)
  | noFrames (action : String)
  | unknownSequenceRef (action reference : String)
  | sequenceCycle (action : String)
  | duplicate (table : Table) (name : String)
  | unknownActionRef (behavior action : String)
  | unknownNextBehavior (behavior next : String)
  | frequencyClamped (behavior : String) (value : UInt32)
  | unknownInteractionBehavior (role : Role) (name : String)
  deriving DecidableEq, Repr

/-- Frequencies above this count as this. -/
def maxFrequency : UInt32 := 100

def Table.entry : Table → String
  | .actions => "action"
  | .behaviors => "behavior"

def Role.name : Role → String
  | .dragged => "dragged"
  | .thrown => "thrown"

def Issue.message : Issue → String
  | .invalidCondition owner source error =>
    owner ++ ": condition '" ++ source ++ "' does not compile (" ++ error.message ++ "); it will never match"
  | .unknownActionKind action kind =>
    "action '" ++ action ++ "': unknown kind '" ++ kind ++ "', action dropped"
  | .unknownBorderType action border =>
    "action '" ++ action ++ "': unknown border type '" ++ border ++ "', ignored"
  | .emptyBlock action => "action '" ++ action ++ "': animation block without frames dropped"
  | .noFrames action => "action '" ++ action ++ "' has no playable frames, action dropped"
  | .unknownSequenceRef action reference =>
    "action '" ++ action ++ "': unknown sequence reference '" ++ reference ++ "' dropped"
  | .sequenceCycle action => "action '" ++ action ++ "' reaches a sequence cycle, action dropped"
  | .duplicate table name => "duplicate " ++ table.entry ++ " '" ++ name ++ "', later definition dropped"
  | .unknownActionRef behavior action =>
    "behavior '" ++ behavior ++ "': unknown action '" ++ action ++ "', behavior dropped"
  | .unknownNextBehavior behavior next =>
    "behavior '" ++ behavior ++ "': unknown next behavior '" ++ next ++ "' dropped"
  | .frequencyClamped behavior value =>
    "behavior '" ++ behavior ++ "': frequency " ++ toString value.toNat ++ " clamped to " ++ toString maxFrequency.toNat
  | .unknownInteractionBehavior role name => "unknown " ++ role.name ++ " behavior '" ++ name ++ "', ignored"

/-- A result with the issues met on the way to it, in order. -/
structure Reported (α : Type) where
  value : α
  issues : List Issue

namespace Reported

instance : Monad Reported where
  pure a := ⟨a, []⟩
  bind x f :=
    let y := f x.value
    ⟨y.value, x.issues ++ y.issues⟩

def report (issue : Issue) : Reported Unit :=
  ⟨(), [issue]⟩

def forEach {α β : Type} (compile : α → Reported β) (entries : List α) : Reported (List β) :=
  ⟨entries.map fun a => (compile a).value, entries.flatMap fun a => (compile a).issues⟩

/-- Applies a compiler to each entry in turn and keeps what it yields. -/
def forEachKept {α β : Type} (compile : α → Reported (Option β)) (entries : List α) : Reported (List β) :=
  ⟨entries.filterMap fun a => (compile a).value, entries.flatMap fun a => (compile a).issues⟩

end Reported

open Reported

/-- The linear gain of a volume in decibels. The volume is limited to `-100 … 0`, and one that is
not finite counts as zero. -/
def gain (decibels : Float32) : Float32 :=
  Number.powerOfTen (Number.clamp (-100.0) 0.0 ((Number.finite? decibels).getD 0.0) / 20.0)

/-- The shortest time for which a frame is shown. -/
def minFrameDuration : Float32 := 0.001

def FrameSpec.compile (f : FrameSpec) : Frame :=
  { image := f.image
    duration := if f.duration.isFinite then Number.maximum f.duration minFrameDuration else defaultFrameDuration
    velocity := f.velocity
    anchor := f.anchor
    sound := f.sound
    volume := gain f.volume }

/-- Compiles a condition. A blank one is none, and one that does not compile never holds. -/
def compileCondition (owner : String) (source : Option String) : Reported (Option Predicate) :=
  match source.map Text.trimmed with
  | none => pure none
  | some text =>
    if text.isEmpty then pure none
    else
      match Condition.compile text with
      | .ok predicate => pure (some predicate)
      | .error error => do
        report (.invalidCondition owner text error)
        pure (some (.never text))

/-- Compiles a block; one without frames is dropped. -/
def AnimationSpec.compile (action : String) (a : AnimationSpec) : Reported (Option Block) :=
  if a.frames.isEmpty then do
    report (.emptyBlock action)
    pure none
  else do
    let condition ← compileCondition ("action '" ++ action ++ "'") a.condition
    pure (some { condition, priority := a.priority, frames := a.frames.map FrameSpec.compile })

/-- Reads the footing of an action; an unknown one is none. -/
def compileFooting (action : String) : Option String → Reported (Option Footing)
  | none => pure none
  | some border =>
    match Footing.ofName? border with
    | some footing => pure (some footing)
    | none => do
      report (.unknownBorderType action border)
      pure none

/-- Sequences borrow their frames and calls of the host have none; every other action needs its
own. -/
def needsFrames : ActionKind → Bool
  | .sequence | .embedded => false
  | .stay | .move | .animate => true

/-- A time cap counts only if it is finite and positive. -/
def timeCap? (seconds : Float32) : Option Float32 :=
  if seconds.isFinite && 0.0 < seconds then some seconds else none

/-- Compiles an action by itself, without the references of sequences. One of unknown kind is
dropped, and so is one that lacks frames it needs. -/
def ActionSpec.compile (a : ActionSpec) : Reported (Option Action) :=
  match ActionKind.ofName? a.kind with
  | none => do
    report (.unknownActionKind a.name a.kind)
    pure none
  | some kind => do
    let footing ← compileFooting a.name a.borderType
    let blocks ← forEachKept (AnimationSpec.compile a.name) a.animations
    let defaultBlock ← match a.defaultAnimation with
      | none => pure none
      | some animation => animation.compile a.name
    if needsFrames kind && blocks.isEmpty && defaultBlock.isNone then
      report (.noFrames a.name)
      pure none
    else
      pure (some
        { name := a.name
          kind
          footing
          blocks
          defaultBlock
          references := []
          looping := a.looping.getD kind.loopsByDefault
          draggable := a.draggable
          duration := a.duration.bind timeCap?
          embedded := a.embedded })

/-- The first definition of each name; later ones are reported. `seen` holds the names that came
before. -/
def firstDefinitions {α : Type} (table : Table) (name : α → String) : List String → List α → List (Reported (Option α))
  | _, [] => []
  | seen, a :: rest =>
    (if name a ∈ seen then ⟨none, [.duplicate table (name a)]⟩ else ⟨some a, []⟩) ::
      firstDefinitions table name (name a :: seen) rest

/-- Compiles the first definition of each name and keeps what comes of it, with its authored form
beside it. -/
def compileFirst {α β : Type} (table : Table) (name : α → String) (compile : α → Reported (Option β))
    (specs : List α) : Reported (List (α × β)) :=
  forEachKept (fun entry => do
    match ← entry with
    | none => pure none
    | some spec =>
      let compiled ← compile spec
      pure (compiled.map fun b => (spec, b))) (firstDefinitions table name [] specs)

/-! ## Sequences -/

/-- The children of an action by index: the references of a sequence as far as they are known. -/
def children (names : List String) (spec : ActionSpec) (action : Action) : Reported (List Nat) :=
  if action.kind = .sequence then
    forEachKept (fun reference => do
      match lastIndexOf? reference names with
      | some index => pure (some index)
      | none =>
        report (.unknownSequenceRef action.name reference)
        pure none) spec.references
  else pure []

/-- How far the search for cycles has come with an action. -/
inductive Mark where
  | unseen
  /-- The search is at the action or below it. -/
  | entered
  /-- The search is through with the action and knows whether a cycle can be reached from it. -/
  | left (cyclic : Bool)
  deriving DecidableEq, Repr

/-- Searches from each of some actions in turn, whatever the others came to: whether a cycle can be reached
from one of them. -/
def searchEach (search : Nat → List Mark → Bool × List Mark) : List Nat → List Mark → Bool × List Mark
  | [], marks => (false, marks)
  | i :: rest, marks =>
    let (first, marks) := search i marks
    let (others, marks) := searchEach search rest marks
    (first || others, marks)

/-- Searches from an action, depth first: whether a cycle can be reached from it. An action that is met again
while the search is below it closes a cycle, and one that was left answers what was found out about it. No
more actions are entered at once than there are, so that a `depth` of one more will do. -/
def search (graph : List (List Nat)) : Nat → Nat → List Mark → Bool × List Mark
  | 0, _, marks => (false, marks)
  | depth + 1, i, marks =>
    match marks.getD i .unseen with
    | .entered => (true, marks)
    | .left cyclic => (cyclic, marks)
    | .unseen =>
      let (hit, marks) := searchEach (search graph depth) (graph.getD i []) (marks.set i .entered)
      (hit, marks.set i (.left hit))

/-- The actions from which a cycle can be reached. -/
def cyclic (graph : List (List Nat)) : List Nat :=
  let unseen := List.replicate graph.length .unseen
  let marks := (searchEach (search graph (graph.length + 1)) (List.range graph.length) unseen).2
  (List.range graph.length).filter fun i => marks.getD i .unseen = .left true

/-- Goes once through the sequences in order and drops those all of whose children are dropped. -/
def sweep (isSequence : Nat → Bool) (graph : List (List Nat)) : List Nat → List Nat → List Nat
  | [], dropped => dropped
  | i :: rest, dropped =>
    if i ∉ dropped && isSequence i && (graph.getD i []).all (· ∈ dropped) then
      sweep isSequence graph rest (dropped ++ [i])
    else sweep isSequence graph rest dropped

/-- Repeats the sweep until nothing more is dropped. Each sweep but the last drops something, so that
one more than there are actions will do. -/
def sweepAll (isSequence : Nat → Bool) (graph : List (List Nat)) : Nat → List Nat → List Nat
  | 0, dropped => dropped
  | fuel + 1, dropped =>
    let next := sweep isSequence graph (List.range graph.length) dropped
    if next.length = dropped.length then dropped else sweepAll isSequence graph fuel next

/-- The index of an action among those that are not dropped. -/
def newIndex? (dropped : List Nat) (index : Nat) : Option Nat :=
  if index ∈ dropped then none
  else some ((List.range index).filter (· ∉ dropped)).length

/-- Gives sequences their children. A sequence that reaches a cycle is dropped, and then every
sequence that has no child left; the indices of the others move up. -/
def resolveSequences (compiled : List (ActionSpec × Action)) : Reported (List Action) := do
  let actions := compiled.map (·.2)
  let names := actions.map (·.name)
  let nameAt (i : Nat) : String := names.getD i ""
  let graph ← forEach (fun entry => children names entry.1 entry.2) compiled
  let cycles := cyclic graph
  let _ ← forEach (fun i => report (.sequenceCycle (nameAt i))) cycles
  let isSequence (i : Nat) : Bool := actions[i]?.any (·.kind = .sequence)
  let dropped := sweepAll isSequence graph (graph.length + 1) cycles
  let _ ← forEach (fun i => report (.noFrames (nameAt i))) (dropped.drop cycles.length)
  let kept := (List.range actions.length).filter (· ∉ dropped)
  pure (kept.filterMap fun i => actions[i]?.map fun action =>
    { action with references := (graph.getD i []).filterMap (newIndex? dropped) })

/-! ## Behaviors -/

/-- The action that a behavior names: its own name unless it gives another. -/
def BehaviorSpec.actionName (b : BehaviorSpec) : String :=
  b.action.getD b.name

/-- The index of a behavior's action. A behavior whose action is unknown is dropped. -/
def BehaviorSpec.resolveAction (actionNames : List String) (b : BehaviorSpec) : Reported (Option Nat) :=
  match lastIndexOf? b.actionName actionNames with
  | some index => pure (some index)
  | none => do
    report (.unknownActionRef b.name b.actionName)
    pure none

def BehaviorSpec.compileFrequency (b : BehaviorSpec) : Reported UInt32 :=
  if maxFrequency < b.frequency then do
    report (.frequencyClamped b.name b.frequency)
    pure maxFrequency
  else pure b.frequency

/-- Compiles a behavior whose action is known. Unknown followers are dropped. -/
def BehaviorSpec.compile (behaviorNames : List String) (b : BehaviorSpec) (action : Nat) : Reported Behavior := do
  let frequency ← b.compileFrequency
  let next ← forEachKept (fun name => do
    match lastIndexOf? name behaviorNames with
    | some index => pure (some index)
    | none =>
      report (.unknownNextBehavior b.name name)
      pure none) b.next
  let condition ← compileCondition ("behavior '" ++ b.name ++ "'") b.condition
  pure { name := b.name, frequency, condition, hidden := b.hidden, action, next }

/-- The behavior for an interaction; an unknown one is none. -/
def interactionBehavior (behaviorNames : List String) (role : Role) : Option String → Reported (Option Nat)
  | none => pure none
  | some name =>
    match lastIndexOf? name behaviorNames with
    | some index => pure (some index)
    | none => do
      report (.unknownInteractionBehavior role name)
      pure none

end Pack

open Pack

def PackSpec.compile (p : PackSpec) : Except PackError (Catalog × List Issue) :=
  let actions : Reported (List Action) := do
    resolveSequences (← compileFirst .actions ActionSpec.name ActionSpec.compile p.actions)
  let actionNames := actions.value.map (·.name)
  let kept := compileFirst .behaviors BehaviorSpec.name (BehaviorSpec.resolveAction actionNames) p.behaviors
  if kept.value.isEmpty then .error (.noBehaviors p.name)
  else
    let behaviorNames := kept.value.map (·.1.name)
    let behaviors := Reported.forEach (fun entry => entry.1.compile behaviorNames entry.2) kept.value
    match lastIndexOf? p.defaultBehavior behaviorNames with
    | none => .error (.missingDefaultBehavior p.name p.defaultBehavior)
    | some defaultBehavior =>
      let dragged := interactionBehavior behaviorNames .dragged p.draggedBehavior
      let thrown := interactionBehavior behaviorNames .thrown p.thrownBehavior
      .ok ({ name := p.name
             actions := actions.value
             behaviors := behaviors.value
             defaultBehavior
             draggedBehavior := dragged.value
             thrownBehavior := thrown.value },
           actions.issues ++ kept.issues ++ behaviors.issues ++ dragged.issues ++ thrown.issues)

end DesktopPet
