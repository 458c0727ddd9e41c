import DesktopPet.Player

/-!
# Choosing behaviors

A behavior is a candidate if its action suits the contact of the pet and its condition holds. Among
candidates a mandatory one wins; otherwise one is drawn with its frequency as weight, and the default
behavior stands in when there is none. After a behavior has run its course, its followers come first.
-/

namespace DesktopPet

open Condition (View)

inductive Reselect where
  | initial
  /-- The action is over. -/
  | terminal
  /-- The contact no longer suits the action. -/
  | borderIneligible
  /-- A drag or a throw has ended. -/
  | interaction
  deriving DecidableEq, Repr

/-- The behavior of a pet and what is pending for it. -/
structure BehaviorState where
  current : Option Nat := none
  reselect : Option Reselect := none
  trigger : Option String := none
  /-- How often a behavior was started. `Nat` stands for a word of 64 bits; a pet starts at most one behavior per
  pointer event or tick. -/
  selections : Nat := 0
  deriving DecidableEq, Repr

namespace BehaviorState

/-- Asks for a new behavior; an earlier request stays. -/
def request (s : BehaviorState) (reason : Reselect) : BehaviorState :=
  { s with reselect := s.reselect.or (some reason) }

/-- Takes up a behavior; that settles any request. -/
def set (s : BehaviorState) (behavior : Nat) : BehaviorState :=
  { s with current := some behavior, reselect := none, selections := s.selections + 1 }

end BehaviorState

namespace Catalog

/-- Whether a behavior may be chosen now. Its condition is asked only if the contact suits its
action. -/
def isCandidate (c : Catalog) (view : View) (index : Nat) : StateM Random Bool :=
  match c.behavior? index with
  | none => pure false
  | some behavior =>
    if (c.action? behavior.action).any (·.isEligible view.contact) then
      match behavior.condition with
      | none => pure true
      | some condition => condition.holds view
    else pure false

/-- The candidates among some behaviors, each asked once, in order. -/
def candidates (c : Catalog) (view : View) : List Nat → StateM Random (List Nat)
  | [] => pure []
  | index :: rest => do
    let chosen ← c.isCandidate view index
    let others ← c.candidates view rest
    pure (if chosen then index :: others else others)

def weight (c : Catalog) (index : Nat) : UInt32 :=
  ((c.behavior? index).map (·.frequency)).getD 0

/-- The behavior on which a roll falls: each takes as many numbers as its weight, in order. -/
def pick? (c : Catalog) : List Nat → Nat → Option Nat
  | [], _ => none
  | index :: rest, roll =>
    let weight := (c.weight index).toNat
    if roll < weight then some index else c.pick? rest (roll - weight)

/-- The sum of two words of 32 bits, unless it overflows. -/
def addWords? (a b : UInt32) : Option UInt32 :=
  if a.toNat + b.toNat < Nat.pow 2 32 then some (a + b) else none

/-- The sum of the weights in words of 32 bits. There is no answer if it overflows. -/
def totalWeight? (c : Catalog) (indices : List Nat) : Option UInt32 :=
  indices.foldlM (fun total index => addWords? total (c.weight index)) 0

/-- The choice among all behaviors. There is no answer if the weights of the candidates overflow, which
are added up only if none of them is mandatory. -/
def selectNext? (c : Catalog) (view : View) (random : Random) : Option (Nat × Random) := do
  let (eligible, random) := c.candidates view (List.range c.behaviors.length) random
  match eligible.find? fun i => (c.behavior? i).any (·.isMandatory) with
  | some mandatory => return (mandatory, random)
  | none =>
    let total ← c.totalWeight? eligible
    if 0 < total then
      return (random.below32 total.toNat).map (fun roll => (c.pick? eligible roll).getD c.defaultBehavior) id
    else return (c.defaultBehavior, random)

/-- The choice among the followers of a behavior, all alike; none without a candidate. -/
def selectChained (c : Catalog) (view : View) (source : Nat) : StateM Random (Option Nat) := do
  match c.behavior? source with
  | none => pure none
  | some behavior =>
    let eligible ← c.candidates view behavior.next
    if eligible.isEmpty then pure none
    else
      let i ← modifyGet (Random.below64 eligible.length)
      pure eligible[i]?

/-- The index itself, or the default one if there is no such behavior. -/
def orDefault (c : Catalog) (index : Nat) : Nat :=
  if (c.behavior? index).isSome then index else c.defaultBehavior

/-- The player of a behavior's action from its start. -/
def playerOf (c : Catalog) (behavior : Nat) : Player :=
  match c.behavior? behavior with
  | some found => Player.start found.action c
  | none => .stop

end Catalog

end DesktopPet
