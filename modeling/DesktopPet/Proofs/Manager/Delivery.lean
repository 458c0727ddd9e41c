import DesktopPet.Manager
import DesktopPet.Proofs.Pet.Effects
import Mathlib.Data.List.Forall2

/-!
# The delivery of commands

What reaches a pet from the channel is its own pointer events in order and the last trigger for it;
everything else in the channel might as well not be there. `tick_of_same_delivery` draws the conclusion
for whole ticks.
-/

namespace DesktopPet

/-- The pointer events for a pet among some commands, in order. -/
def pointerEvents (id : PetId) (commands : List Command) : List PointerEvent :=
  commands.filterMap fun command =>
    match command.request with
    | .pointer event => if command.pet = id then some event else none
    | .trigger _ => none

/-- The triggers for a pet among some commands, in order. -/
def triggers (id : PetId) (commands : List Command) : List String :=
  commands.filterMap fun command =>
    match command.request with
    | .pointer _ => none
    | .trigger name => if command.pet = id then some name else none

private theorem pointerEvents_append (id : PetId) (first second : List Command) :
    pointerEvents id (first ++ second) = pointerEvents id first ++ pointerEvents id second :=
  List.filterMap_append

private theorem triggers_append (id : PetId) (first second : List Command) :
    triggers id (first ++ second) = triggers id first ++ triggers id second :=
  List.filterMap_append

/-- A pet with its share of some commands: its pointer events queue up, and its last trigger is pending. -/
def Pet.withShare (p : Pet) (commands : List Command) : Pet :=
  { p with
    events := p.events ++ pointerEvents p.id commands
    behavior.trigger := (triggers p.id commands).getLast?.or p.behavior.trigger }

namespace Pet

theorem receive_share (p : Pet) (command : Command) : p.receive command = p.withShare [command] := by
  by_cases mine : command.pet = p.id
  · cases asked : command.request with
    | pointer event => simp [receive, withShare, pointerEvents, triggers, mine, asked]
    | trigger name => simp [receive, withShare, pointerEvents, triggers, mine, asked]
  · cases asked : command.request with
    | pointer event => simp [receive, withShare, pointerEvents, triggers, mine, asked]
    | trigger name => simp [receive, withShare, pointerEvents, triggers, mine, asked]

theorem withShare_append (p : Pet) (first second : List Command) :
    (p.withShare first).withShare second = p.withShare (first ++ second) := by
  have last : (triggers p.id second).getLast?.or ((triggers p.id first).getLast?.or p.behavior.trigger) =
      (triggers p.id (first ++ second)).getLast?.or p.behavior.trigger := by
    rw [triggers_append, List.getLast?_append, Option.or_assoc]
  simp only [withShare, last, pointerEvents_append, List.append_assoc]

/-- Taking in commands one by one gives a pet exactly its share of them. -/
theorem receiveAll_share (p : Pet) (commands : List Command) : p.receiveAll commands = p.withShare commands := by
  induction commands generalizing p with
  | nil => simp [receiveAll, withShare, pointerEvents, triggers]
  | cons command rest ih =>
    have tail : (p.receive command).receiveAll rest = (p.receive command).withShare rest := ih _
    rw [receiveAll, List.foldl_cons, ← receiveAll, tail, receive_share, withShare_append, List.singleton_append]

end Pet

namespace Manager

/-- The manager as its pets see it in a tick: time has passed, and staged settings hold. -/
def prepare (m : Manager) (dt : Float32) : Manager :=
  { m with clock := m.clock.advance dt }.applyStaged

/-- Pets and channel have no part in the preparation. -/
theorem prepare_frame (m : Manager) (dt : Float32) (pets : List Pet) (channel : Channel) :
    { m with pets, channel }.prepare dt = { m.prepare dt with pets, channel } := by
  unfold prepare applyStaged
  dsimp only
  cases m.staged with
  | none => rfl
  | some settings => rfl

theorem prepare_pets (m : Manager) (dt : Float32) : (m.prepare dt).pets = m.pets := by
  have frame := congrArg Manager.pets (prepare_frame m dt m.pets m.channel)
  exact frame

theorem prepare_channel (m : Manager) (dt : Float32) : (m.prepare dt).channel = m.channel := by
  have frame := congrArg Manager.channel (prepare_frame m dt m.pets m.channel)
  exact frame

/-- What comes of a tick once every pet has made its step. -/
def afterSteps (m : Manager) (stepped : List (Pet × Pet.Output)) : Manager × Report :=
  ({ m with pets := stepped.map (·.1), channel.waiting := [] },
    { frames := (stepped.map (·.1)).map fun p => (p.id, p.picture)
      sounds := stepped.flatMap (·.2.sounds)
      calls := stepped.flatMap (·.2.calls) })

/-- The pets with their shares of what waits in the channel. -/
def sharedPets (m : Manager) : List Pet :=
  m.pets.map fun p => p.withShare m.channel.waiting

theorem tick_parts (m : Manager) (dt : Float32) :
    m.tick? dt = (((m.prepare dt).pets.map fun p : Pet => p.receiveAll (m.prepare dt).channel.waiting).mapM
      fun p : Pet => p.step? (m.prepare dt).scene).bind fun stepped => some ((m.prepare dt).afterSteps stepped) :=
  rfl

/-- A tick in its parts: the preparation, the shares of the pets, and their steps. -/
theorem tick_eq (m : Manager) (dt : Float32) :
    m.tick? dt = (m.sharedPets.mapM fun p : Pet => p.step? (m.prepare dt).scene).map (m.prepare dt).afterSteps := by
  have shares : (m.prepare dt).pets.map (fun p => p.receiveAll (m.prepare dt).channel.waiting) = m.sharedPets := by
    rw [prepare_pets, prepare_channel]
    exact List.map_congr_left fun p _ => Pet.receiveAll_share p m.channel.waiting
  rw [tick_parts, shares, Option.map_eq_bind]
  rfl

/-- Entries and their results stand side by side. -/
theorem forall₂_of_mapM {α β : Type} (f : α → Option β) (entries : List α) (results : List β)
    (mapped : entries.mapM f = some results) : List.Forall₂ (fun a b => f a = some b) entries results := by
  induction entries generalizing results with
  | nil =>
    cases Option.some.inj mapped
    exact .nil
  | cons a rest ih =>
    rw [List.mapM_cons] at mapped
    obtain ⟨b, first, mapped⟩ := Option.bind_eq_some_iff.mp mapped
    obtain ⟨others, later, mapped⟩ := Option.bind_eq_some_iff.mp mapped
    cases Option.some.inj mapped
    exact .cons first (ih others later)

/-- After a tick the pets are those of before, each a step further with its share, and the channel is
empty. -/
theorem tick_pets (m after : Manager) (dt : Float32) (report : Report) (ticked : m.tick? dt = some (after, report)) :
    after = { m.prepare dt with pets := after.pets, channel.waiting := [] } ∧
      List.Forall₂ (fun p q => ∃ output,
        (p.withShare m.channel.waiting).step? (m.prepare dt).scene = some (q, output)) m.pets after.pets := by
  rw [tick_eq] at ticked
  obtain ⟨stepped, steps, result⟩ := Option.map_eq_some_iff.mp ticked
  have same := (Prod.mk.inj result).1
  have paired := forall₂_of_mapM _ _ _ steps
  subst same
  refine ⟨rfl, ?_⟩
  rw [sharedPets, List.forall₂_map_left_iff] at paired
  rw [List.forall₂_map_right_iff]
  exact paired.imp fun p q step => ⟨q.2, step⟩

/-- A tick empties every queue. -/
theorem tick_empties (m after : Manager) (dt : Float32) (report : Report)
    (ticked : m.tick? dt = some (after, report)) :
    after.channel.waiting = [] ∧ ∀ p ∈ after.pets, p.events = [] := by
  obtain ⟨same, steps⟩ := tick_pets m after dt report ticked
  refine ⟨by rw [same], fun q member => ?_⟩
  obtain ⟨k, bound, rfl⟩ := List.mem_iff_getElem.mp member
  have before : k < m.pets.length := by rw [steps.length_eq]; exact bound
  obtain ⟨output, step⟩ := steps.get before bound
  exact (Pet.step_effect _ _ _ _ step).2.2

/-- The manager with an empty channel and every pet holding its share of some commands. -/
def deliver (m : Manager) (commands : List Command) : Manager :=
  { m with pets := m.pets.map fun p => p.withShare commands, channel.waiting := [] }

/-- Of the channel a tick sees only the shares of the pets. -/
theorem tick_of_deliver (m : Manager) (dt : Float32) (waiting : List Command) :
    { m with channel.waiting := waiting }.tick? dt = (m.deliver waiting).tick? dt := by
  -- once everything is delivered, nothing is left to share
  have taken (p : Pet) : p.withShare [] = p := by simp [Pet.withShare, pointerEvents, triggers]
  have shares : (m.deliver waiting).sharedPets = { m with channel.waiting := waiting }.sharedPets := by
    simp only [sharedPets, deliver, taken, List.map_id']
  have delivered : (m.deliver waiting).prepare dt =
      { m.prepare dt with pets := (m.deliver waiting).pets, channel := (m.deliver waiting).channel } :=
    prepare_frame m dt _ _
  have held : { m with channel.waiting := waiting }.prepare dt =
      { m.prepare dt with pets := m.pets, channel := { m.channel with waiting } } :=
    prepare_frame m dt _ _
  rw [tick_eq, tick_eq, shares, delivered, held]
  rfl

end Manager

/-- Two contents of the channel that give every pet the same pointer events in the same order and the same
last trigger make the same tick, whatever else differs between them. A tick is that of an empty channel in
which every pet already holds its own share, and it leaves nothing behind. -/
theorem tick_of_same_delivery (m : Manager) (dt : Float32) (first second : List Command)
    (agree : ∀ p ∈ m.pets, pointerEvents p.id first = pointerEvents p.id second ∧
      (triggers p.id first).getLast? = (triggers p.id second).getLast?) :
    { m with channel.waiting := first }.tick? dt = { m with channel.waiting := second }.tick? dt ∧
      { m with channel.waiting := first }.tick? dt = (m.deliver first).tick? dt ∧
      ∀ after report, { m with channel.waiting := first }.tick? dt = some (after, report) →
        after.channel.waiting = [] ∧ ∀ p ∈ after.pets, p.events = [] := by
  have same : m.deliver first = m.deliver second := by
    have shares : m.pets.map (fun p => p.withShare first) = m.pets.map fun p => p.withShare second := by
      apply List.map_congr_left
      intro p member
      obtain ⟨events, trigger⟩ := agree p member
      rw [Pet.withShare, Pet.withShare, events, trigger]
    rw [Manager.deliver, Manager.deliver, shares]
  refine ⟨?_, Manager.tick_of_deliver m dt first, fun after report ticked => ?_⟩
  · rw [Manager.tick_of_deliver m dt first, Manager.tick_of_deliver m dt second, same]
  · exact Manager.tick_empties _ after dt report ticked

/-- A catalog with a behavior of its own for drags and for throws. -/
def restful : Catalog :=
  let frame : Frame :=
    { image := none, duration := 0.1, velocity := .zero, anchor := .zero, sound := none, volume := 1.0 }
  let rest : Action :=
    { name := "rest", kind := .stay, footing := none, blocks := []
      defaultBlock := some { condition := none, priority := 0, frames := [frame] }
      references := [], looping := true, draggable := true, duration := none, embedded := [] }
  let resting : Behavior :=
    { name := "rest", frequency := 1, condition := none, hidden := false, action := 0, next := [] }
  { name := "restful", actions := [rest]
    behaviors := [resting, { resting with name := "held" }, { resting with name := "flung" }]
    defaultBehavior := 0, draggedBehavior := some 1, thrownBehavior := some 2 }

/-- The pet of a number in that catalog. -/
def restingPet (number : Nat) : Pet :=
  Pet.spawn ⟨number⟩ restful ⟨400.0, 400.0⟩ ⟨128.0, 128.0⟩ {} 11

/-- Two pets of that catalog in an area of the standard size. -/
def playground : Manager :=
  { Manager.new {} 7 with pets := [restingPet 1, restingPet 2], nextNumber := 3 }

/-- A drag of the first pet, among triggers for the second and for a pet that is gone. -/
def tangledCommands : List Command :=
  [⟨⟨2⟩, .trigger "rest"⟩, ⟨⟨1⟩, .pointer (.down ⟨410.0, 410.0⟩ 0.0)⟩, ⟨⟨9⟩, .trigger "rest"⟩,
    ⟨⟨2⟩, .trigger "held"⟩, ⟨⟨1⟩, .trigger "flung"⟩, ⟨⟨1⟩, .pointer (.up ⟨700.0, 410.0⟩ 0.1)⟩]

/-- The same for both pets, in the order of the pets. -/
def sortedCommands : List Command :=
  [⟨⟨1⟩, .trigger "flung"⟩, ⟨⟨1⟩, .pointer (.down ⟨410.0, 410.0⟩ 0.0)⟩,
    ⟨⟨1⟩, .pointer (.up ⟨700.0, 410.0⟩ 0.1)⟩, ⟨⟨2⟩, .trigger "held"⟩]

theorem tick_of_same_delivery_playground :
    { playground with channel.waiting := tangledCommands }.tick? 0.033 =
        { playground with channel.waiting := sortedCommands }.tick? 0.033 ∧
      ({ playground with channel.waiting := tangledCommands }.tick? 0.033).isSome = true :=
  ⟨(tick_of_same_delivery playground 0.033 tangledCommands sortedCommands (by decide)).1, by decide +kernel⟩

end DesktopPet
