import DesktopPet.Proofs.Manager.Delivery
import DesktopPet.Proofs.Pet.Reasons
import DesktopPet.Proofs.Selection.Rolls

/-!
# Chance on demand

Where no condition of a catalog asks for a random number, its pets draw only when selection rolls. `Pet.roll?` says
which roll that is in one step: none without a reason for another behavior, else that among the followers if some are
eligible, else that among all behaviors. Playback and motion leave the generator, so that the generator after a step,
and after a tick, is that after the roll (`step_rolls`, `tick_rolls`).
-/

namespace DesktopPet

open Condition (Expr View)

namespace Pet

/-- The roll among the followers of a behavior that has run its course. -/
def followedRoll? (p : Pet) (area : Area) (reason : Reselect) : Option Roll :=
  match reason, p.behavior.current with
  | .terminal, some current => p.catalog.chainedRoll? (p.view area) current
  | _, _ => none

/-- The roll of selection. Only an idle pet that wants a behavior and has no trigger gets one: that among followers,
and if there is none, that among all behaviors. -/
def roll? (p : Pet) (area : Area) : Option Roll :=
  if p.interaction.isIdle = true ∧ p.behavior.trigger = none then
    p.wants?.bind fun reason => (p.followedRoll? area reason).or (p.catalog.nextRoll? (p.view area))
  else none

/-! ## Steps -/

section Steps

variable {p : Pet} (settled : p.catalog.WithoutChance)
include settled

/-- A follower is chosen exactly if there is a roll among followers. -/
theorem followed_rolls (area : Area) (reason : Reselect) :
    (p.followed area reason).2 = afterRoll (p.followedRoll? area reason) p.random ∧
      ((p.followed area reason).1 = none ↔ p.followedRoll? area reason = none) := by
  unfold followed followedRoll?
  cases reason with
  | terminal =>
    cases p.behavior.current with
    | none => exact ⟨rfl, fun _ => rfl, fun _ => rfl⟩
    | some current => exact Catalog.selectChained_rolls settled (p.view area) current p.random
  | _ => exact ⟨rfl, fun _ => rfl, fun _ => rfl⟩

theorem choose?_rolls {area : Area} {reason : Reselect} {index : Nat} {random : Random}
    (choice : p.choose? area reason = some (index, random)) :
    random = afterRoll ((p.followedRoll? area reason).or (p.catalog.nextRoll? (p.view area))) p.random := by
  obtain ⟨after, found⟩ := followed_rolls settled area reason
  rw [choose?_eq] at choice
  cases follows : (p.followed area reason).1 with
  | none =>
    have unrolled := found.mp follows
    rw [unrolled] at after
    rw [follows, after] at choice
    rw [unrolled, Option.none_or]
    exact Catalog.selectNext?_rolls settled (p.view area) choice
  | some follower =>
    obtain ⟨roll, rolled⟩ := Option.ne_none_iff_exists'.mp fun none => nomatch follows.symm.trans (found.mpr none)
    rw [rolled] at after
    rw [follows] at choice
    cases Option.some.inj choice
    rw [rolled, Option.some_or]
    exact after

theorem Selection.rolls {q : Pet} {area : Area} (selection : p.Selection area q) :
    q.random = afterRoll (p.roll? area) p.random := by
  unfold roll?
  cases selection with
  | barred busy =>
    have unrolled : ¬ (p.interaction.isIdle = true ∧ p.behavior.trigger = none) :=
      fun asked => nomatch busy.symm.trans asked.1
    rw [if_neg unrolled]
    rfl
  | triggered name idle asked =>
    have unrolled : ¬ (p.interaction.isIdle = true ∧ p.behavior.trigger = none) :=
      fun unasked => nomatch asked.symm.trans unasked.2
    rw [if_neg unrolled]
    rfl
  | content idle unasked wants =>
    rw [if_pos ⟨idle, unasked⟩, wants]
    rfl
  | confirmed index random idle unasked wants choice same =>
    rw [if_pos ⟨idle, unasked⟩, wants]
    exact choose?_rolls settled choice
  | chosen reason index random idle unasked wants choice another =>
    rw [if_pos ⟨idle, unasked⟩, wants]
    exact choose?_rolls settled choice

/-- Playback leaves the generator. -/
theorem play_random (scene : Scene) : (p.play scene).1.random = p.random :=
  (advance_steady (Catalog.blocks_steady settled (p.view scene.area)) p.player scene.delta).state p.random

/-- The generator after a step is that after its roll. -/
theorem step_rolls {q : Pet} {scene : Scene} {output : Output} (stepped : p.step? scene = some (q, output)) :
    ∃ handled, p.applyPointer? scene = some handled ∧
      q.random = afterRoll ((handled.refreshContact scene).roll? scene.area) p.random := by
  obtain ⟨handled, chosen, moved, pointed, selected, motion, rfl, _⟩ := step_phases p q scene output stepped
  obtain ⟨_, _, _, _, _, same⟩ := applyEvents_effect _ handled scene p.events pointed
  have catalog : (handled.refreshContact scene).catalog = p.catalog := by rw [same]; rfl
  have random : (handled.refreshContact scene).random = p.random := by rw [same]; rfl
  have selection := selectBehavior?_cases _ chosen scene.area selected
  have rolled := selection.rolls (catalog ▸ settled)
  have played : (chosen.play scene).1.random = chosen.random :=
    play_random (by rw [selection.catalog, catalog]; exact settled) scene
  obtain ⟨_, _, _, _, rfl⟩ := move_effect _ moved scene motion
  obtain ⟨picture, drawn⟩ := draw_effect (refreshContact { (chosen.play scene).1 with
    facing := _, body := _, interaction := _, behavior := _ } scene)
  refine ⟨handled, pointed, ?_⟩
  rw [drawn, ← random]
  exact played.trans rolled

end Steps

end Pet

/-! ## Ticks -/

/-- What has become of the generator of a pet in a tick. -/
def Manager.Rolled (m : Manager) (dt : Float32) (p q : Pet) : Prop :=
  ∃ handled, (p.withShare m.channel.waiting).applyPointer? (m.prepare dt).scene = some handled ∧
    q.random = afterRoll ((handled.refreshContact (m.prepare dt).scene).roll? (m.prepare dt).area) p.random

theorem tick_rolls {m after : Manager} {dt : Float32} {report : Report} (ticked : m.tick? dt = some (after, report)) :
    List.Forall₂ (fun p q => p.catalog.WithoutChance → m.Rolled dt p q) m.pets after.pets := by
  refine (Manager.tick_pets m after dt report ticked).2.imp ?_
  rintro p q ⟨output, stepped⟩ settled
  exact Pet.step_rolls (show (p.withShare m.channel.waiting).catalog.WithoutChance from settled) stepped

/-- Draws are made by selection alone, and only where it has to decide among behaviors. -/
structure Catalog.DrawsOnDemand (c : Catalog) : Prop where
  /-- Whether a behavior is a candidate does not hang on the generator. -/
  candidate : ∀ view index r, c.isCandidate view index r = (c.accepts view index, r)
  /-- Nor does the choice of a block. -/
  block : ∀ action ∈ c.actions, ∀ view, Steady (action.selectBlock (·.holds view))
  playback : ∀ p : Pet, p.catalog = c → ∀ scene, (p.play scene).1.random = p.random
  /-- A choice among all behaviors makes at most the one roll. -/
  next : ∀ view r chosen last, c.selectNext? view r = some (chosen, last) → last = afterRoll (c.nextRoll? view) r
  /-- It is made exactly if there are candidates and none is mandatory. -/
  next_iff : ∀ view, c.nextRoll? view ≠ none ↔
    (∀ i ∈ c.eligible view (List.range c.behaviors.length), c.weight i ≠ 0) ∧
      c.eligible view (List.range c.behaviors.length) ≠ []
  /-- There is no choice at all exactly if the roll would need a bound that does not fit into a word. -/
  next_none : ∀ view r, c.selectNext? view r = none ↔
    (∀ i ∈ c.eligible view (List.range c.behaviors.length), c.weight i ≠ 0) ∧
      2 ^ 32 ≤ c.weights (c.eligible view (List.range c.behaviors.length))
  /-- There is at most the one roll among followers. -/
  chained : ∀ view source r, (c.selectChained view source r).2 = afterRoll (c.chainedRoll? view source) r
  /-- It is made exactly if one of them is a candidate. -/
  chained_iff : ∀ view source, c.chainedRoll? view source ≠ none ↔ c.eligible view (c.followers source) ≠ []
  /-- In a tick a generator changes by the roll of selection, and not at all without one. -/
  ticks : ∀ (m after : Manager) dt report, m.tick? dt = some (after, report) →
    List.Forall₂ (fun p q => p.catalog = c → m.Rolled dt p q) m.pets after.pets

/-- Chance comes in only where it is asked for. An expression without random numbers has one result for all
generators and leaves them, and with conditions of this kind the pets of a catalog draw only to decide among
behaviors. -/
theorem chance_on_demand :
    (∀ e : Expr, e.asksChance = false → ∀ view, ∃ result, ∀ r, (e.eval view).run r = (result, r)) ∧
      ∀ c : Catalog, c.WithoutChance → c.DrawsOnDemand := by
  refine ⟨fun e settled view => e.eval_steady view settled, fun c settled => ?_⟩
  exact
    { candidate := fun view => Catalog.isCandidate_eq settled view
      block := fun action there view => selectBlock_steady (Catalog.blocks_steady settled view action there)
      playback := by
        rintro p rfl scene
        exact Pet.play_random settled scene
      next := fun view r chosen last => Catalog.selectNext?_rolls settled view
      next_iff := Catalog.nextRoll?_iff
      next_none := fun view r => Catalog.selectNext?_eq_none_iff (Catalog.candidates_eq settled view _ r)
      chained := fun view source r => (Catalog.selectChained_rolls settled view source r).1
      chained_iff := Catalog.chainedRoll?_iff
      ticks := by
        intro m after dt report ticked
        refine (tick_rolls ticked).imp ?_
        rintro p q rolled rfl
        exact rolled settled }

/-- A menu on which the coin is left out. -/
def plainMenu : Catalog :=
  { menu with behaviors := menu.behaviors.map fun b => { b with condition := none } }

private theorem plainMenu_withoutChance : plainMenu.WithoutChance where
  blocks := by decide
  behaviors := by decide

/-- On the floor three behaviors are candidates, with a hundred rolls. -/
theorem chance_on_demand_plain :
    plainMenu.WithoutChance ∧
      plainMenu.nextRoll? onTheFloor = some (.weighted 100) ∧
      (∃ chosen, plainMenu.selectNext? onTheFloor ⟨4⟩ = some (chosen, (Random.below32 100 ⟨4⟩).2)) ∧
      (plainMenu.selectChained onTheFloor 0 ⟨4⟩).2 = ⟨4⟩ := by
  have draws := chance_on_demand.2 plainMenu plainMenu_withoutChance
  have rolls : plainMenu.nextRoll? onTheFloor = some (.weighted 100) := by decide +kernel
  have alone : plainMenu.chainedRoll? onTheFloor 0 = none := by decide +kernel
  have answers : (plainMenu.selectNext? onTheFloor ⟨4⟩).isSome = true := by decide +kernel
  obtain ⟨⟨chosen, last⟩, answered⟩ := Option.isSome_iff_exists.mp answers
  refine ⟨plainMenu_withoutChance, rolls, ⟨chosen, ?_⟩, ?_⟩
  · rw [answered, draws.next onTheFloor ⟨4⟩ chosen last answered, rolls]
    rfl
  · rw [draws.chained, alone]
    rfl

end DesktopPet
