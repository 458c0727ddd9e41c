import DesktopPet.Proofs.Manager.Reachable
import DesktopPet.Proofs.Number.Order
import DesktopPet.Proofs.Pack.Compiled

/-!
# Pets stay inside the play area

Whatever moves a pet that is not held ends by clamping its rectangle against the bounds of the tick, and a new
pet is clamped when it is registered. Between ticks neither the bounds nor any pet moves, so
`pets_stay_inside` holds after every call.
-/

namespace DesktopPet

/-! ## Rectangles -/

/-- The rectangle at a corner is beyond none of the lines. The left wall and the ceiling come first when it is
too large to keep off all four, and a coordinate that is NaN is beyond no line. -/
structure Bounds.Encloses (b : Bounds) (corner size : Vector2) : Prop where
  leftWall : ¬ corner.x < b.left
  rightWall : ¬ b.maxX size < corner.x
  ceiling : ¬ corner.y < b.ceiling
  floor : ¬ b.maxY size < corner.y

theorem clampRect_encloses (b : Bounds) (corner size place : Vector2)
    (clamped : b.clampRect? corner size = some place) : b.Encloses place size := by
  unfold Bounds.clampRect? at clamped
  split at clamped
  next room =>
    obtain ⟨leftmost, rightmost⟩ := Number.clamp_within b.left (b.maxX size) corner.x room.1
    obtain ⟨highest, lowest⟩ := Number.clamp_within b.ceiling (b.maxY size) corner.y room.2
    rw [← Option.some.inj clamped]
    exact ⟨leftmost, rightmost, highest, lowest⟩
  · cases clamped

/-- A flight ends clamped, however it ends. -/
theorem flight_encloses (f flown : Flight) (b : Bounds) (t : ThrowSettings) (gravity dt : Float32)
    (outcome : FlightOutcome) (stepped : f.step? b t gravity dt = some (outcome, flown)) :
    b.Encloses flown.body.position flown.body.size := by
  obtain ⟨place, clamped, same⟩ := Option.bind_eq_some_iff.mp stepped
  have result := (Prod.mk.inj (Option.some.inj same)).2
  rw [← result]
  exact clampRect_encloses b _ _ place clamped

/-! ## One pet -/

namespace Pet

/-- A pet that is not dragged is inside the bounds. -/
def Inside (p : Pet) (b : Bounds) : Prop :=
  p.interaction.mode ≠ .dragging → b.Encloses p.body.position p.body.size

/-- Motion leaves a pet in the pointer's hand or inside the bounds of the scene, wherever it was before. -/
theorem move_inside (p q : Pet) (scene : Scene) (moved : p.move? scene = some q) : q.Inside scene.area.bounds := by
  intro free
  unfold move? at moved
  split at moved
  next idle =>
    obtain ⟨reached, clamped, same⟩ := Option.bind_eq_some_iff.mp moved
    rw [← Option.some.inj same]
    exact clampRect_encloses _ _ _ reached clamped
  next drag dragged =>
    rw [← Option.some.inj moved, dragged] at free
    exact absurd rfl free
  next timer flying =>
    obtain ⟨⟨outcome, flown⟩, stepped, same⟩ := Option.bind_eq_some_iff.mp moved
    have inside := flight_encloses _ flown _ _ _ _ outcome stepped
    dsimp only at same
    split at same
    · rw [← Option.some.inj same]
      exact inside
    · rw [← Option.some.inj same]
      exact inside

/-- Behind motion a step changes neither mode nor body. -/
theorem step_inside (p q : Pet) (scene : Scene) (output : Output) (stepped : p.step? scene = some (q, output)) :
    q.Inside scene.area.bounds := by
  obtain ⟨handled, played, moved, _, _, motion, contact, picture, rfl⟩ := step_parts p q scene output stepped
  exact move_inside played moved scene motion

theorem spawn_inside (id : PetId) (catalog : Catalog) (wanted position size : Vector2) (contact : Contact)
    (seed : UInt64) (b : Bounds) (placed : b.clampRect? wanted size = some position) :
    (Pet.spawn id catalog position size contact seed).Inside b :=
  fun _ => clampRect_encloses b wanted size position placed

end Pet

/-! ## All pets -/

namespace Manager

/-- Every pet that is not dragged is inside the bounds in force. -/
def AllInside (m : Manager) : Prop :=
  ∀ p ∈ m.pets, p.Inside m.area.bounds

/-- After a tick from any state the pets are inside the bounds of that tick, those that shrink in it
included. -/
theorem tick_inside (m after : Manager) (dt : Float32) (report : Report)
    (ticked : m.tick? dt = some (after, report)) : after.AllInside := by
  intro q member
  obtain ⟨p, _, output, stepped⟩ := tick_mem m after dt report ticked q member
  have inside := Pet.step_inside _ q _ output stepped
  obtain ⟨same, _⟩ := tick_pets m after dt report ticked
  have area : after.area = (m.prepare dt).area := by rw [same]
  rw [area]
  exact inside

theorem registerAt_inside (m : Manager) (pack : String) (position : Vector2) (outcome : Outcome PetId)
    (made : m.registerAt? pack position = some outcome) (before : m.AllInside) : outcome.manager.AllInside := by
  unfold registerAt? at made
  split at made
  · rw [← Option.some.inj made]
    exact before
  next catalog loaded =>
    obtain ⟨place, placed, made⟩ := Option.bind_eq_some_iff.mp made
    rw [← Option.some.inj made]
    intro p member
    rcases List.mem_append.mp member with old | new
    · exact before p old
    · rw [List.mem_singleton.mp new]
      exact Pet.spawn_inside _ catalog position place _ _ _ _ placed

/-- Any other call leaves the area, and every pet there is was there before. -/
theorem perform_still (m after : Manager) (call : Call) (performed : m.perform? call = some after)
    (others : ∀ dt, call ≠ .tick dt) (noPet : call.registers = false) :
    after.area = m.area ∧ ∀ p ∈ after.pets, p ∈ m.pets := by
  cases perform_effect m after call performed with
  | registered _ _ _ _ _ _ _ _ registers _ =>
    rw [noPet] at registers
    cases registers
  | unregistered id => exact ⟨rfl, fun p member => List.mem_of_mem_filter member⟩
  | ticked dt after report ticked => exact absurd rfl (others dt)
  | _ => exact ⟨rfl, fun p member => member⟩

/-- Every call keeps the pets inside the bounds in force. -/
theorem perform_inside (m after : Manager) (call : Call) (performed : m.perform? call = some after)
    (before : m.AllInside) : after.AllInside := by
  have still (others : ∀ dt, call ≠ .tick dt) (noPet : call.registers = false) : after.AllInside := by
    obtain ⟨area, kept⟩ := perform_still m after call performed others noPet
    intro p member
    rw [area]
    exact before p (kept p member)
  cases call with
  | register pack =>
    obtain ⟨outcome, made, rfl⟩ := Option.map_eq_some_iff.mp performed
    exact registerAt_inside _ pack _ outcome made before
  | registerAt pack position =>
    obtain ⟨outcome, made, rfl⟩ := Option.map_eq_some_iff.mp performed
    exact registerAt_inside m pack position outcome made before
  | tick dt =>
    obtain ⟨⟨_, report⟩, ticked, rfl⟩ := Option.map_eq_some_iff.mp performed
    exact tick_inside m _ dt report ticked
  | _ => exact still nofun rfl

theorem reachable_inside {m : Manager} (reached : m.Reachable) : m.AllInside := by
  induction reached with
  | start settings seed => exact fun p member => absurd member List.not_mem_nil
  | call m after call _ performed inside => exact perform_inside m after call performed inside

end Manager

open Manager

/-- After any calls, every pet that is not dragged is inside the bounds in force, the one just registered and
those whose drag or throw has just ended included. A tick brings this about from any state: it does not hang on
where the pets were before, nor on the bounds before. -/
theorem pets_stay_inside :
    (∀ m : Manager, m.Reachable → ∀ p ∈ m.pets, p.interaction.mode ≠ .dragging →
      m.area.bounds.Encloses p.body.position p.body.size) ∧
    ∀ (m after : Manager) dt report, m.tick? dt = some (after, report) → ∀ p ∈ after.pets,
      p.interaction.mode ≠ .dragging → after.area.bounds.Encloses p.body.position p.body.size :=
  ⟨fun _ reached => reachable_inside reached, fun m after dt report ticked => tick_inside m after dt report ticked⟩

/-- A pet is dragged far off and let go slowly, while the screen shrinks to less than its size. -/
def crampedCalls : List Call :=
  [.loadPack "tangled" tangledPack, .registerAt "tangled" ⟨5000.0, -5000.0⟩,
    .ask ⟨1⟩ (.pointer (.down ⟨1700.0, 120.0⟩ 0.0)), .ask ⟨1⟩ (.pointer (.move ⟨9000.0, 9000.0⟩ 50.0)), .tick 0.033,
    .ask ⟨1⟩ (.pointer (.up ⟨9000.0, 9000.0⟩ 500.0)), .stage { screenWidth := 100.0, screenHeight := 90.0 },
    .tick 0.033]

/-- What comes of these calls. -/
def cramped : Manager :=
  ((Manager.new {} 7).run? crampedCalls).getD (Manager.new {} 7)

theorem pets_stay_inside_cramped :
    ∃ p, cramped.Reachable ∧ cramped.pet? ⟨1⟩ = some p ∧ p.interaction.mode ≠ .dragging ∧
      p.body.position = ⟨10.0, 9.0⟩ ∧ p.body.size = ⟨128.0, 128.0⟩ ∧
      cramped.area.bounds.Encloses p.body.position p.body.size := by
  have reached : cramped.Reachable := by
    have ran : (Manager.new {} 7).run? crampedCalls = some cramped := by decide +kernel
    exact Reachable.run (.start {} 7) ran
  have dropped : (cramped.pet? ⟨1⟩).map (fun p => (p.interaction.mode, p.body.position, p.body.size)) =
      some (.idle, ⟨10.0, 9.0⟩, ⟨128.0, 128.0⟩) := by decide +kernel
  obtain ⟨p, there, same⟩ := Option.map_eq_some_iff.mp dropped
  simp only [Prod.mk.injEq] at same
  obtain ⟨mode, position, size⟩ := same
  have free : p.interaction.mode ≠ .dragging := by rw [mode]; nofun
  have inside := pets_stay_inside.1 cramped reached p (pet_live there).1 free
  exact ⟨p, reached, there, free, position, size, inside⟩

end DesktopPet
