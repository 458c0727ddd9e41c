import DesktopPet.Proofs.Manager.Behavior
import DesktopPet.Proofs.Pet.Drags

/-!
# Throws

All that happens to a pet over a run of calls, one thing after another (`run_timeline`), and what of it a throw
depends on: where and when the pet was grabbed and released, and nothing in between (`throws_depend_on_ends`).
-/

namespace DesktopPet

namespace Manager

/-- All that happens to a pet in a call. -/
def happeningsDuring (m : Manager) (id : PetId) : Call → List Happening
  | .tick dt =>
    match m.pet? id with
    | none => []
    | some p => p.happenings m.channel.waiting (m.prepare dt).scene
  | _ => []

/-- All that happens to a pet over a run. -/
def timeline (id : PetId) : Manager → List Call → List Happening
  | _, [] => []
  | m, call :: rest =>
    m.happeningsDuring id call ++
      match m.perform? call with
      | none => []
      | some after => timeline id after rest

variable {m after : Manager} {id : PetId} {p q : Pet}

theorem tick_happens {dt : Float32} {report : Report} (ticked : m.tick? dt = some (after, report))
    (before : m.pet? id = some p) (there : after.pet? id = some q) :
    (m.happeningsDuring id (.tick dt)).foldlM Pet.meet? p = some q := by
  obtain ⟨output, _, stepped, _⟩ := tick_step ticked before there
  rw [happeningsDuring, before]
  exact Pet.step_happenings p q m.channel.waiting (m.prepare dt).scene output stepped

private theorem happeningsDuring_other {call : Call} (other : ∀ dt, call ≠ .tick dt) :
    m.happeningsDuring id call = [] := by
  cases call with
  | tick dt => exact absurd rfl (other dt)
  | _ => rfl

/-- What happens to a pet over a run leads it from where it was to where it is. The induction is on the calls; only
ticks touch a pet. -/
theorem run_timeline {calls : List Call} (ran : m.run? calls = some after) (given : id.number < m.nextNumber)
    (before : m.pet? id = some p) (there : after.pet? id = some q) :
    (timeline id m calls).foldlM Pet.meet? p = some q := by
  induction calls generalizing m p with
  | nil =>
    cases Option.some.inj ran
    exact before.symm.trans there
  | cons call rest ih =>
    obtain ⟨next, middle, performed, ran, later_given, present⟩ := run_next ran given there
    have later := ih ran later_given present
    rw [timeline, performed, List.foldlM_append]
    by_cases ticks : ∃ dt, call = .tick dt
    · obtain ⟨dt, rfl⟩ := ticks
      obtain ⟨⟨_, report⟩, ticked, rfl⟩ := Option.map_eq_some_iff.mp performed
      rw [tick_happens ticked before present]
      exact later
    · have was := perform_keeps performed (fun dt same => ticks ⟨dt, same⟩) given present
      cases Option.some.inj (was.symm.trans before)
      rw [happeningsDuring_other fun dt same => ticks ⟨dt, same⟩]
      exact later

end Manager

open Manager

/-- In a run of calls, let a pet be grabbed with a press that finds it idle and draggable, and released later, with any
number of ticks, pointer moves, other presses and calls in between. What is seen of the pet right after the release
follows from the grab, the place and time of the release, and throw settings and bounds at the release. Until then the
pet is dragged: each move of the pointer takes it along with the offset of the grab, and nothing else moves it. A run
that has an answer leads through all this. -/
theorem throws_depend_on_ends (m : Manager) (reached : m.Reachable) (id : PetId) (p : Pet) (there : m.pet? id = some p)
    (calls : List Call) (early between late : List Happening) (scene scene' : Scene) (p0 p1 : Vector2) (t0 t1 : Float)
    (goes : timeline id m calls =
      early ++ .event scene (.down p0 t0) :: (between ++ .event scene' (.up p1 t1) :: late))
    (kept : ∀ h ∈ between, h.isRelease = false) (start : Pet) (comes : early.foldlM Pet.meet? p = some start)
    (idle : start.interaction = .idle) (draggable : start.isDraggable = true) :
    ∃ grabbed dragged, start.applyEvent? scene (.down p0 t0) = some grabbed ∧
      grabbed.body = { start.body with velocity := .zero } ∧ between.foldlM Pet.meet? grabbed = some dragged ∧
      (dragged.applyEvent? scene' (.up p1 t1)).map Pet.released =
        (start.grab p0 t0).release? p1 t1 scene'.settings.throwing scene'.area.bounds ∧
      (∀ soFar h rest, between = soFar ++ h :: rest → ∃ before after,
        soFar.foldlM Pet.meet? grabbed = some before ∧ before.meet? h = some after ∧
          after.interaction.mode = .dragging ∧ after.body = (start.grab p0 t0).carry before.body h) ∧
      ∀ after q, m.run? calls = some after → after.pet? id = some q →
        ∃ free, dragged.applyEvent? scene' (.up p1 t1) = some free ∧ late.foldlM Pet.meet? free = some q := by
  obtain ⟨held, stands⟩ := Grab.holds_of_press idle draggable p0 t0
  obtain ⟨dragged, carried, holds⟩ := held.happenings between kept
  refine ⟨_, dragged, rfl, stands, carried, holds.release scene' p1 t1, ?_, fun after q ran present => ?_⟩
  · rintro soFar h rest rfl
    obtain ⟨before, leads, still⟩ := held.happenings soFar fun other member =>
      kept other (List.mem_append_left _ member)
    obtain ⟨after, met, holding, body⟩ := still.happening h (kept h (by simp))
    exact ⟨before, after, leads, met, holding.mode, body⟩
  · have whole := run_timeline ran (reachable_given reached there) there present
    have pressed : start.meet? (.event scene (.down p0 t0)) = some (start.pointerDown p0 t0) := rfl
    simp only [goes, List.foldlM_append, List.foldlM_cons, comes, pressed, carried, Option.bind_eq_bind,
      Option.bind_some] at whole
    exact Option.bind_eq_some_iff.mp whole

/-- A single pet. -/
def lawn : Manager :=
  ((Manager.new {} 7).run? [.loadPack "tangled" tangledPack, .registerAt "tangled" ⟨400.0, 400.0⟩]).getD
    (Manager.new {} 7)

private theorem lawn_reachable : lawn.Reachable := by
  have ran : (Manager.new {} 7).run? [.loadPack "tangled" tangledPack, .registerAt "tangled" ⟨400.0, 400.0⟩] =
      some lawn := by decide +kernel
  exact Reachable.run (.start {} 7) ran

/-- A drag over three ticks, with a detour, a press in vain and other settings on the way. -/
def detourCalls : List Call :=
  [.ask ⟨1⟩ (.pointer (.down ⟨410.0, 410.0⟩ 0.0)), .tick 0.033,
    .ask ⟨1⟩ (.pointer (.move ⟨900.0, 200.0⟩ 0.05)), .ask ⟨1⟩ (.pointer (.down ⟨900.0, 200.0⟩ 0.06)),
    .stage { gravity := 3.0 }, .tick 0.033, .ask ⟨1⟩ (.pointer (.up ⟨700.0, 410.0⟩ 0.1)), .tick 0.033]

def lawnScene (settings : Settings) : Scene :=
  { area := .standard, settings, delta := 0.033 }

/-- What the pet meets between the press and the release. -/
def detour : List Happening :=
  Happening.parts (lawnScene {}) ++
    .share [⟨⟨1⟩, .pointer (.move ⟨900.0, 200.0⟩ 0.05)⟩, ⟨⟨1⟩, .pointer (.down ⟨900.0, 200.0⟩ 0.06)⟩] ::
      .event (lawnScene { gravity := 3.0 }) (.move ⟨900.0, 200.0⟩ 0.05) ::
        .event (lawnScene { gravity := 3.0 }) (.down ⟨900.0, 200.0⟩ 0.06) ::
          (Happening.parts (lawnScene { gravity := 3.0 }) ++
            [.share [⟨⟨1⟩, .pointer (.up ⟨700.0, 410.0⟩ 0.1)⟩]])

/-- The throw is that of the way from the press to the release. -/
theorem throws_depend_on_ends_lawn :
    lawn.Reachable ∧ ∃ p start grabbed dragged : Pet, lawn.pet? ⟨1⟩ = some p ∧
      timeline ⟨1⟩ lawn detourCalls =
        [.share [⟨⟨1⟩, .pointer (.down ⟨410.0, 410.0⟩ 0.0)⟩]] ++
          .event (lawnScene {}) (.down ⟨410.0, 410.0⟩ 0.0) ::
            (detour ++ .event (lawnScene { gravity := 3.0 }) (.up ⟨700.0, 410.0⟩ 0.1) ::
              Happening.parts (lawnScene { gravity := 3.0 })) ∧
      [Happening.share [⟨⟨1⟩, .pointer (.down ⟨410.0, 410.0⟩ 0.0)⟩]].foldlM Pet.meet? p = some start ∧
      start.interaction = .idle ∧ start.isDraggable = true ∧
      start.applyEvent? (lawnScene {}) (.down ⟨410.0, 410.0⟩ 0.0) = some grabbed ∧
      detour.foldlM Pet.meet? grabbed = some dragged ∧
      (dragged.applyEvent? (lawnScene { gravity := 3.0 }) (.up ⟨700.0, 410.0⟩ 0.1)).map Pet.released =
        (start.grab ⟨410.0, 410.0⟩ 0.0).release? ⟨700.0, 410.0⟩ 0.1 {} Area.standard.bounds ∧
      ((start.grab ⟨410.0, 410.0⟩ 0.0).release? ⟨700.0, 410.0⟩ 0.1 {} Area.standard.bounds).map
          (fun free => (free.mode, free.facing, free.position)) = some (.thrown, .right, ⟨690.0, 400.0⟩) := by
  have begins : ((lawn.pet? ⟨1⟩).bind fun p =>
        [Happening.share [⟨⟨1⟩, .pointer (.down ⟨410.0, 410.0⟩ 0.0)⟩]].foldlM Pet.meet? p).map
      (fun start => (start.interaction, start.isDraggable, start.grab ⟨410.0, 410.0⟩ 0.0)) =
      some (.idle, true, ⟨⟨410.0, 410.0⟩, 0.0, ⟨400.0, 400.0⟩, ⟨128.0, 128.0⟩, .left⟩) := by decide +kernel
  obtain ⟨start, there, facts⟩ := Option.map_eq_some_iff.mp begins
  obtain ⟨p, present, comes⟩ := Option.bind_eq_some_iff.mp there
  simp only [Prod.mk.injEq] at facts
  obtain ⟨idle, draggable, grab⟩ := facts
  have goes : timeline ⟨1⟩ lawn detourCalls =
      [.share [⟨⟨1⟩, .pointer (.down ⟨410.0, 410.0⟩ 0.0)⟩]] ++
        .event (lawnScene {}) (.down ⟨410.0, 410.0⟩ 0.0) ::
          (detour ++ .event (lawnScene { gravity := 3.0 }) (.up ⟨700.0, 410.0⟩ 0.1) ::
            Happening.parts (lawnScene { gravity := 3.0 })) := by decide +kernel
  obtain ⟨grabbed, dragged, pressed, _, carried, released, _⟩ := throws_depend_on_ends lawn lawn_reachable ⟨1⟩ p
    present detourCalls _ detour _ _ _ _ _ _ _ goes (by decide +kernel) start comes idle draggable
  refine ⟨lawn_reachable, p, start, grabbed, dragged, present, goes, comes, idle, draggable, pressed, carried,
    released, ?_⟩
  rw [grab]
  decide +kernel

end DesktopPet
