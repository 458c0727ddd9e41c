import DesktopPet.Proofs.Manager.Modes
import DesktopPet.Proofs.Manager.Reachable
import DesktopPet.Proofs.Pet.Agreement
import DesktopPet.Proofs.Pet.Requests

/-!
# The behavior of a pet over a run

What the steps of single pets say about behaviors, told of managers that calls lead to. In
`behaviors_agree` every pet plays the action of its behavior, and while the pointer or a throw has it no call
gives it another one. In `finished_actions_replaced` an idle pet whose action is over has asked for another
behavior and gets it in the next tick.
-/

namespace DesktopPet

/-! ## New pets -/

theorem spawn_agrees (id : PetId) (catalog : Catalog) (position size : Vector2) (contact : Contact) (seed : UInt64)
    (entries : catalog.EntriesPresent) : (Pet.spawn id catalog position size contact seed).Agrees := by
  obtain ⟨found, there⟩ := Option.isSome_iff_exists.mp entries.default
  refine Pet.Agrees.of_idle rfl ?_
  intro index current
  simp only [Pet.spawn, there] at current ⊢
  cases Option.some.inj current
  exact ⟨found, there, start_action found.action catalog⟩

theorem spawn_notesNoBorder (id : PetId) (catalog : Catalog) (position size : Vector2) (contact : Contact)
    (seed : UInt64) : (Pet.spawn id catalog position size contact seed).NotesNoBorder := by
  cases there : catalog.behavior? catalog.defaultBehavior with
  | none => simp [Pet.NotesNoBorder, Pet.spawn, there]
  | some found => simp [Pet.NotesNoBorder, Pet.spawn, there, BehaviorState.set]

namespace Pet

/-! ## Pointer events and modes -/

section Pointer

variable {p handled : Pet} {scene : Scene} {events : List PointerEvent}

/-- While a pet that is not idle stays in its mode, no pointer event touches its behavior. -/
theorem pointer_locked (applied : events.foldlM (fun p event => p.applyEvent? scene event) p = some handled)
    (busy : p.interaction.mode ≠ .idle)
    (still : ∀ mode ∈ p.pointerModes scene events, mode = p.interaction.mode) :
    handled.behavior = p.behavior ∧ handled.interaction.mode = p.interaction.mode := by
  induction events generalizing p with
  | nil =>
    cases Option.some.inj applied
    exact ⟨rfl, rfl⟩
  | cons event rest ih =>
    rw [List.foldlM_cons] at applied
    obtain ⟨middle, first, later⟩ := Option.bind_eq_some_iff.mp applied
    rw [pointerModes, first] at still
    have mode : middle.interaction.mode = p.interaction.mode := still _ List.mem_cons_self
    have behavior : middle.behavior = p.behavior := (applyEvent_cases p middle scene event first).locked busy mode
    obtain ⟨lasting, reached⟩ := ih later (by rw [mode]; exact busy)
      fun other member => (still other (List.mem_cons_of_mem _ member)).trans mode.symm
    exact ⟨lasting.trans behavior, reached.trans mode⟩

/-- Pointer events leave a pet alone that is not dragged, unless they grab it, which only an idle pet lets happen. -/
theorem pointer_alone (applied : events.foldlM (fun p event => p.applyEvent? scene event) p = some handled)
    (free : p.interaction.mode ≠ .dragging)
    (ungrabbed : p.interaction.mode = .idle → .dragging ∉ p.pointerModes scene events) : handled = p := by
  induction events generalizing p with
  | nil => exact (Option.some.inj applied).symm
  | cons event rest ih =>
    rw [List.foldlM_cons] at applied
    obtain ⟨middle, first, later⟩ := Option.bind_eq_some_iff.mp applied
    rw [pointerModes, first] at ungrabbed
    rcases (applyEvent_cases p middle scene event first).undragged free with rfl | ⟨idle, grabbed⟩
    · exact ih later free fun idle member => ungrabbed idle (List.mem_cons_of_mem _ member)
    · exact absurd (List.mem_cons.mpr (Or.inl grabbed.symm)) (ungrabbed idle)

end Pointer

end Pet

namespace Manager

section Runs

variable {m after : Manager} {id : PetId}

/-! ## Pets that stay -/

theorem reachable_agrees (reached : m.Reachable) : ∀ p ∈ m.pets, p.Agrees := by
  intro p live
  obtain ⟨_, _, agrees⟩ := reachable_pets (fun p => p.catalog.EntriesPresent ∧ p.Agrees)
    (fun id catalog position size contact seed ⟨_, _, compiled⟩ =>
      ⟨compiled_entriesPresent compiled, spawn_agrees _ _ _ _ _ _ (compiled_entriesPresent compiled)⟩)
    (fun p q commands scene output _ holds stepped =>
      Pet.agrees_lasting.step stepped (Pet.agrees_lasting.frame p _ _ p.contact p.picture holds)) reached p live
  exact agrees

theorem reachable_notesNoBorder (reached : m.Reachable) : ∀ p ∈ m.pets, p.NotesNoBorder := by
  intro p live
  exact (reachable_pets Pet.NotesNoBorder
    (fun id catalog position size contact seed _ => spawn_notesNoBorder id catalog position size contact seed)
    (fun p q commands scene output _ holds stepped =>
      Pet.notesNoBorder_lasting.step stepped (Pet.notesNoBorder_lasting.frame p _ _ p.contact p.picture holds))
    reached p live).2

/-- The number of a live pet has been given out. -/
theorem reachable_given (reached : m.Reachable) {p : Pet} (there : m.pet? id = some p) : id.number < m.nextNumber := by
  obtain ⟨live, found⟩ := pet_live there
  rw [← found]
  exact (reachable_numbered reached).given p live

/-- A call other than a tick changes nothing about a pet that is there afterwards. -/
theorem perform_keeps {call : Call} (performed : m.perform? call = some after) (other : ∀ dt, call ≠ .tick dt)
    (given : id.number < m.nextNumber) {q : Pet} (there : after.pet? id = some q) : m.pet? id = some q := by
  rcases perform_pet m after call id q performed other there with was | ⟨new, _⟩
  · exact was
  · exact absurd new (Nat.ne_of_lt given)

/-- A pet that is there after a call was there before. -/
theorem perform_present {call : Call} (performed : m.perform? call = some after) (given : id.number < m.nextNumber)
    (there : (after.pet? id).isSome = true) : (m.pet? id).isSome = true := by
  obtain ⟨q, there⟩ := Option.isSome_iff_exists.mp there
  by_cases ticks : ∃ dt, call = .tick dt
  · obtain ⟨dt, rfl⟩ := ticks
    obtain ⟨⟨_, report⟩, ticked, rfl⟩ := Option.map_eq_some_iff.mp performed
    rcases tick_pet m _ dt report id ticked with ⟨_, absent⟩ | ⟨p, _, _, was, _⟩
    · exact nomatch absent.symm.trans there
    · rw [was]
      rfl
  · rw [perform_keeps performed (fun dt same => ticks ⟨dt, same⟩) given there]
    rfl

theorem run_present {calls : List Call} (ran : m.run? calls = some after) (given : id.number < m.nextNumber)
    (there : (after.pet? id).isSome = true) : (m.pet? id).isSome = true := by
  induction calls generalizing m with
  | nil =>
    cases Option.some.inj ran
    exact there
  | cons call rest ih =>
    rw [run_cons] at ran
    obtain ⟨next, performed, ran⟩ := Option.bind_eq_some_iff.mp ran
    exact perform_present performed given (ih ran (Nat.lt_of_lt_of_le given (call_given performed)))

/-- A pet that is there after a run is there after its first call. -/
theorem run_next {call : Call} {rest : List Call} (ran : m.run? (call :: rest) = some after)
    (given : id.number < m.nextNumber) {q : Pet} (there : after.pet? id = some q) :
    ∃ next middle, m.perform? call = some next ∧ next.run? rest = some after ∧ id.number < next.nextNumber ∧
      next.pet? id = some middle := by
  rw [run_cons] at ran
  obtain ⟨next, performed, ran⟩ := Option.bind_eq_some_iff.mp ran
  have later_given := Nat.lt_of_lt_of_le given (call_given performed)
  have lasting : (next.pet? id).isSome = true := run_present ran later_given (by rw [there]; rfl)
  obtain ⟨middle, present⟩ := Option.isSome_iff_exists.mp lasting
  exact ⟨next, middle, performed, ran, later_given, present⟩

theorem run_keeps {calls : List Call} (ran : m.run? calls = some after)
    (others : ∀ call ∈ calls, ∀ dt, call ≠ .tick dt) (given : id.number < m.nextNumber) {q : Pet}
    (there : after.pet? id = some q) : m.pet? id = some q := by
  induction calls generalizing m with
  | nil =>
    cases Option.some.inj ran
    exact there
  | cons call rest ih =>
    rw [run_cons] at ran
    obtain ⟨next, performed, ran⟩ := Option.bind_eq_some_iff.mp ran
    have still := ih ran (fun call member => others call (List.mem_cons_of_mem _ member))
      (Nat.lt_of_lt_of_le given (call_given performed))
    exact perform_keeps performed (others call List.mem_cons_self) given still

/-! ## Ticks and the lock -/

/-- The step behind a tick of a live pet, with its pointer events. -/
theorem tick_step {dt : Float32} {report : Report} {p q : Pet} (ticked : m.tick? dt = some (after, report))
    (before : m.pet? id = some p) (there : after.pet? id = some q) :
    ∃ output handled, (p.withShare m.channel.waiting).step? (m.prepare dt).scene = some (q, output) ∧
      (p.withShare m.channel.waiting).applyPointer? (m.prepare dt).scene = some handled ∧
      m.modesDuring id (.tick dt) =
        ({ p.withShare m.channel.waiting with events := [] } : Pet).pointerModes (m.prepare dt).scene
          (p.withShare m.channel.waiting).events ++ [q.interaction.mode] := by
  rcases tick_pet m after dt report id ticked with ⟨absent, _⟩ | ⟨p', q', output, was, now, stepped⟩
  · exact nomatch absent.symm.trans before
  · cases Option.some.inj (was.symm.trans before)
    cases Option.some.inj (now.symm.trans there)
    obtain ⟨handled, _, _, pointed, _⟩ := Pet.step_phases _ q _ output stepped
    refine ⟨output, handled, stepped, pointed, ?_⟩
    simp only [modesDuring, before, Pet.receiveAll_share, Pet.tickModes, stepped]
    rfl

/-- A tick in which a pet stays in a mode other than idle leaves it its behavior. -/
theorem tick_locked {dt : Float32} {report : Report} {p q : Pet} (ticked : m.tick? dt = some (after, report))
    (before : m.pet? id = some p) (there : after.pet? id = some q) (busy : p.interaction.mode ≠ .idle)
    (still : ∀ mode ∈ m.modesDuring id (.tick dt), mode = p.interaction.mode) :
    q.behavior.current = p.behavior.current ∧ q.behavior.selections = p.behavior.selections := by
  obtain ⟨output, handled, stepped, pointed, modes⟩ := tick_step ticked before there
  rw [modes] at still
  obtain ⟨behavior, mode⟩ := Pet.pointer_locked pointed busy
    fun mode member => still mode (List.mem_append_left _ member)
  obtain ⟨current, selections⟩ := Pet.step_locked handled _ output stepped pointed (by rw [mode]; exact busy)
  rw [behavior] at current selections
  exact ⟨current, selections⟩

/-- A flight keeps its behavior through every tick, that in which it ends included. -/
theorem tick_flying {dt : Float32} {report : Report} {p q : Pet} (ticked : m.tick? dt = some (after, report))
    (before : m.pet? id = some p) (there : after.pet? id = some q) (flying : p.interaction.mode = .thrown) :
    q.behavior.current = p.behavior.current ∧ q.behavior.selections = p.behavior.selections := by
  obtain ⟨output, handled, stepped, pointed, _⟩ := tick_step ticked before there
  have start : ({ p.withShare m.channel.waiting with events := [] } : Pet).interaction.mode = .thrown := flying
  cases Pet.pointer_alone pointed (by rw [start]; nofun) (by rw [start]; nofun)
  obtain ⟨current, selections⟩ := Pet.step_locked _ _ output stepped pointed (by rw [start]; nofun)
  exact ⟨current, selections⟩

theorem run_locked {calls : List Call} (ran : m.run? calls = some after) (given : id.number < m.nextNumber)
    {p q : Pet} (before : m.pet? id = some p) (there : after.pet? id = some q) (busy : p.interaction.mode ≠ .idle)
    (still : ∀ mode ∈ modeHistory id m calls, mode = p.interaction.mode) :
    q.behavior.current = p.behavior.current ∧ q.behavior.selections = p.behavior.selections := by
  induction calls generalizing m p with
  | nil =>
    cases Option.some.inj ran
    cases Option.some.inj (before.symm.trans there)
    exact ⟨rfl, rfl⟩
  | cons call rest ih =>
    obtain ⟨next, middle, performed, ran, later_given, present⟩ := run_next ran given there
    rw [modeHistory, performed] at still
    have during : ∀ mode ∈ m.modesDuring id call, mode = p.interaction.mode :=
      fun mode member => still mode (List.mem_append_left _ member)
    have later : ∀ mode ∈ modeHistory id next rest, mode = p.interaction.mode :=
      fun mode member => still mode (List.mem_append_right _ member)
    by_cases ticks : ∃ dt, call = .tick dt
    · obtain ⟨dt, rfl⟩ := ticks
      obtain ⟨⟨_, report⟩, ticked, rfl⟩ := Option.map_eq_some_iff.mp performed
      obtain ⟨current, selections⟩ := tick_locked ticked before present busy during
      obtain ⟨_, _, _, _, modes⟩ := tick_step ticked before present
      have mode : middle.interaction.mode = p.interaction.mode :=
        during _ (by rw [modes]; exact List.mem_append_right _ (List.mem_singleton.mpr rfl))
      obtain ⟨same, counted⟩ := ih ran later_given present (by rw [mode]; exact busy)
        fun other member => (later other member).trans mode.symm
      exact ⟨same.trans current, counted.trans selections⟩
    · have was := perform_keeps performed (fun dt same => ticks ⟨dt, same⟩) given present
      cases Option.some.inj (was.symm.trans before)
      exact ih ran later_given present busy later

/-! ## Ticks and requests -/

/-- An idle pet that has asked for a behavior gets one in a tick, unless the pointer grabs it. -/
theorem tick_starts {dt : Float32} {report : Report} {p q : Pet} (reached : m.Reachable)
    (ticked : m.tick? dt = some (after, report)) (before : m.pet? id = some p) (there : after.pet? id = some q)
    (idle : p.interaction.mode = .idle) (asked : p.behavior.reselect.isSome = true)
    (ungrabbed : .dragging ∉ m.modesDuring id (.tick dt)) :
    q.behavior.selections = p.behavior.selections + 1 := by
  obtain ⟨output, handled, stepped, pointed, modes⟩ := tick_step ticked before there
  rw [modes] at ungrabbed
  have start : ({ p.withShare m.channel.waiting with events := [] } : Pet).interaction.mode = .idle := idle
  cases Pet.pointer_alone pointed (by rw [start]; nofun) fun _ member => ungrabbed (List.mem_append_left _ member)
  have unbordered : (p.withShare m.channel.waiting).NotesNoBorder :=
    reachable_notesNoBorder reached p (pet_live before).1
  have started := Pet.step_starts _ output stepped pointed idle asked unbordered
  exact started

end Runs

end Manager

open Manager

/-- Of every manager that calls lead to: each pet plays the action of its behavior, which is that for drags
while it is dragged and that for throws while it is thrown. Over a run in which a pet stays dragged or stays
thrown it keeps its behavior, and none is started anew; in flight this holds up to the end of the tick that
ends the flight. -/
theorem behaviors_agree (m : Manager) (reached : m.Reachable) :
    (∀ p ∈ m.pets, p.Agrees) ∧
      (∀ id p calls after q, m.pet? id = some p → p.interaction.mode ≠ .idle → m.run? calls = some after →
        after.pet? id = some q → (∀ mode ∈ modeHistory id m calls, mode = p.interaction.mode) →
        q.behavior.current = p.behavior.current ∧ q.behavior.selections = p.behavior.selections) ∧
      ∀ id p dt after report q, m.pet? id = some p → p.interaction.mode = .thrown →
        m.tick? dt = some (after, report) → after.pet? id = some q →
        q.behavior.current = p.behavior.current ∧ q.behavior.selections = p.behavior.selections := by
  refine ⟨reachable_agrees reached, ?_, ?_⟩
  · intro id p calls after q before busy ran there still
    exact run_locked ran (reachable_given reached before) before there busy still
  · intro id p dt after report q before flying ticked there
    exact tick_flying ticked before there flying

/-- Two pets are grabbed, and the second is thrown. -/
def grabCalls : List Call :=
  [.loadPack "tangled" tangledPack, .registerAt "tangled" ⟨400.0, 400.0⟩, .registerAt "tangled" ⟨800.0, 400.0⟩,
    .ask ⟨1⟩ (.pointer (.down ⟨410.0, 410.0⟩ 0.0)), .ask ⟨2⟩ (.pointer (.down ⟨810.0, 410.0⟩ 0.0)),
    .ask ⟨2⟩ (.pointer (.up ⟨900.0, 410.0⟩ 0.1)), .tick 0.033]

/-- What comes of these calls. -/
def grabbed : Manager :=
  ((Manager.new {} 7).run? grabCalls).getD (Manager.new {} 7)

theorem grabbed_reachable : grabbed.Reachable := by
  have ran : (Manager.new {} 7).run? grabCalls = some grabbed := by decide +kernel
  exact Reachable.run (.start {} 7) ran

/-- A trigger and new settings, both in vain while the pet is held. -/
def vainCalls : List Call :=
  [.ask ⟨1⟩ (.trigger "rest"), .stage { gravity := 3.0 }, .tick 0.033, .tick 0.033]

theorem behaviors_agree_grabbed :
    grabbed.Reachable ∧ ∃ p after q, grabbed.pet? ⟨1⟩ = some p ∧ p.Agrees ∧ p.behavior.current = some 1 ∧
      grabbed.run? vainCalls = some after ∧ after.pet? ⟨1⟩ = some q ∧ q.behavior.current = p.behavior.current ∧
      q.behavior.selections = p.behavior.selections := by
  obtain ⟨agree, runs, _⟩ := behaviors_agree grabbed grabbed_reachable
  have held : (grabbed.pet? ⟨1⟩).map (fun p => (p.interaction.mode, p.behavior.current)) =
      some (.dragging, some 1) := by decide +kernel
  obtain ⟨p, there, same⟩ := Option.map_eq_some_iff.mp held
  obtain ⟨mode, current⟩ := Prod.mk.inj same
  have left : ((grabbed.run? vainCalls).bind (·.pet? ⟨1⟩)).isSome = true := by decide +kernel
  obtain ⟨q, left⟩ := Option.isSome_iff_exists.mp left
  obtain ⟨after, ran, left⟩ := Option.bind_eq_some_iff.mp left
  have history : modeHistory ⟨1⟩ grabbed vainCalls = [.dragging, .dragging, .dragging, .dragging] := by decide +kernel
  obtain ⟨kept, counted⟩ := runs ⟨1⟩ p vainCalls after q there (by rw [mode]; nofun) ran left
    (by rw [mode, history]; decide)
  exact ⟨grabbed_reachable, p, after, q, there, agree p (pet_live there).1, current, ran, left,
    kept, counted⟩

/-- After every tick an idle pet whose action is over has asked for a behavior. Whatever calls come before the
next tick, that tick starts a behavior for the pet, unless the pet is grabbed in it. -/
theorem finished_actions_replaced (m after : Manager) (dt : Float32) (report : Report) (reached : m.Reachable)
    (ticked : m.tick? dt = some (after, report)) (id : PetId) (p : Pet) (there : after.pet? id = some p)
    (idle : p.interaction.mode = .idle) (finished : p.player.finished = true) :
    p.behavior.reselect.isSome = true ∧
      ∀ calls waiting, (∀ call ∈ calls, ∀ dt, call ≠ .tick dt) → after.run? calls = some waiting →
        ∀ dt later report q, waiting.tick? dt = some (later, report) → later.pet? id = some q →
          .dragging ∉ waiting.modesDuring id (.tick dt) →
          q.behavior.selections = p.behavior.selections + 1 := by
  have asked : p.behavior.reselect.isSome = true := by
    obtain ⟨p', member, output, stepped⟩ := tick_mem m after dt report ticked p (pet_live there).1
    exact Pet.step_requests _ output stepped (by rw [Interaction.isIdle, idle]; rfl) finished
  refine ⟨asked, fun calls waiting others ran dt' later report' q again present ungrabbed => ?_⟩
  have reached_after := reached.tick ticked
  have reached_waiting := reached_after.run ran
  rcases tick_pet waiting later dt' report' id again with ⟨_, absent⟩ | ⟨w, _, _, waits, _⟩
  · rw [absent] at present
    cases present
  · -- between the ticks nothing happens to the pet
    have same := run_keeps ran others (reachable_given reached_after there) waits
    cases Option.some.inj (same.symm.trans there)
    exact tick_starts reached_waiting again waits present idle asked ungrabbed

theorem finished_actions_replaced_grabbed :
    ∃ after report p later report' q, grabbed.tick? 10.0 = some (after, report) ∧ after.pet? ⟨2⟩ = some p ∧
      p.interaction.mode = .idle ∧ p.player.finished = true ∧ p.behavior.reselect.isSome = true ∧
      after.tick? 0.0 = some (later, report') ∧ later.pet? ⟨2⟩ = some q ∧
      q.behavior.selections = p.behavior.selections + 1 := by
  have landed : ((grabbed.tick? 10.0).bind fun result => (result.1.pet? ⟨2⟩).map fun p =>
      (p.interaction.mode, p.player.finished, result.1.modesDuring ⟨2⟩ (.tick 0.0),
        ((result.1.tick? 0.0).bind fun next => next.1.pet? ⟨2⟩).isSome)) = some (.idle, true, [.idle], true) := by
    decide +kernel
  obtain ⟨⟨after, report⟩, ticked, landed⟩ := Option.bind_eq_some_iff.mp landed
  obtain ⟨p, there, same⟩ := Option.map_eq_some_iff.mp landed
  simp only [Prod.mk.injEq] at same
  obtain ⟨idle, finished, modes, still⟩ := same
  obtain ⟨q, still⟩ := Option.isSome_iff_exists.mp still
  obtain ⟨⟨later, report'⟩, again, present⟩ := Option.bind_eq_some_iff.mp still
  obtain ⟨asked, starts⟩ :=
    finished_actions_replaced grabbed after 10.0 report grabbed_reachable ticked ⟨2⟩ p there idle finished
  have started := starts [] after nofun rfl 0.0 later report' q again present (by rw [modes]; decide)
  exact ⟨after, report, p, later, report', q, ticked, there, idle, finished, asked, again, present, started⟩

end DesktopPet
