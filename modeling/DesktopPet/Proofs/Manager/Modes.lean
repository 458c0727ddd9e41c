import DesktopPet.Proofs.Manager.Delivery
import DesktopPet.Proofs.Manager.Run
import DesktopPet.Proofs.Pet.Transitions

/-!
# The modes of a pet over a run

A pet's modes are followed through every pointer event and every motion of every tick. One event and one
motion make at most one move, which is allowed; `interaction_modes_follow` strings these together over
whole runs.
-/

namespace DesktopPet

/-- A mode stays or makes a move that is allowed. -/
def Mode.Follows (a b : Mode) : Prop :=
  b = a ∨ a.canMove b = true

/-- Modes passed through from one mode to another. -/
inductive Passes : Mode → List Mode → Mode → Prop where
  | stay (a : Mode) : Passes a [] a
  | step {a b c : Mode} {modes : List Mode} (first : Mode.Follows a b) (rest : Passes b modes c) :
      Passes a (b :: modes) c

theorem Passes.append {a b c : Mode} {first second : List Mode} (left : Passes a first b)
    (right : Passes b second c) : Passes a (first ++ second) c := by
  induction left with
  | stay a => exact right
  | step follows _ ih => exact .step follows (ih right)

theorem Passes.isChain {a b : Mode} {modes : List Mode} (passes : Passes a modes b) :
    List.IsChain Mode.Follows (a :: modes) := by
  induction passes with
  | stay a => exact .singleton a
  | step follows _ ih => exact .cons_cons follows ih

private theorem follows_idle (a : Mode) : Mode.Follows a .idle := by
  cases a with
  | idle => exact Or.inl rfl
  | dragging => exact Or.inr rfl
  | thrown => exact Or.inr rfl

/-- The pointer was pressed. -/
def PointerEvent.isDown : PointerEvent → Bool
  | .down _ _ => true
  | .move _ _ => false
  | .up _ _ => false

namespace Pet

/-! ## Events and motion -/

private theorem pointerDown_mode (p : Pet) (position : Vector2) (time : Float) :
    (p.pointerDown position time).interaction.mode = p.interaction.mode ∨
      p.interaction.mode = .idle ∧ (p.pointerDown position time).interaction.mode = .dragging := by
  unfold pointerDown
  dsimp only
  split
  next grabs =>
    -- the guard is what allows the move
    rw [Bool.and_eq_true] at grabs
    have idle : p.interaction.mode = .idle := by simpa [Interaction.isIdle] using grabs.1
    refine Or.inr ⟨idle, ?_⟩
    rw [lockBehavior_interaction]
    simp only [Interaction.moveTo, idle]
    rfl
  · exact Or.inl rfl

private theorem pointerMove_mode (p : Pet) (position : Vector2) :
    (p.pointerMove position).interaction.mode = p.interaction.mode := by
  unfold pointerMove
  cases dragged : p.interaction with
  | dragging drag => rfl
  | idle => rw [dragged]
  | thrown timer => rw [dragged]

/-- A release ends every drag. -/
private theorem pointerUp_mode (p q : Pet) (scene : Scene) (position : Vector2) (time : Float)
    (released : p.pointerUp? scene position time = some q) :
    q.interaction.mode ≠ .dragging ∧ Mode.Follows p.interaction.mode q.interaction.mode := by
  unfold pointerUp? at released
  cases mode : p.interaction with
  | idle =>
    simp only [mode, Option.some.injEq] at released
    rw [← released, mode]
    exact ⟨by decide, Or.inl rfl⟩
  | thrown timer =>
    simp only [mode, Option.some.injEq] at released
    rw [← released, mode]
    exact ⟨nofun, Or.inl rfl⟩
  | dragging drag =>
    simp only [mode] at released
    split at released
    · obtain ⟨body, facing, behavior, player, thrown⟩ := throw_effect { p with
        interaction := .dragging drag, body.position := position - drag.grabOffset } _
      rw [Option.some.inj (released.symm.trans (congrArg some thrown))]
      exact ⟨nofun, Or.inr rfl⟩
    · obtain ⟨_, _, dropped⟩ := drop_effect _ _ _ released
      rw [dropped]
      exact ⟨nofun, Or.inr rfl⟩

/-- Motion keeps the mode or ends a flight. -/
theorem move_mode (p q : Pet) (scene : Scene) (moved : p.move? scene = some q) :
    q.interaction.mode = p.interaction.mode ∨ q.interaction.mode = .idle := by
  unfold move? at moved
  cases mode : p.interaction with
  | idle =>
    simp only [mode] at moved
    obtain ⟨_, _, same⟩ := Option.bind_eq_some_iff.mp moved
    rw [← Option.some.inj same]
    exact Or.inl (congrArg Interaction.mode mode)
  | dragging drag =>
    simp only [mode, Option.some.injEq] at moved
    rw [← moved, mode]
    exact Or.inl rfl
  | thrown timer =>
    simp only [mode] at moved
    obtain ⟨flown, _, same⟩ := Option.bind_eq_some_iff.mp moved
    dsimp only at same
    split at same
    · rw [← Option.some.inj same]
      exact Or.inl rfl
    · rw [← Option.some.inj same, mode]
      exact Or.inr rfl

private theorem applyEvent_follows (p q : Pet) (scene : Scene) (event : PointerEvent)
    (applied : p.applyEvent? scene event = some q) : Mode.Follows p.interaction.mode q.interaction.mode := by
  cases event with
  | down position time =>
    cases Option.some.inj applied
    rcases pointerDown_mode p position time with kept | ⟨idle, grabbed⟩
    · exact Or.inl kept
    · rw [idle, grabbed]
      exact Or.inr rfl
  | move position time =>
    cases Option.some.inj applied
    exact Or.inl (pointerMove_mode p position)
  | up position time => exact (pointerUp_mode p q scene position time applied).2

/-! ## One tick -/

/-- The modes of a pet after each of some pointer events. -/
def pointerModes (p : Pet) (scene : Scene) : List PointerEvent → List Mode
  | [] => []
  | event :: rest =>
    match p.applyEvent? scene event with
    | none => []
    | some q => q.interaction.mode :: q.pointerModes scene rest

/-- The modes of a pet in one tick: after each pointer event that waits, and after the motion. -/
def tickModes (p : Pet) (scene : Scene) : List Mode :=
  { p with events := [] }.pointerModes scene p.events ++ ((p.step? scene).map (·.1.interaction.mode)).toList

private theorem pointerModes_passes (p : Pet) (scene : Scene) (events : List PointerEvent) :
    ∃ last, Passes p.interaction.mode (p.pointerModes scene events) last ∧
      ∀ q, events.foldlM (fun p event => p.applyEvent? scene event) p = some q → last = q.interaction.mode := by
  induction events generalizing p with
  | nil =>
    refine ⟨p.interaction.mode, .stay _, fun q applied => ?_⟩
    rw [← Option.some.inj applied]
  | cons event rest ih =>
    rw [pointerModes, List.foldlM_cons]
    cases applied : p.applyEvent? scene event with
    | none => exact ⟨p.interaction.mode, .stay _, fun q never => by cases never⟩
    | some middle =>
      obtain ⟨last, passes, reached⟩ := ih middle
      exact ⟨last, .step (applyEvent_follows p middle scene event applied) passes, reached⟩

private theorem tickModes_passes (p : Pet) (scene : Scene) :
    ∃ last, Passes p.interaction.mode (p.tickModes scene) last ∧
      ∀ q output, p.step? scene = some (q, output) → last = q.interaction.mode := by
  obtain ⟨middle, passes, reached⟩ := pointerModes_passes { p with events := [] } scene p.events
  rw [tickModes]
  cases stepped : p.step? scene with
  | none => exact ⟨middle, passes.append (.stay middle), fun q output never => by cases never⟩
  | some result =>
    obtain ⟨q, output⟩ := result
    obtain ⟨handled, played, moved, pointed, ⟨_, _, _, _, rfl⟩, motion, _, _, rfl⟩ :=
      step_parts p q scene output stepped
    have start : middle = handled.interaction.mode := reached handled pointed
    have follows : Mode.Follows middle moved.interaction.mode := by
      rcases move_mode _ moved scene motion with kept | ended
      · exact Or.inl (kept.trans start.symm)
      · rw [ended]
        exact follows_idle middle
    refine ⟨moved.interaction.mode, passes.append (.step follows (.stay _)), fun q' output' same => ?_⟩
    cases Option.some.inj same
    rfl

/-! ## Releases -/

theorem applyEvent_not_dragging (p q : Pet) (scene : Scene) (event : PointerEvent)
    (applied : p.applyEvent? scene event = some q) (noPress : event.isDown = false)
    (free : p.interaction.mode ≠ .dragging) : q.interaction.mode ≠ .dragging := by
  cases event with
  | down position time => cases noPress
  | move position time =>
    cases Option.some.inj applied
    rw [pointerMove_mode]
    exact free
  | up position time => exact (pointerUp_mode p q scene position time applied).1

/-- Without a press a pet that is not dragged stays so. -/
theorem applyEvents_not_dragging (p q : Pet) (scene : Scene) (events : List PointerEvent)
    (applied : events.foldlM (fun p event => p.applyEvent? scene event) p = some q)
    (noPress : ∀ event ∈ events, event.isDown = false) (free : p.interaction.mode ≠ .dragging) :
    q.interaction.mode ≠ .dragging := by
  induction events generalizing p with
  | nil =>
    rw [← Option.some.inj applied]
    exact free
  | cons event rest ih =>
    rw [List.foldlM_cons] at applied
    obtain ⟨middle, first, later⟩ := Option.bind_eq_some_iff.mp applied
    have released := applyEvent_not_dragging p middle scene event first (noPress event List.mem_cons_self) free
    exact ih middle later (fun event member => noPress event (List.mem_cons_of_mem _ member)) released

/-- After a release with no press behind it, a step ends without a drag. -/
theorem step_released (p q : Pet) (scene : Scene) (output : Output) (stepped : p.step? scene = some (q, output))
    (before after : List PointerEvent) (position : Vector2) (time : Float)
    (waiting : p.events = before ++ .up position time :: after)
    (noPress : ∀ event ∈ after, event.isDown = false) : q.interaction.mode ≠ .dragging := by
  obtain ⟨handled, played, moved, pointed, ⟨_, _, _, _, rfl⟩, motion, _, _, rfl⟩ :=
    step_parts p q scene output stepped
  rw [applyPointer?, waiting, List.foldlM_append] at pointed
  obtain ⟨early, _, pointed⟩ := Option.bind_eq_some_iff.mp pointed
  rw [List.foldlM_cons] at pointed
  obtain ⟨released, up, late⟩ := Option.bind_eq_some_iff.mp pointed
  have free := (pointerUp_mode early released scene position time up).1
  have handled_free := applyEvents_not_dragging released handled scene after late noPress free
  rcases move_mode _ moved scene motion with kept | ended
  · rw [kept]
    exact handled_free
  · rw [ended]
    nofun

end Pet

namespace Manager

/-! ## Runs -/

/-- The modes of a pet during a call: all those of a tick, and the one after any other call. -/
def modesDuring (m : Manager) (id : PetId) : Call → List Mode
  | .tick dt =>
    match m.pet? id with
    | none => []
    | some p => (p.receiveAll m.channel.waiting).tickModes (m.prepare dt).scene
  | call => (((m.perform? call).bind (·.pet? id)).map (·.interaction.mode)).toList

/-- The modes of a pet over a run. -/
def modeHistory (id : PetId) : Manager → List Call → List Mode
  | _, [] => []
  | m, call :: rest =>
    m.modesDuring id call ++
      match m.perform? call with
      | none => []
      | some after => modeHistory id after rest

/-- A tick in which a refused transition is a fault. -/
def tickStrict (m : Manager) (dt : Float32) : Except Fault (Manager × Report) := do
  let m := m.prepare dt
  let stepped ← (m.pets.map fun p => p.receiveAll m.channel.waiting).mapM fun p => p.stepStrict m.scene
  return m.afterSteps stepped

private theorem mapM_stepStrict (pets : List Pet) (scene : Scene) :
    (pets.mapM fun p => p.stepStrict scene) = orMissing (pets.mapM fun p => p.step? scene) := by
  induction pets with
  | nil => rfl
  | cons p rest ih =>
    rw [List.mapM_cons, List.mapM_cons, Option.bind_eq_bind, orMissing_bind, Pet.stepStrict_eq, ih]
    congr 1
    funext first
    rw [Option.bind_eq_bind, orMissing_bind]
    rfl

theorem tickStrict_eq (m : Manager) (dt : Float32) : m.tickStrict dt = orMissing (m.tick? dt) := by
  unfold tickStrict
  dsimp only
  rw [mapM_stepStrict, tick_parts, orMissing_bind]
  rfl

/-- The pet of a number is the same before and after a tick, a step apart. -/
theorem tick_pet (m after : Manager) (dt : Float32) (report : Report) (id : PetId)
    (ticked : m.tick? dt = some (after, report)) :
    (m.pet? id = none ∧ after.pet? id = none) ∨ ∃ p q output, m.pet? id = some p ∧ after.pet? id = some q ∧
      (p.withShare m.channel.waiting).step? (m.prepare dt).scene = some (q, output) := by
  obtain ⟨_, steps⟩ := tick_pets m after dt report ticked
  rw [pet?, pet?]
  generalize m.pets = before at steps ⊢
  generalize after.pets = later at steps ⊢
  induction steps with
  | nil => exact Or.inl ⟨rfl, rfl⟩
  | @cons p q _ _ step _ ih =>
    obtain ⟨output, stepped⟩ := step
    have same : q.id = p.id := (Pet.step_effect _ q _ output stepped).1
    rw [List.find?_cons, List.find?_cons, same]
    by_cases found : p.id = id
    · simp only [found, decide_true]
      exact Or.inr ⟨p, q, output, rfl, rfl, stepped⟩
    · simp only [found, decide_false]
      exact ih

/-- After a call other than a tick a pet is what it was, or it is new and idle. -/
theorem perform_pet (m after : Manager) (call : Call) (id : PetId) (q : Pet)
    (performed : m.perform? call = some after) (other : ∀ dt, call ≠ .tick dt) (there : after.pet? id = some q) :
    m.pet? id = some q ∨ id.number = m.nextNumber ∧ q.interaction.mode = .idle := by
  have found : q.id = id := by simpa using List.find?_some there
  rw [pet?] at there
  have change := perform_pets m after call performed other
  generalize after.pets = pets at change there
  cases change with
  | kept => exact Or.inl there
  | added pack catalog position size contact seed loaded =>
    rw [List.find?_append] at there
    cases earlier : m.pets.find? (·.id = id) with
    | some p =>
      rw [earlier] at there
      exact Or.inl (earlier.trans there)
    | none =>
      rw [earlier] at there
      have new := List.mem_of_find?_eq_some there
      rw [← found, List.mem_singleton.mp new]
      exact Or.inr ⟨rfl, rfl⟩
  | removed gone =>
    have stays : q.id ≠ gone := by simpa using List.of_mem_filter (List.mem_of_find?_eq_some there)
    rw [List.find?_filter] at there
    have same : (fun p : Pet => decide (decide (p.id ≠ gone) = true ∧ decide (p.id = id) = true)) =
        fun p : Pet => decide (p.id = id) := by
      funext p
      by_cases mine : p.id = id
      · simp [mine, ← found, stays]
      · simp [mine]
    rw [same] at there
    exact Or.inl there

private theorem modesDuring_other (m : Manager) (id : PetId) (call : Call) (other : ∀ dt, call ≠ .tick dt) :
    m.modesDuring id call = (((m.perform? call).bind (·.pet? id)).map (·.interaction.mode)).toList := by
  cases call with
  | tick dt => exact absurd rfl (other dt)
  | _ => rfl

/-- A tick leads a pet from its mode to the mode it has afterwards. -/
theorem tick_passes (m : Manager) (id : PetId) (dt : Float32) (start : Mode)
    (here : ∀ p, m.pet? id = some p → start = p.interaction.mode) :
    ∃ last, Passes start (m.modesDuring id (.tick dt)) last ∧
      ∀ after q, m.perform? (.tick dt) = some after → after.pet? id = some q → last = q.interaction.mode := by
  cases there : m.pet? id with
  | none =>
    refine ⟨start, by rw [modesDuring, there]; exact .stay start, fun after q performed present => ?_⟩
    obtain ⟨result, ticked, rfl⟩ := Option.map_eq_some_iff.mp performed
    rcases tick_pet m result.1 dt result.2 id ticked with ⟨_, absent⟩ | ⟨p, _, _, was, _⟩
    · rw [absent] at present
      cases present
    · rw [there] at was
      cases was
  | some p =>
    obtain ⟨last, passes, reached⟩ := Pet.tickModes_passes (p.receiveAll m.channel.waiting) (m.prepare dt).scene
    have from_start : start = (p.receiveAll m.channel.waiting).interaction.mode := by
      rw [Pet.receiveAll_share]
      exact here p there
    refine ⟨last, by rw [modesDuring, there, from_start]; exact passes, fun after q performed present => ?_⟩
    obtain ⟨result, ticked, rfl⟩ := Option.map_eq_some_iff.mp performed
    rcases tick_pet m result.1 dt result.2 id ticked with ⟨_, absent⟩ | ⟨p', q', output, was, now, stepped⟩
    · rw [absent] at present
      cases present
    · rw [there, Option.some.injEq] at was
      rw [now, Option.some.injEq] at present
      subst was present
      rw [← Pet.receiveAll_share] at stepped
      exact reached q' output stepped

/-- Any other call leaves a pet its mode, and a pet that comes with it is idle, which follows every mode. -/
theorem call_passes (m : Manager) (id : PetId) (call : Call) (other : ∀ dt, call ≠ .tick dt) (start : Mode)
    (here : ∀ p, m.pet? id = some p → start = p.interaction.mode) :
    ∃ last, Passes start (m.modesDuring id call) last ∧
      ∀ after q, m.perform? call = some after → after.pet? id = some q → last = q.interaction.mode := by
  rw [modesDuring_other m id call other]
  cases performed : m.perform? call with
  | none => exact ⟨start, .stay start, fun after q never => by cases never⟩
  | some after =>
    rw [Option.bind_some]
    cases there : after.pet? id with
    | none =>
      refine ⟨start, .stay start, fun after' q same present => ?_⟩
      rw [← Option.some.inj same, there] at present
      cases present
    | some q =>
      have follows : Mode.Follows start q.interaction.mode := by
        rcases perform_pet m after call id q performed other there with was | ⟨_, idle⟩
        · exact Or.inl (here q was).symm
        · rw [idle]
          exact follows_idle start
      refine ⟨q.interaction.mode, .step follows (.stay _), fun after' q' same present => ?_⟩
      rw [← Option.some.inj same, there] at present
      rw [Option.some.inj present]

/-- The modes of a whole run make a passage. The start may be any mode while the pet is not there. -/
theorem modeHistory_passes (id : PetId) (m : Manager) (calls : List Call) (start : Mode)
    (here : ∀ p, m.pet? id = some p → start = p.interaction.mode) :
    ∃ last, Passes start (modeHistory id m calls) last := by
  induction calls generalizing m start with
  | nil => exact ⟨start, .stay start⟩
  | cons call rest ih =>
    obtain ⟨middle, during, reached⟩ : ∃ middle, Passes start (m.modesDuring id call) middle ∧
        ∀ after q, m.perform? call = some after → after.pet? id = some q → middle = q.interaction.mode := by
      by_cases ticks : ∃ dt, call = .tick dt
      · obtain ⟨dt, rfl⟩ := ticks
        exact tick_passes m id dt start here
      · exact call_passes m id call (fun dt same => ticks ⟨dt, same⟩) start here
    rw [modeHistory]
    cases performed : m.perform? call with
    | none => exact ⟨middle, during.append (.stay middle)⟩
    | some after =>
      obtain ⟨last, later⟩ := ih after middle fun q there => reached after q performed there
      exact ⟨last, during.append later⟩

end Manager

open Manager

/-- From any state, the modes of a pet over any run, taken after each pointer event and each motion, stay
or make allowed moves; no transition of any tick is refused; and a tick in which a release reaches a pet
with no press behind it leaves the pet undragged. -/
theorem interaction_modes_follow (m : Manager) (id : PetId) (calls : List Call) :
    List.IsChain Mode.Follows (((m.pet? id).map (·.interaction.mode)).toList ++ modeHistory id m calls) ∧
      (∀ dt, m.tickStrict dt = orMissing (m.tick? dt)) ∧
      ∀ dt after report p, m.tick? dt = some (after, report) → m.pet? id = some p →
        ∃ q, after.pet? id = some q ∧ ∀ earlier position time later,
          p.events ++ pointerEvents id m.channel.waiting = earlier ++ .up position time :: later →
          (∀ event ∈ later, event.isDown = false) → q.interaction.mode ≠ .dragging := by
  refine ⟨?_, tickStrict_eq m, fun dt after report p ticked there => ?_⟩
  · cases there : m.pet? id with
    | none =>
      -- a pet that is not there yet is idle when it comes
      obtain ⟨last, passes⟩ := modeHistory_passes id m calls .idle (fun p present => by
        rw [there] at present
        cases present)
      exact passes.isChain.of_cons
    | some p =>
      obtain ⟨last, passes⟩ := modeHistory_passes id m calls p.interaction.mode (fun p' present => by
        rw [there, Option.some.injEq] at present
        rw [present])
      exact passes.isChain
  · rcases tick_pet m after dt report id ticked with ⟨absent, _⟩ | ⟨p', q, output, was, now, stepped⟩
    · rw [there] at absent
      cases absent
    · rw [there, Option.some.injEq] at was
      subst was
      have mine : p.id = id := by simpa using List.find?_some there
      refine ⟨q, now, fun earlier position time later delivered noPress => ?_⟩
      have waiting : (p.withShare m.channel.waiting).events = earlier ++ .up position time :: later := by
        rw [← delivered, ← mine]
        rfl
      exact Pet.step_released _ q _ output stepped earlier later position time waiting noPress

/-- Two pets, the first of which is about to be thrown. -/
def thrower : Manager :=
  { playground with channel.waiting := tangledCommands }

/-- The throw, a press in vain, and a tick that lasts beyond the end of the throw. -/
def throwCalls : List Call :=
  [.tick 0.033, .ask ⟨1⟩ (.pointer (.down ⟨410.0, 410.0⟩ 0.2)), .tick 10.0]

theorem interaction_modes_follow_thrower :
    modeHistory ⟨1⟩ thrower throwCalls = [.dragging, .thrown, .thrown, .thrown, .thrown, .idle] ∧
      List.IsChain Mode.Follows
        (((thrower.pet? ⟨1⟩).map (·.interaction.mode)).toList ++ modeHistory ⟨1⟩ thrower throwCalls) ∧
      ∃ after report q, thrower.tick? 0.033 = some (after, report) ∧ after.pet? ⟨1⟩ = some q ∧
        q.interaction.mode ≠ .dragging := by
  have answered : (thrower.tick? 0.033).isSome = true := by decide +kernel
  obtain ⟨⟨after, report⟩, ticked⟩ := Option.isSome_iff_exists.mp answered
  obtain ⟨chain, _, releases⟩ := interaction_modes_follow thrower ⟨1⟩ throwCalls
  obtain ⟨q, there, free⟩ := releases 0.033 after report (restingPet 1) ticked (by decide +kernel)
  have undragged := free [.down ⟨410.0, 410.0⟩ 0.0] ⟨700.0, 410.0⟩ 0.1 [] (by decide +kernel) (by simp)
  exact ⟨by decide +kernel, chain, after, report, q, ticked, there, undragged⟩

end DesktopPet
