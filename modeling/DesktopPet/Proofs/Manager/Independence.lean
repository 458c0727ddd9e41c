import DesktopPet.Proofs.Manager.Modes
import DesktopPet.Proofs.Manager.Reachable
import DesktopPet.Proofs.Pet.Phases

/-!
# Pets do not influence each other

A pet that lives on its own, among the same settings and with what is waiting for it, goes through the same
ticks as among others. `Isolates` relates the two managers. A tick keeps it (`tick_isolated`), and so does every
other call, if the lonely manager only gets the calls that concern its pet (`concerned_isolated`,
`unconcerned_isolated`).
-/

namespace DesktopPet

/-- The share of one pet in a report. -/
def Report.of (report : Report) (id : PetId) : Report :=
  { frames := report.frames.filter (·.1 = id)
    sounds := report.sounds.filter (·.pet = id)
    calls := report.calls.filter (·.pet = id) }

/-- The call is of concern to a pet: it is for that pet, it changes what all pets see, or it lets time
pass. -/
def Call.concerns (id : PetId) : Call → Bool
  | .loadPack _ _ => false
  | .register _ => false
  | .registerAt _ _ => false
  | .unregister other => other = id
  | .ask other _ => other = id
  | .post command => command.pet = id
  | .stage _ => true
  | .tick _ => true

/-! ## Shares of one pet -/

/-- What is only taken from commands for a pet is not missed when the other commands are dropped. -/
private theorem filterMap_own {α : Type} (id : PetId) (take : Command → Option α)
    (own : ∀ command : Command, command.pet ≠ id → take command = none) (commands : List Command) :
    (commands.filter (·.pet = id)).filterMap take = commands.filterMap take := by
  rw [List.filterMap_filter]
  apply List.filterMap_congr
  intro command _
  by_cases mine : command.pet = id
  · simp [mine]
  · simp [mine, own command mine]

private theorem pointerEvents_filter (id : PetId) (commands : List Command) :
    pointerEvents id (commands.filter (·.pet = id)) = pointerEvents id commands := by
  apply filterMap_own
  intro command other
  cases asked : command.request <;> simp [other]

private theorem triggers_filter (id : PetId) (commands : List Command) :
    triggers id (commands.filter (·.pet = id)) = triggers id commands := by
  apply filterMap_own
  intro command other
  cases asked : command.request <;> simp [other]

/-- A pet takes nothing from commands for others. -/
theorem Pet.withShare_filter (p : Pet) (commands : List Command) :
    p.withShare (commands.filter (·.pet = p.id)) = p.withShare commands := by
  rw [withShare, withShare, pointerEvents_filter, triggers_filter]

/-- Entries that are kept have the results that are kept. -/
private theorem mapM_filter {α β : Type} (f : α → Option β) (keep : α → Bool) (kept : β → Bool)
    (agree : ∀ a b, f a = some b → kept b = keep a) (entries : List α) (results : List β)
    (mapped : entries.mapM f = some results) : (entries.filter keep).mapM f = some (results.filter kept) := by
  induction entries generalizing results with
  | nil =>
    cases Option.some.inj mapped
    rfl
  | cons a rest ih =>
    rw [List.mapM_cons] at mapped
    obtain ⟨b, first, mapped⟩ := Option.bind_eq_some_iff.mp mapped
    obtain ⟨others, later, mapped⟩ := Option.bind_eq_some_iff.mp mapped
    cases Option.some.inj mapped
    have tail := ih others later
    cases stays : keep a with
    | true => simp [stays, agree a b first, first, tail]
    | false => simp [stays, agree a b first, tail]

theorem mapM_isSome {α β : Type} (f : α → Option β) (entries : List α) :
    (entries.mapM f).isSome = true ↔ ∀ a ∈ entries, (f a).isSome = true := by
  induction entries with
  | nil => simp
  | cons a rest ih =>
    cases first : f a with
    | none => simp [first]
    | some b =>
      cases later : rest.mapM f with
      | none => simpa [first, later] using ih
      | some others => simpa [first, later] using ih

/-- Where everything that is given bears the name of its giver, what one of them gives is all that bears
its name. -/
private theorem filter_flatMap_own {α β : Type} (own : α → PetId) (give : α → List β) (mark : β → PetId) (id : PetId)
    (entries : List α) (marked : ∀ a ∈ entries, ∀ b ∈ give a, mark b = own a) :
    (entries.filter (own · = id)).flatMap give = (entries.flatMap give).filter (mark · = id) := by
  induction entries with
  | nil => rfl
  | cons a rest ih =>
    have tail := ih fun b member => marked b (List.mem_cons_of_mem a member)
    have head : (give a).filter (mark · = id) = if own a = id then give a else [] := by
      split
      next mine =>
        rw [List.filter_eq_self]
        intro b given
        simpa [marked a List.mem_cons_self b given] using mine
      next other =>
        rw [List.filter_eq_nil_iff]
        intro b given
        simpa [marked a List.mem_cons_self b given] using other
    rw [List.flatMap_cons, List.filter_append, head, ← tail]
    by_cases mine : own a = id
    · simp [mine]
    · simp [mine]

namespace Manager

/-- Of the pets of `m` the manager `solo` has only the one of a number, and of the commands only those for
it; all that pets see is the same. Packs, numbers and generator are of no concern to a pet. -/
structure Isolates (m solo : Manager) (id : PetId) : Prop where
  pets : solo.pets = m.pets.filter (·.id = id)
  waiting : solo.channel.waiting = m.channel.waiting.filter (·.pet = id)
  isOpen : solo.channel.isOpen = m.channel.isOpen
  area : solo.area = m.area
  settings : solo.settings = m.settings
  staged : solo.staged = m.staged
  clock : solo.clock = m.clock

/-- The manager with one of its pets and what is waiting for it. -/
def alone (m : Manager) (id : PetId) : Manager :=
  { m with
    pets := m.pets.filter (·.id = id)
    channel := { m.channel with waiting := m.channel.waiting.filter (·.pet = id) } }

theorem alone_isolated (m : Manager) (id : PetId) : m.Isolates (m.alone id) id :=
  ⟨rfl, rfl, rfl, rfl, rfl, rfl, rfl⟩

section Isolated

variable {m solo : Manager} {id : PetId}

theorem Isolates.pet? (isolated : m.Isolates solo id) : solo.pet? id = m.pet? id := by
  rw [Manager.pet?, Manager.pet?, isolated.pets, List.find?_filter]
  congr 1
  funext p
  simp

/-! ## Ticks -/

theorem Isolates.prepare (isolated : m.Isolates solo id) (dt : Float32) :
    (m.prepare dt).Isolates (solo.prepare dt) id := by
  unfold Manager.prepare applyStaged
  simp only [isolated.staged]
  cases m.staged with
  | none =>
    exact ⟨isolated.pets, isolated.waiting, isolated.isOpen, isolated.area, isolated.settings, rfl,
      congrArg (·.advance dt) isolated.clock⟩
  | some settings =>
    refine ⟨isolated.pets, isolated.waiting, isolated.isOpen, ?_, ?_, rfl, congrArg (·.advance dt) isolated.clock⟩
    · simp only [isolated.area]
    · simp only [isolated.settings]

theorem Isolates.scene (isolated : m.Isolates solo id) : solo.scene = m.scene := by
  rw [Manager.scene, Manager.scene, isolated.area, isolated.settings, isolated.clock]

theorem Isolates.sharedPets (isolated : m.Isolates solo id) :
    solo.sharedPets = m.sharedPets.filter (·.id = id) := by
  rw [Manager.sharedPets, Manager.sharedPets, isolated.pets, isolated.waiting, List.filter_map]
  apply List.map_congr_left
  intro p member
  have mine : p.id = id := by simpa using (List.mem_filter.mp member).2
  rw [← mine, Pet.withShare_filter]

/-- What the steps of all pets come to holds what the step of one pet comes to. -/
theorem Isolates.afterSteps (isolated : m.Isolates solo id) (stepped : List (Pet × Pet.Output))
    (marked : ∀ entry ∈ stepped, (∀ cue ∈ entry.2.sounds, cue.pet = entry.1.id) ∧
      ∀ call ∈ entry.2.calls, call.pet = entry.1.id) :
    (m.afterSteps stepped).1.Isolates (solo.afterSteps (stepped.filter (·.1.id = id))).1 id ∧
      (solo.afterSteps (stepped.filter (·.1.id = id))).2 = (m.afterSteps stepped).2.of id := by
  have pets : (stepped.filter (·.1.id = id)).map (·.1) = (stepped.map (·.1)).filter (·.id = id) := by
    rw [List.filter_map]
    rfl
  have frames : ((stepped.filter (·.1.id = id)).map (·.1)).map (fun p => (p.id, p.picture)) =
      ((stepped.map (·.1)).map fun p => (p.id, p.picture)).filter (·.1 = id) := by
    simp [List.filter_map, Function.comp_def]
  have sounds := filter_flatMap_own (·.1.id) (·.2.sounds) SoundCue.pet id stepped fun entry member =>
    (marked entry member).1
  have calls := filter_flatMap_own (·.1.id) (·.2.calls) HostCall.pet id stepped fun entry member =>
    (marked entry member).2
  refine ⟨⟨pets, rfl, isolated.isOpen, isolated.area, isolated.settings, isolated.staged, isolated.clock⟩, ?_⟩
  rw [Manager.afterSteps, Manager.afterSteps, Report.of]
  simp only [frames, sounds, calls]

/-- A pet on its own makes the tick that it makes among others, and its report is its share of theirs. -/
theorem tick_isolated (isolated : m.Isolates solo id) {after : Manager} {dt : Float32} {report : Report}
    (ticked : m.tick? dt = some (after, report)) :
    ∃ soloAfter, solo.tick? dt = some (soloAfter, report.of id) ∧ after.Isolates soloAfter id := by
  rw [tick_eq] at ticked
  obtain ⟨stepped, steps, result⟩ := Option.map_eq_some_iff.mp ticked
  have prepared := isolated.prepare dt
  have own (p : Pet) (entry : Pet × Pet.Output) (made : p.step? (m.prepare dt).scene = some entry) :
      entry.1.id = p.id := (Pet.step_effect p entry.1 _ entry.2 made).1
  have kept := mapM_filter (fun p : Pet => p.step? (m.prepare dt).scene) (·.id = id) (·.1.id = id)
    (fun p entry made => by rw [own p entry made]) m.sharedPets stepped steps
  have marked : ∀ entry ∈ stepped, (∀ cue ∈ entry.2.sounds, cue.pet = entry.1.id) ∧
      ∀ call ∈ entry.2.calls, call.pet = entry.1.id := by
    intro entry member
    obtain ⟨p, _, made⟩ := forall₂_mem_right (forall₂_of_mapM _ _ _ steps) entry member
    rw [own p entry made]
    exact Pet.step_output p entry.1 _ entry.2 made
  obtain ⟨still, share⟩ := prepared.afterSteps stepped marked
  rw [result] at still share
  refine ⟨((solo.prepare dt).afterSteps (stepped.filter (·.1.id = id))).1, ?_, still⟩
  rw [tick_eq, isolated.sharedPets, prepared.scene, kept, Option.map_some, ← share]

/-- A tick has an answer if each pet on its own has one. -/
theorem tick_isSome (m : Manager) (dt : Float32) :
    (m.tick? dt).isSome = true ↔ ∀ p ∈ m.pets, ((m.alone p.id).tick? dt).isSome = true := by
  constructor
  · intro answered p _
    obtain ⟨⟨after, report⟩, ticked⟩ := Option.isSome_iff_exists.mp answered
    obtain ⟨soloAfter, same, _⟩ := tick_isolated (alone_isolated m p.id) ticked
    rw [same]
    rfl
  · intro each
    rw [tick_eq, Option.isSome_map, mapM_isSome]
    intro shared member
    obtain ⟨p, live, rfl⟩ := List.mem_map.mp member
    have isolated := alone_isolated m p.id
    have answered := each p live
    rw [tick_eq, Option.isSome_map, mapM_isSome, isolated.sharedPets, (isolated.prepare dt).scene] at answered
    exact answered _ (List.mem_filter.mpr ⟨member, by simp [Pet.withShare]⟩)

/-! ## Other calls -/

theorem enqueue_channel (m : Manager) (command : Command) :
    (m.enqueue command).channel =
      { m.channel with
        waiting := if m.channel.isOpen then m.channel.waiting ++ [command] else m.channel.waiting } := by
  unfold enqueue Channel.send?
  split
  · rfl
  · rfl

private theorem enqueue_isolated (isolated : m.Isolates solo id) (command : Command) (mine : command.pet = id) :
    (m.enqueue command).Isolates (solo.enqueue command) id := by
  refine ⟨isolated.pets, ?_, ?_, isolated.area, isolated.settings, isolated.staged, isolated.clock⟩
  · simp only [enqueue_channel, isolated.isOpen, isolated.waiting]
    split
    · simp [mine]
    · rfl
  · simpa only [enqueue_channel] using isolated.isOpen

private theorem enqueue_apart (isolated : m.Isolates solo id) (command : Command) (other : command.pet ≠ id) :
    (m.enqueue command).Isolates solo id := by
  refine ⟨isolated.pets, ?_, ?_, isolated.area, isolated.settings, isolated.staged, isolated.clock⟩
  · simp only [enqueue_channel, isolated.waiting]
    split
    · simp [other]
    · rfl
  · simpa only [enqueue_channel] using isolated.isOpen

/-- The report of a call: a tick has one. -/
def reportOf (m : Manager) : Call → List Report
  | .tick dt => ((m.tick? dt).map (·.2)).toList
  | _ => []

/-- A call of no concern to a pet leaves its lonely manager as it should be, and reports nothing. -/
theorem unconcerned_isolated (isolated : m.Isolates solo id) (given : id.number < m.nextNumber) {call : Call}
    {after : Manager} (apart : call.concerns id = false) (effect : m.Effect call after) :
    after.Isolates solo id ∧ m.reportOf call = [] := by
  cases effect with
  | rejected pack spec => exact ⟨isolated, rfl⟩
  | loaded pack spec catalog issues compiled => exact ⟨{ isolated with }, rfl⟩
  | unplaced call random registers =>
    refine ⟨{ isolated with }, ?_⟩
    cases call with
    | tick dt => cases registers
    | _ => rfl
  | registered call random pack catalog position size contact seed registers loaded =>
    -- a new pet has another number
    have fresh : (⟨m.nextNumber⟩ : PetId) ≠ id := by
      rintro rfl
      exact Nat.lt_irrefl _ given
    refine ⟨{ isolated with pets := ?_ }, ?_⟩
    · simp [isolated.pets, Pet.spawn, fresh]
    · cases call with
      | tick dt => cases registers
      | _ => rfl
  | unregistered gone =>
    have other : gone ≠ id := by simpa [Call.concerns] using apart
    refine ⟨{ isolated with pets := ?_ }, rfl⟩
    rw [isolated.pets, List.filter_filter]
    apply List.filter_congr
    intro p _
    by_cases mine : p.id = id
    · simp [mine, Ne.symm other]
    · simp [mine]
  | asked asked request present =>
    exact ⟨enqueue_apart isolated _ (by simpa [Call.concerns] using apart), rfl⟩
  | unanswered asked request absent => exact ⟨isolated, rfl⟩
  | posted command => exact ⟨enqueue_apart isolated command (by simpa [Call.concerns] using apart), rfl⟩
  | staged settings => cases apart
  | ticked dt after report ticked => cases apart

/-- A call that concerns a pet does to its lonely manager what it does to the pet among others. -/
theorem concerned_isolated (isolated : m.Isolates solo id) {call : Call} {after : Manager}
    (concerned : call.concerns id = true) (effect : m.Effect call after) :
    ∃ soloAfter, solo.perform? call = some soloAfter ∧ after.Isolates soloAfter id ∧
      solo.reportOf call = (m.reportOf call).map (·.of id) := by
  cases effect with
  | rejected pack spec => cases concerned
  | loaded pack spec catalog issues compiled => cases concerned
  | unplaced call random registers =>
    cases call with
    | register pack => cases concerned
    | registerAt pack position => cases concerned
    | _ => cases registers
  | registered call random pack catalog position size contact seed registers loaded =>
    cases call with
    | register pack => cases concerned
    | registerAt pack position => cases concerned
    | _ => cases registers
  | unregistered gone =>
    refine ⟨_, congrArg some (unregister_filter solo gone), { isolated with pets := ?_ }, rfl⟩
    simp only [isolated.pets]
    exact List.filter_comm _ _ _
  | asked asked request present =>
    have mine : asked = id := by simpa [Call.concerns] using concerned
    subst mine
    have same : (solo.ask asked request).manager = solo.enqueue ⟨asked, request⟩ := by
      rw [ask, if_pos (by rw [isolated.pet?]; exact present), post_enqueue]
    exact ⟨_, congrArg some same, enqueue_isolated isolated _ rfl, rfl⟩
  | unanswered asked request absent =>
    have mine : asked = id := by simpa [Call.concerns] using concerned
    subst mine
    have same : (solo.ask asked request).manager = solo := by
      rw [ask, if_neg (by rw [isolated.pet?, absent]; nofun)]
    exact ⟨_, congrArg some same, isolated, rfl⟩
  | posted command =>
    have mine : command.pet = id := by simpa [Call.concerns] using concerned
    exact ⟨_, congrArg some (post_enqueue solo command), enqueue_isolated isolated command mine, rfl⟩
  | staged settings => exact ⟨_, rfl, { isolated with staged := rfl }, rfl⟩
  | ticked dt after report ticked =>
    obtain ⟨soloAfter, same, still⟩ := tick_isolated isolated ticked
    refine ⟨soloAfter, by rw [perform?, same]; rfl, still, ?_⟩
    rw [reportOf, reportOf, same, ticked]
    rfl

/-! ## Runs -/

/-- The reports of the ticks of a run. -/
def reports : Manager → List Call → List Report
  | _, [] => []
  | m, call :: rest =>
    m.reportOf call ++
      match m.perform? call with
      | none => []
      | some after => reports after rest

/-- Over any run a pet on its own, given only the calls that concern it, stays what it is among others. -/
theorem run_isolated (isolated : m.Isolates solo id) (given : id.number < m.nextNumber) {calls : List Call}
    {after : Manager} (ran : m.run? calls = some after) :
    ∃ soloAfter, solo.run? (calls.filter (·.concerns id)) = some soloAfter ∧ after.Isolates soloAfter id ∧
      solo.reports (calls.filter (·.concerns id)) = (m.reports calls).map (·.of id) := by
  induction calls generalizing m solo with
  | nil =>
    cases Option.some.inj ran
    exact ⟨solo, rfl, isolated, rfl⟩
  | cons call rest ih =>
    rw [run_cons] at ran
    obtain ⟨next, performed, ran⟩ := Option.bind_eq_some_iff.mp ran
    have effect := perform_effect m next call performed
    have still : id.number < next.nextNumber := Nat.lt_of_lt_of_le given (call_given performed)
    cases concerned : call.concerns id with
    | false =>
      obtain ⟨same, silent⟩ := unconcerned_isolated isolated given concerned effect
      obtain ⟨soloAfter, later, lasting, reported⟩ := ih same still ran
      refine ⟨soloAfter, ?_, lasting, ?_⟩
      · simpa [concerned] using later
      · simpa [concerned, reports, silent, performed] using reported
    | true =>
      obtain ⟨soloNext, first, same, report⟩ := concerned_isolated isolated concerned effect
      obtain ⟨soloAfter, later, lasting, reported⟩ := ih same still ran
      refine ⟨soloAfter, ?_, lasting, ?_⟩
      · simpa [concerned, run_cons, first] using later
      · simpa [concerned, reports, performed, first, report] using reported

end Isolated

end Manager

open Manager

/-- Among others a pet ticks as it does on its own: it comes out the same, with the same sounds, calls of the
host and picture. Over a run of any calls it is enough that the lonely pet gets the calls that concern it.
Only a tick without an answer is shared: it has none as soon as one pet has none. -/
theorem pets_independent (m solo : Manager) (id : PetId) (isolated : m.Isolates solo id) :
    (m.Reachable → ∀ p ∈ m.pets, p.id = id → solo.pets = [p] ∧ id.number < m.nextNumber) ∧
      (∀ dt after report, m.tick? dt = some (after, report) →
        ∃ soloAfter, solo.tick? dt = some (soloAfter, report.of id) ∧ after.Isolates soloAfter id) ∧
      (∀ calls after, id.number < m.nextNumber → m.run? calls = some after →
        ∃ soloAfter, solo.run? (calls.filter (·.concerns id)) = some soloAfter ∧ after.Isolates soloAfter id ∧
          solo.reports (calls.filter (·.concerns id)) = (m.reports calls).map (·.of id)) ∧
      ∀ dt, (m.tick? dt).isSome = true ↔ ∀ p ∈ m.pets, ((m.alone p.id).tick? dt).isSome = true := by
  refine ⟨?_, fun _ _ _ ticked => tick_isolated isolated ticked,
    fun _ _ given ran => run_isolated isolated given ran, tick_isSome m⟩
  rintro reached p live rfl
  have numbered := reachable_numbered reached
  exact ⟨isolated.pets.trans (numbered.filter_eq live), numbered.given p live⟩

/-- Two ticks in which the pets are not left alone: the second pet is asked for a behavior and leaves. -/
def partingCalls : List Call :=
  [.tick 0.033, .post ⟨⟨2⟩, .trigger "rest"⟩, .unregister ⟨2⟩, .tick 0.033]

theorem pets_independent_thrower :
    ∃ after soloAfter, thrower.run? partingCalls = some after ∧
      (thrower.alone ⟨1⟩).run? [.tick 0.033, .tick 0.033] = some soloAfter ∧ after.Isolates soloAfter ⟨1⟩ ∧
      ((after.pet? ⟨1⟩).map (·.interaction.mode)) = some .thrown := by
  have thrown : (thrower.run? partingCalls).map (fun after => (after.pet? ⟨1⟩).map (·.interaction.mode)) =
      some (some .thrown) := by decide +kernel
  obtain ⟨after, ran, mode⟩ := Option.map_eq_some_iff.mp thrown
  have runs := (pets_independent thrower (thrower.alone ⟨1⟩) ⟨1⟩ (alone_isolated thrower ⟨1⟩)).2.2.1
  obtain ⟨soloAfter, lonely, still, _⟩ := runs partingCalls after (by decide) ran
  exact ⟨after, soloAfter, ran, lonely, still, mode⟩

end DesktopPet
