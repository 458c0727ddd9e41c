import DesktopPet.Proofs.Manager.Reachable
import DesktopPet.Proofs.Pack.Compiled

/-!
# The registry of pets

Which pets there are follows from the registrations of a run and the calls after each of them: `run_registry`
adds up what `perform_registry` says of one call. A tick draws every pet that there is, and a command for a pet
that is gone by the next tick might as well not have been sent (`tick_without`).
-/

namespace DesktopPet

/-- The call takes out the pet of a number. -/
def Call.removes (id : PetId) : Call → Bool
  | .unregister other => other = id
  | _ => false

namespace Manager

/-! ## Registrations -/

/-- The number that a call returns, if it adds a pet. -/
def granted? (m : Manager) : Call → Option PetId
  | .register pack => (m.register? pack).bind (·.answer.toOption)
  | .registerAt pack position => (m.registerAt? pack position).bind (·.answer.toOption)
  | _ => none

/-- The registrations of a run: the number that each one returns, and the calls after it. -/
def registrations : Manager → List Call → List (PetId × List Call)
  | _, [] => []
  | m, call :: rest =>
    match m.perform? call with
    | none => []
    | some after => (m.granted? call).toList.map (·, rest) ++ registrations after rest

/-- The numbers that the calls of a run return. -/
def handles (m : Manager) (calls : List Call) : List PetId :=
  (m.registrations calls).map (·.1)

/-- The numbers that are not taken out by a call after their registration. -/
def standing (m : Manager) (calls : List Call) : List PetId :=
  ((m.registrations calls).filter fun (id, later) => !later.any (·.removes id)).map (·.1)

private theorem registerAt_registry {m : Manager} {random : Random} {pack : String} {position : Vector2}
    {outcome : Outcome PetId} (made : { m with random }.registerAt? pack position = some outcome) :
    outcome.manager.petIds = m.petIds ++ outcome.answer.toOption.toList ∧
      outcome.manager.nextNumber = m.nextNumber + outcome.answer.toOption.toList.length ∧
      ∀ id ∈ outcome.answer.toOption, id.number = m.nextNumber := by
  unfold registerAt? at made
  split at made
  · cases Option.some.inj made
    exact ⟨(List.append_nil _).symm, rfl, nofun⟩
  next catalog loaded =>
    obtain ⟨place, _, made⟩ := Option.bind_eq_some_iff.mp made
    cases Option.some.inj made
    refine ⟨?_, rfl, ?_⟩
    · simp [petIds, Pet.spawn, Except.toOption]
    · rintro id ⟨⟩
      rfl

theorem none_removed {ids : List PetId} {call : Call} (kept : ∀ id, call.removes id = false) :
    ids.filter (fun id => !call.removes id) = ids :=
  List.filter_eq_self.mpr fun id _ => by rw [kept id]; rfl

/-- A call that registers no pet takes out at most the one that it is made for. -/
theorem perform_ids {m after : Manager} {call : Call} (performed : m.perform? call = some after)
    (noPet : call.registers = false) :
    after.petIds = m.petIds.filter (fun id => !call.removes id) ∧ after.nextNumber = m.nextNumber := by
  cases perform_effect m after call performed with
  | unplaced _ _ registers => exact absurd (noPet.symm.trans registers) nofun
  | registered _ _ _ _ _ _ _ _ registers _ => exact absurd (noPet.symm.trans registers) nofun
  | unregistered id =>
    refine ⟨?_, rfl⟩
    rw [petIds, petIds, List.filter_map]
    refine congrArg (List.map Pet.id) (List.filter_congr fun p _ => ?_)
    simp [Call.removes, eq_comm]
  | ticked dt _ report ticked =>
    refine ⟨?_, (tick_frame m after dt report ticked).2⟩
    rw [tick_ids m after dt report ticked, none_removed fun _ => rfl]
  | _ => exact ⟨(none_removed fun _ => rfl).symm, rfl⟩

/-- What one call does to the registry. -/
theorem perform_registry {m after : Manager} {call : Call} (performed : m.perform? call = some after) :
    after.petIds = m.petIds.filter (fun id => !call.removes id) ++ (m.granted? call).toList ∧
      after.nextNumber = m.nextNumber + (m.granted? call).toList.length ∧
      ∀ id ∈ m.granted? call, id.number = m.nextNumber := by
  cases call with
  | register pack =>
    obtain ⟨outcome, made, rfl⟩ := Option.map_eq_some_iff.mp performed
    rw [granted?, made, none_removed fun _ => rfl]
    exact registerAt_registry made
  | registerAt pack position =>
    obtain ⟨outcome, made, rfl⟩ := Option.map_eq_some_iff.mp performed
    rw [granted?, made, none_removed fun _ => rfl]
    exact registerAt_registry made
  | _ =>
    obtain ⟨ids, number⟩ := perform_ids performed rfl
    exact ⟨ids.trans (List.append_nil _).symm, number, nofun⟩

/-- What a run does to the registry. -/
theorem run_registry {m after : Manager} {calls : List Call} (ran : m.run? calls = some after) :
    after.petIds = m.petIds.filter (fun id => !calls.any (·.removes id)) ++ m.standing calls ∧
      after.nextNumber = m.nextNumber + (m.handles calls).length ∧
      (m.handles calls).map (·.number) = List.range' m.nextNumber (m.handles calls).length := by
  induction calls generalizing m with
  | nil =>
    cases Option.some.inj ran
    exact ⟨by simp [standing, registrations], rfl, rfl⟩
  | cons call rest ih =>
    rw [run_cons] at ran
    obtain ⟨next, performed, ran⟩ := Option.bind_eq_some_iff.mp ran
    obtain ⟨ids, number, first⟩ := perform_registry performed
    obtain ⟨idsLater, numberLater, later⟩ := ih ran
    have handles : m.handles (call :: rest) = (m.granted? call).toList ++ next.handles rest := by
      simp [handles, registrations, performed, Function.comp_def]
    have standing : m.standing (call :: rest) =
        (m.granted? call).toList.filter (fun id => !rest.any (·.removes id)) ++ next.standing rest := by
      simp [standing, registrations, performed, List.filter_map, Function.comp_def]
    refine ⟨?_, ?_, ?_⟩
    · rw [idsLater, ids, standing, List.filter_append, List.filter_filter, List.append_assoc]
      simp [Bool.and_comm]
    · rw [numberLater, number, handles, List.length_append, Nat.add_assoc]
    · have granted : (m.granted? call).toList.map (·.number) =
          List.range' m.nextNumber (m.granted? call).toList.length := by
        cases new : m.granted? call with
        | none => rfl
        | some id => simp [first id new]
      rw [handles, List.map_append, List.length_append, granted, later, number]
      exact List.range'_append_1

theorem mem_petIds (m : Manager) (id : PetId) : id ∈ m.petIds ↔ (m.pet? id).isSome = true := by
  simp [petIds, pet?]

/-- There is an account of exactly those pets that are registered. -/
theorem diagnostics_registered (m : Manager) (id : PetId) :
    if id ∈ m.petIds then ∃ account, m.diagnostics id = .ok account ∧ account.pet = id
    else m.diagnostics id = .error (.unknownPet id) := by
  rw [diagnostics]
  split
  next member =>
    obtain ⟨p, there⟩ := Option.isSome_iff_exists.mp ((mem_petIds m id).mp member)
    rw [there]
    exact ⟨_, rfl, (pet_live there).2⟩
  next absent =>
    rw [mem_petIds, Bool.not_eq_true, Option.isSome_eq_false_iff, Option.isNone_iff_eq_none] at absent
    rw [absent]

end Manager

/-! ## Pictures -/

namespace Pet

/-- The picture shows the pet as it is, up to the sign of a zero. -/
structure Shown (p : Pet) : Prop where
  flip : p.picture.flip = decide (p.facing = .right)
  position : p.picture.position = p.body.position ∨ p.body.position.agrees p.picture.position = true
  size : p.picture.size = p.body.size ∨ p.body.size.agrees p.picture.size = true

private theorem draw_shown (p : Pet) : p.draw.Shown := by
  unfold draw
  dsimp only
  split
  next agree =>
    simp only [Picture.agrees, Bool.and_eq_true, decide_eq_true_eq] at agree
    obtain ⟨⟨⟨_, flip⟩, position⟩, size⟩ := agree
    exact ⟨flip.symm, .inr position, .inr size⟩
  · exact ⟨rfl, .inl rfl, .inl rfl⟩

private theorem step_shown (p q : Pet) (scene : Scene) (output : Output) (stepped : p.step? scene = some (q, output)) :
    q.Shown := by
  obtain ⟨_, _, stepped⟩ := Option.bind_eq_some_iff.mp stepped
  obtain ⟨_, _, stepped⟩ := Option.bind_eq_some_iff.mp stepped
  obtain ⟨moved, _, stepped⟩ := Option.bind_eq_some_iff.mp stepped
  rw [← (Prod.mk.inj (Option.some.inj stepped)).1]
  exact draw_shown (moved.refreshContact scene)

end Pet

namespace Manager

/-- The report of a tick has one picture for each pet, in the order of their numbers, and it shows the pet as the
tick leaves it. -/
theorem tick_frames {m after : Manager} {dt : Float32} {report : Report} (ticked : m.tick? dt = some (after, report)) :
    report.frames = after.pets.map (fun p => (p.id, p.picture)) ∧ ∀ p ∈ after.pets, p.Shown := by
  constructor
  · rw [tick_eq] at ticked
    obtain ⟨stepped, _, result⟩ := Option.map_eq_some_iff.mp ticked
    obtain ⟨rfl, rfl⟩ := Prod.mk.inj result
    rfl
  · intro q member
    obtain ⟨p, _, output, stepped⟩ := tick_mem m after dt report ticked q member
    exact Pet.step_shown _ q _ output stepped

/-! ## Commands for pets that are gone -/

/-- The commands that a call puts into the channel. -/
def sends (m : Manager) : Call → List Command
  | .ask id request => if (m.pet? id).isSome ∧ m.channel.isOpen then [⟨id, request⟩] else []
  | .post command => if m.channel.isOpen then [command] else []
  | _ => []

/-- The commands that the calls of a run put into the channel. -/
def sent : Manager → List Call → List Command
  | _, [] => []
  | m, call :: rest =>
    match m.perform? call with
    | none => []
    | some after => m.sends call ++ sent after rest

theorem post_manager (m : Manager) (command : Command) :
    (m.post command).manager =
      { m with channel.waiting := m.channel.waiting ++ m.sends (.post command) } := by
  by_cases opened : m.channel.isOpen = true
  · have taken : m.sends (.post command) = [command] := if_pos opened
    rw [post, Channel.send?, if_pos opened, taken]
  · have refused : m.sends (.post command) = [] := if_neg opened
    rw [post, Channel.send?, if_neg opened, refused, List.append_nil]

theorem ask_manager (m : Manager) (id : PetId) (request : Request) :
    (m.ask id request).manager = if (m.pet? id).isSome then (m.post ⟨id, request⟩).manager else m :=
  apply_ite Outcome.manager _ _ _

private theorem post_waiting (m : Manager) (command : Command) (waiting : List Command) :
    (post { m with channel.waiting := waiting } command).manager =
      { (m.post command).manager with channel.waiting := waiting ++ m.sends (.post command) } := by
  rw [post_manager, post_manager]
  rfl

private theorem registerAt_waiting (m : Manager) (random : Random) (pack : String) (position : Vector2)
    (waiting : List Command) :
    (registerAt? { m with random, channel.waiting := waiting } pack position).map (·.manager) =
      (registerAt? { m with random } pack position).map fun outcome =>
        { outcome.manager with channel.waiting := waiting } := by
  have same : { m with random, channel.waiting := waiting }.catalog? pack = { m with random }.catalog? pack := rfl
  unfold registerAt?
  rw [same]
  cases { m with random }.catalog? pack with
  | none => rfl
  | some catalog =>
    dsimp only
    cases m.area.bounds.clampRect? position m.settings.petSize with
    | none => rfl
    | some place => rfl

/-- A call other than a tick does not look at what waits in the channel: it only adds to it. -/
theorem perform_waiting (m : Manager) (call : Call) (other : ∀ dt, call ≠ .tick dt) (waiting : List Command) :
    { m with channel.waiting := waiting }.perform? call =
      (m.perform? call).map fun after => { after with channel.waiting := waiting ++ m.sends call } := by
  cases call with
  | tick dt => exact absurd rfl (other dt)
  | loadPack pack spec =>
    simp only [perform?, sends, List.append_nil, Option.map_some]
    unfold loadPack
    split <;> rfl
  | register pack =>
    simp only [perform?, sends, List.append_nil, Option.map_map]
    exact registerAt_waiting m _ pack _ waiting
  | registerAt pack position =>
    simp only [perform?, sends, List.append_nil, Option.map_map]
    exact registerAt_waiting m m.random pack position waiting
  | unregister id =>
    simp only [perform?, sends, List.append_nil, Option.map_some, unregister_filter]
  | ask id request =>
    have held : (ask { m with channel.waiting := waiting } id request).manager =
        if (m.pet? id).isSome then (post { m with channel.waiting := waiting } ⟨id, request⟩).manager
        else { m with channel.waiting := waiting } := ask_manager _ id request
    rw [perform?, perform?, held, ask_manager, sends, Option.map_some]
    by_cases present : (m.pet? id).isSome = true
    · simp only [present, ↓reduceIte, true_and]
      exact congrArg some (post_waiting m ⟨id, request⟩ waiting)
    · simp [present]
  | post command => exact congrArg some (post_waiting m command waiting)
  | stage settings => simp [perform?, stage, sends]

/-- The same for a run without ticks. -/
theorem run_waiting (m : Manager) (calls : List Call) (others : ∀ dt, Call.tick dt ∉ calls)
    (waiting : List Command) :
    run? { m with channel.waiting := waiting } calls =
      (m.run? calls).map fun after => { after with channel.waiting := waiting ++ m.sent calls } := by
  induction calls generalizing m waiting with
  | nil => simp [run?, sent]
  | cons call rest ih =>
    have first := perform_waiting m call (fun dt same => others dt (by simp [same])) waiting
    rw [run_cons, run_cons, first, sent]
    cases performed : m.perform? call with
    | none => rfl
    | some next =>
      have later := ih next (fun dt member => others dt (List.mem_cons_of_mem call member)) (waiting ++ m.sends call)
      rw [Option.map_some, Option.bind_some, Option.bind_some, later, List.append_assoc]

/-- A command brings nothing to a manager without its pet. -/
theorem deliver_without (m : Manager) (command : Command) (absent : command.pet ∉ m.petIds)
    (before later : List Command) : m.deliver (before ++ command :: later) = m.deliver (before ++ later) := by
  have shares : m.pets.map (fun p => p.withShare (before ++ command :: later)) =
      m.pets.map fun p => p.withShare (before ++ later) := by
    apply List.map_congr_left
    intro p member
    have other : command.pet ≠ p.id := fun same => absent (by rw [same]; exact List.mem_map_of_mem member)
    have untouched : (p.withShare before).withShare [command] = p.withShare before := by
      rw [← Pet.receive_share]
      exact if_neg other
    rw [← List.singleton_append, ← Pet.withShare_append, ← Pet.withShare_append, untouched, Pet.withShare_append]
  rw [deliver, deliver, shares]

/-- A command whose pet is gone by the next tick makes no difference to the tick. -/
theorem tick_without (m : Manager) (command : Command) (calls : List Call) (others : ∀ dt, Call.tick dt ∉ calls)
    (absent : ∀ after, m.run? calls = some after → command.pet ∉ after.petIds) (dt : Float32) :
    (m.run? (.post command :: calls)).bind (·.tick? dt) = (m.run? calls).bind (·.tick? dt) := by
  have held (waiting : List Command) : (run? { m with channel.waiting := waiting } calls).bind (·.tick? dt) =
      (m.run? calls).bind fun after => (after.deliver (waiting ++ m.sent calls)).tick? dt := by
    rw [run_waiting m calls others]
    cases m.run? calls with
    | none => rfl
    | some after => exact tick_of_deliver after dt (waiting ++ m.sent calls)
  have plain : (m.run? calls).bind (·.tick? dt) =
      (m.run? calls).bind fun after => (after.deliver (m.channel.waiting ++ m.sent calls)).tick? dt :=
    held m.channel.waiting
  rw [run_cons, perform?, Option.bind_some, post_manager, held, plain]
  cases ran : m.run? calls with
  | none => rfl
  | some after =>
    rw [Option.bind_some, Option.bind_some, sends]
    split
    · rw [List.append_assoc, List.singleton_append, deliver_without after command (absent after ran)]
    · rw [List.append_nil]

/-- A number that was given out is of no pet any more once it was taken out. -/
theorem gone_after {m after : Manager} {id : PetId} {calls : List Call} (ran : m.run? calls = some after)
    (given : id.number < m.nextNumber) (gone : Call.unregister id ∈ calls ∨ id ∉ m.petIds) : id ∉ after.petIds := by
  obtain ⟨ids, _, numbers⟩ := run_registry ran
  rw [ids]
  intro member
  rcases List.mem_append.mp member with old | new
  · obtain ⟨there, untouched⟩ := List.mem_filter.mp old
    rcases gone with removed | absent
    · have touched : calls.any (·.removes id) = true := List.any_eq_true.mpr ⟨_, removed, by simp [Call.removes]⟩
      simp [touched] at untouched
    · exact absent there
  · -- numbers are never given out twice
    have granted : id ∈ m.handles calls := (List.filter_sublist.map _).mem new
    have number : id.number ∈ (m.handles calls).map (·.number) := List.mem_map_of_mem granted
    rw [numbers, List.mem_range'_1] at number
    exact Nat.lt_irrefl _ (Nat.lt_of_lt_of_le given number.1)

/-- The registry after calls: which numbers were given out, which of them are of pets, and what becomes of pets and
commands in the next tick. -/
structure Registry (start : Manager) (calls : List Call) (m : Manager) : Prop where
  /-- Every registration returns a greater number than those before it. -/
  ascending : (start.handles calls).Pairwise fun a b => a.number < b.number
  /-- Numbers are as small as they can be: 64 bits are enough for as many registrations as they count. -/
  small : ∀ id ∈ start.handles calls, id.number ≤ (start.handles calls).length
  standing : m.petIds = start.standing calls
  sorted : m.petIds.Pairwise fun a b => a.number < b.number
  accounts : ∀ id, if id ∈ m.petIds then ∃ account, m.diagnostics id = .ok account ∧ account.pet = id
    else m.diagnostics id = .error (.unknownPet id)
  frames : ∀ dt after report, m.tick? dt = some (after, report) →
    after.petIds = m.petIds ∧ report.frames.map (·.1) = after.petIds ∧
      report.frames = after.pets.map (fun p => (p.id, p.picture)) ∧ ∀ p ∈ after.pets, p.Shown
  /-- A command is queued for a pet that is gone by the next tick, and other calls follow up to the tick. -/
  stale : ∀ id request later dt, id ∈ start.handles calls → (∀ t, Call.tick t ∉ later) →
    (Call.unregister id ∈ later ∨ id ∉ m.petIds) →
      (m.run? (.post ⟨id, request⟩ :: later)).bind (·.tick? dt) = (m.run? later).bind (·.tick? dt) ∧
      (m.run? (.ask id request :: later)).bind (·.tick? dt) = (m.run? later).bind (·.tick? dt)

end Manager

open Manager

/-- After any calls the registry is consistent. -/
theorem registry_consistent (settings : Settings) (seed : UInt64) (calls : List Call) (m : Manager)
    (ran : (Manager.new settings seed).run? calls = some m) : Registry (Manager.new settings seed) calls m := by
  obtain ⟨ids, next, numbers⟩ := run_registry ran
  have given (id : PetId) (member : id ∈ (Manager.new settings seed).handles calls) : id.number < m.nextNumber := by
    have number : id.number ∈ ((Manager.new settings seed).handles calls).map (·.number) := List.mem_map_of_mem member
    rw [numbers, List.mem_range'_1] at number
    rw [next]
    exact number.2
  have numbered := reachable_numbered (Reachable.run (.start settings seed) ran)
  refine ⟨List.pairwise_map.mp ?_, ?_, ids, List.pairwise_map.mpr numbered.ascending, diagnostics_registered m, ?_, ?_⟩
  · rw [numbers]
    exact List.pairwise_lt_range'
  · intro id member
    have below := given id member
    rw [next, Nat.add_comm] at below
    exact Nat.le_of_lt_succ below
  · intro dt after report ticked
    obtain ⟨frames, shown⟩ := tick_frames ticked
    refine ⟨tick_ids m after dt report ticked, ?_, frames, shown⟩
    rw [frames, List.map_map]
    rfl
  · intro id request later dt member others gone
    have posted := tick_without m ⟨id, request⟩ later others
      (fun after ran => gone_after ran (given id member) gone) dt
    refine ⟨posted, ?_⟩
    rw [run_cons, perform?, Option.bind_some, ask_manager]
    split
    · exact posted
    · rfl

/-- Two pets, of which the first leaves and a third one comes. -/
def turnover : List Call :=
  [.loadPack "tangled" tangledPack, .registerAt "tangled" ⟨400.0, 400.0⟩, .registerAt "absent" ⟨400.0, 400.0⟩,
    .register "tangled", .tick 0.033, .unregister ⟨1⟩, .registerAt "tangled" ⟨900.0, 400.0⟩, .unregister ⟨1⟩]

/-- The second leaves as well before the next tick, and a fourth one comes. -/
def secondTurnover : List Call :=
  [.unregister ⟨2⟩, .registerAt "tangled" ⟨100.0, 400.0⟩]

theorem registry_consistent_turnover :
    ∃ m, (Manager.new {} 7).run? turnover = some m ∧
      (Manager.new {} 7).handles turnover = [⟨1⟩, ⟨2⟩, ⟨3⟩] ∧ m.petIds = [⟨2⟩, ⟨3⟩] ∧
      Registry (Manager.new {} 7) turnover m ∧
      (m.run? (.ask ⟨2⟩ (.trigger "stroll") :: secondTurnover)).bind (·.tick? 0.033) =
        (m.run? secondTurnover).bind (·.tick? 0.033) ∧
      ((m.run? secondTurnover).bind (·.tick? 0.033)).map (·.2.frames.map (·.1)) = some [⟨3⟩, ⟨4⟩] := by
  have handles : (Manager.new {} 7).handles turnover = [⟨1⟩, ⟨2⟩, ⟨3⟩] := by decide +kernel
  have drawn : (((Manager.new {} 7).run? turnover).map (·.petIds),
      (((Manager.new {} 7).run? turnover).bind fun m => (m.run? secondTurnover).bind (·.tick? 0.033)).map
        (·.2.frames.map (·.1))) = (some [⟨2⟩, ⟨3⟩], some [⟨3⟩, ⟨4⟩]) := by decide +kernel
  obtain ⟨present, drawn⟩ := Prod.mk.inj drawn
  obtain ⟨m, ran, ids⟩ := Option.map_eq_some_iff.mp present
  rw [ran] at drawn
  have registry := registry_consistent {} 7 turnover m ran
  have tickless : ∀ t, Call.tick t ∉ secondTurnover := by simp [secondTurnover]
  have stale := registry.stale ⟨2⟩ (.trigger "stroll") secondTurnover 0.033 (by rw [handles]; decide) tickless
    (.inl (by simp [secondTurnover]))
  exact ⟨m, ran, handles, ids, registry, stale.2, drawn⟩

end DesktopPet
