import DesktopPet.Proofs.Manager.Reachable
import DesktopPet.Proofs.Pack.Compiled

/-!
# What failed calls leave behind

A call that fails leaves the manager as it was, so it might as well not have been made
(`run_succeeding`). The exception is a registration at a random position: it draws the position before it
looks for the pack, and an unknown pack does not take the draw back.
-/

namespace DesktopPet

/-- The error of a call that failed. -/
def Outcome.error? {α : Type} (outcome : Outcome α) : Option CallError :=
  match outcome.answer with
  | .error error => some error
  | .ok _ => none

namespace Manager

/-- The error with which a call fails. Settings are always staged, and a tick has no error to return. -/
def failure? (m : Manager) : Call → Option CallError
  | .loadPack pack spec => (m.loadPack pack spec).error?
  | .register pack => (m.register? pack).bind (·.error?)
  | .registerAt pack position => (m.registerAt? pack position).bind (·.error?)
  | .unregister id => (m.unregister id).error?
  | .ask id request => (m.ask id request).error?
  | .post command => (m.post command).error?
  | .stage _ => none
  | .tick _ => none

/-- The generator after a random position has been drawn for a new pet. -/
def placedRandom (m : Manager) : Random :=
  (m.area.spawnPosition m.settings.petSize m.settings.spawnMargin m.random).2

/-! ## Single calls -/

theorem loadPack_failed {m : Manager} {pack : String} {spec : PackSpec} {error : CallError}
    (failed : (m.loadPack pack spec).error? = some error) : (m.loadPack pack spec).manager = m := by
  unfold loadPack at failed ⊢
  split at failed
  · rfl
  · cases failed

/-- Only an unknown pack makes a registration fail, and at a given position nothing happens before that is
found out. -/
theorem registerAt_failed {m : Manager} {pack : String} {position : Vector2} {error : CallError}
    (failed : (m.registerAt? pack position).bind (·.error?) = some error) :
    error = .unknownPack pack ∧ m.registerAt? pack position = some ⟨.error (.unknownPack pack), m⟩ := by
  obtain ⟨outcome, made, failed⟩ := Option.bind_eq_some_iff.mp failed
  unfold registerAt? at made ⊢
  split at made
  next unknown =>
    cases Option.some.inj made
    exact ⟨(Option.some.inj failed).symm, rfl⟩
  · obtain ⟨place, _, made⟩ := Option.bind_eq_some_iff.mp made
    cases Option.some.inj made
    cases failed

theorem register_failed {m : Manager} {pack : String} {error : CallError}
    (failed : (m.register? pack).bind (·.error?) = some error) :
    error = .unknownPack pack ∧
      m.register? pack = some ⟨.error (.unknownPack pack), { m with random := m.placedRandom }⟩ :=
  registerAt_failed failed

theorem unregister_failed {m : Manager} {id : PetId} {error : CallError}
    (failed : (m.unregister id).error? = some error) : (m.unregister id).manager = m := by
  unfold unregister at failed ⊢
  split at failed
  · cases failed
  next absent => rw [if_neg absent]

theorem post_failed {m : Manager} {command : Command} {error : CallError}
    (failed : (m.post command).error? = some error) : (m.post command).manager = m := by
  unfold post at failed ⊢
  split at failed
  · rfl
  · cases failed

theorem ask_failed {m : Manager} {id : PetId} {request : Request} {error : CallError}
    (failed : (m.ask id request).error? = some error) : (m.ask id request).manager = m := by
  unfold ask at failed ⊢
  split at failed
  next present =>
    rw [if_pos present]
    exact post_failed failed
  next absent => rw [if_neg absent]

/-- A failed call leaves the manager, unless it drew a position first. -/
theorem perform_failed {m : Manager} {call : Call} {error : CallError} (failed : m.failure? call = some error)
    (drawless : ∀ pack, call ≠ .register pack) : m.perform? call = some m := by
  cases call with
  | loadPack pack spec => exact congrArg some (loadPack_failed failed)
  | register pack => exact absurd rfl (drawless pack)
  | registerAt pack position =>
    rw [perform?, (registerAt_failed failed).2]
    rfl
  | unregister id => exact congrArg some (unregister_failed failed)
  | ask id request => exact congrArg some (ask_failed failed)
  | post command => exact congrArg some (post_failed failed)
  | stage settings => cases failed
  | tick dt => cases failed

private theorem drawBetween_roomless {lo hi : Float32} (otherwise : Float32) (r : Random) (roomless : ¬ lo < hi) :
    Area.drawBetween lo hi otherwise r = (otherwise, r) := by
  rw [Area.drawBetween, if_neg roomless]

/-- Some axis leaves a new pet more than one place. -/
def LeavesRoom (m : Manager) : Prop :=
  m.area.bounds.left + m.settings.spawnMargin <
      m.area.bounds.right - m.settings.petSize.x - m.settings.spawnMargin ∨
    m.area.bounds.ceiling + m.settings.spawnMargin <
      m.area.bounds.floor - m.settings.petSize.y - m.settings.spawnMargin

/-- Without room no position is drawn. -/
theorem placedRandom_roomless {m : Manager} (roomless : ¬ m.LeavesRoom) : m.placedRandom = m.random := by
  obtain ⟨across, down⟩ := not_or.mp roomless
  unfold placedRandom Area.spawnPosition
  simp only [drawBetween_roomless _ _ across, drawBetween_roomless _ _ down]

/-! ## Runs -/

/-- The calls of a run that do not fail. A call without an answer ends the run. -/
def succeeding : Manager → List Call → List Call
  | _, [] => []
  | m, call :: rest =>
    match m.perform? call with
    | none => call :: rest
    | some after => if (m.failure? call).isSome then succeeding after rest else call :: succeeding after rest

/-- The calls of a run that fail. -/
def failing : Manager → List Call → List Call
  | _, [] => []
  | m, call :: rest =>
    match m.perform? call with
    | none => []
    | some after => if (m.failure? call).isSome then call :: failing after rest else failing after rest

/-- A run leads to where its successful calls alone lead. -/
theorem run_succeeding (m : Manager) (calls : List Call)
    (drawless : ∀ call ∈ m.failing calls, ∀ pack, call ≠ .register pack) :
    m.run? (m.succeeding calls) = m.run? calls := by
  induction calls generalizing m with
  | nil => rfl
  | cons call rest ih =>
    rw [succeeding]
    rw [failing] at drawless
    cases performed : m.perform? call with
    | none => rfl
    | some after =>
      simp only [performed] at drawless
      dsimp only
      split
      next failed =>
        rw [if_pos failed] at drawless
        obtain ⟨error, failed⟩ := Option.isSome_iff_exists.mp failed
        have still := perform_failed failed (drawless call List.mem_cons_self)
        have same : m = after := Option.some.inj (still.symm.trans performed)
        subst same
        rw [run_cons, performed, ih m fun other member => drawless other (List.mem_cons_of_mem _ member)]
        rfl
      next fine =>
        rw [if_neg fine] at drawless
        rw [run_cons, run_cons, performed, Option.bind_some, Option.bind_some, ih after drawless]

end Manager

open Manager

/-- A failed call leaves the whole manager as it was, and a run is that of its successful calls, as long as no
registration at a random position fails. Such a registration fails only for an unknown pack; it leaves all but
the generator, which moves on by the draws for the position, of which there are none without room. -/
theorem failed_calls_leave_manager (m : Manager) :
    (∀ call error, m.failure? call = some error → (∀ pack, call ≠ .register pack) → m.perform? call = some m) ∧
    (∀ calls, (∀ call ∈ m.failing calls, ∀ pack, call ≠ .register pack) →
      m.run? (m.succeeding calls) = m.run? calls) ∧
    ∀ pack error, m.failure? (.register pack) = some error →
      error = .unknownPack pack ∧ m.perform? (.register pack) = some { m with random := m.placedRandom } ∧
        (¬ m.LeavesRoom → m.placedRandom = m.random) := by
  refine ⟨fun call error failed drawless => perform_failed failed drawless, run_succeeding m, ?_⟩
  intro pack error failed
  obtain ⟨unknown, registered⟩ := register_failed failed
  exact ⟨unknown, by rw [perform?, registered]; rfl, placedRandom_roomless⟩

/-- Four calls that fail, among two that succeed. -/
def clumsyCalls : List Call :=
  [.registerAt "tangled" ⟨400.0, 400.0⟩, .loadPack "tangled" tangledPack, .loadPack "empty" {},
    .ask ⟨1⟩ (.trigger "rest"), .unregister ⟨1⟩, .register "tangled"]

theorem failed_calls_leave_manager_clumsy :
    ((Manager.new {} 7).failing clumsyCalls).length = 4 ∧
      ((Manager.new {} 7).succeeding clumsyCalls).length = 2 ∧
      (Manager.new {} 7).run? ((Manager.new {} 7).succeeding clumsyCalls) = (Manager.new {} 7).run? clumsyCalls ∧
      (Manager.new {} 7).perform? (.registerAt "tangled" ⟨400.0, 400.0⟩) = some (Manager.new {} 7) ∧
      (Manager.new {} 7).perform? (.register "tangled") =
        some { Manager.new {} 7 with random := (Manager.new {} 7).placedRandom } := by
  obtain ⟨single, runs, registration⟩ := failed_calls_leave_manager (Manager.new {} 7)
  have drawless : ∀ call ∈ (Manager.new {} 7).failing clumsyCalls, ∀ pack, call ≠ .register pack := by
    have failing : ((Manager.new {} 7).failing clumsyCalls).all (fun call =>
        match call with
        | .register _ => false
        | _ => true) = true := by decide +kernel
    intro call member pack same
    have other := List.all_eq_true.mp failing call member
    rw [same] at other
    cases other
  exact ⟨by decide +kernel, by decide +kernel, runs clumsyCalls drawless,
    single _ (.unknownPack "tangled") (by decide +kernel) nofun,
    (registration "tangled" (.unknownPack "tangled") (by decide +kernel)).2.1⟩

/-- The positions of the pets after calls from a new manager. -/
def placesAfter (calls : List Call) : Option (List Vector2) :=
  ((Manager.new {} 7).run? calls).map fun m => m.pets.map (·.body.position)

/-- A registration that fails for want of its pack moves the pet that is registered after it. -/
theorem failed_registration_moves_later_pet :
    (Manager.new {} 7).failure? (.register "absent") = some (.unknownPack "absent") ∧
      (Manager.new {} 7).perform? (.register "absent") ≠ some (Manager.new {} 7) ∧
      placesAfter [.loadPack "tangled" tangledPack, .register "absent", .register "tangled"] ≠
        placesAfter [.loadPack "tangled" tangledPack, .register "tangled"] := by
  decide +kernel

end DesktopPet
