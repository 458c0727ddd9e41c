import DesktopPet.Manager

/-!
# Runs of a manager

A run is a list of calls, each made on what the one before left. `perform_pets` says what a call other
than a tick does to the pets: it leaves them, adds a new one at the end, or takes one out.
-/

namespace DesktopPet

/-- The calls that change a manager. -/
inductive Call where
  | loadPack (pack : String) (spec : PackSpec)
  | register (pack : String)
  | registerAt (pack : String) (position : Vector2)
  | unregister (id : PetId)
  | ask (id : PetId) (request : Request)
  /-- By a client that sends on its own, whoever the command is for. -/
  | post (command : Command)
  | stage (settings : Settings)
  | tick (dt : Float32)

namespace Manager

/-- The manager after a call; none if the call has no answer. -/
def perform? (m : Manager) : Call → Option Manager
  | .loadPack pack spec => some (m.loadPack pack spec).manager
  | .register pack => (m.register? pack).map (·.manager)
  | .registerAt pack position => (m.registerAt? pack position).map (·.manager)
  | .unregister id => some (m.unregister id).manager
  | .ask id request => some (m.ask id request).manager
  | .post command => some (m.post command).manager
  | .stage settings => some (m.stage settings)
  | .tick dt => (m.tick? dt).map (·.1)

/-! ## The pets after a call -/

/-- What a call other than a tick may make of the pets. -/
inductive PetsChange (m : Manager) : List Pet → Prop where
  | kept : PetsChange m m.pets
  | added (pack : String) (catalog : Catalog) (position size : Vector2) (contact : Contact) (seed : UInt64)
      (loaded : m.catalog? pack = some catalog) :
      PetsChange m (m.pets ++ [Pet.spawn ⟨m.nextNumber⟩ catalog position size contact seed])
  | removed (id : PetId) : PetsChange m (m.pets.filter (·.id ≠ id))

theorem loadPack_pets (m : Manager) (pack : String) (spec : PackSpec) :
    (m.loadPack pack spec).manager.pets = m.pets := by
  unfold loadPack
  split <;> rfl

theorem post_pets (m : Manager) (command : Command) : (m.post command).manager.pets = m.pets := by
  unfold post
  split <;> rfl

theorem ask_pets (m : Manager) (id : PetId) (request : Request) : (m.ask id request).manager.pets = m.pets := by
  unfold ask
  split
  · exact post_pets m ⟨id, request⟩
  · rfl

theorem unregister_pets (m : Manager) (id : PetId) :
    (m.unregister id).manager.pets = m.pets.filter (·.id ≠ id) := by
  unfold unregister
  split
  · rfl
  next unknown =>
    have absent : ∀ p ∈ m.pets, p.id ≠ id := by
      intro p member same
      apply unknown
      rw [pet?, List.find?_isSome]
      exact ⟨p, member, by simp [same]⟩
    symm
    rw [List.filter_eq_self]
    simpa using absent

theorem registerAt_pets (m : Manager) (pack : String) (position : Vector2) (outcome : Outcome PetId)
    (registered : m.registerAt? pack position = some outcome) : m.PetsChange outcome.manager.pets := by
  unfold registerAt? at registered
  split at registered
  · cases Option.some.inj registered
    exact .kept
  next catalog loaded =>
    obtain ⟨place, _, made⟩ := Option.bind_eq_some_iff.mp registered
    cases Option.some.inj made
    exact .added pack catalog place _ _ _ loaded

theorem register_pets (m : Manager) (pack : String) (outcome : Outcome PetId)
    (registered : m.register? pack = some outcome) : m.PetsChange outcome.manager.pets := by
  have placed := registerAt_pets { m with
    random := (m.area.spawnPosition m.settings.petSize m.settings.spawnMargin m.random).2 } pack _ outcome registered
  -- the generator has moved on for the position, which the change of the pets does not show
  generalize outcome.manager.pets = pets at placed
  cases placed with
  | kept => exact .kept
  | added other catalog place size contact seed loaded => exact .added other catalog place size contact seed loaded
  | removed id => exact .removed id

/-- A call other than a tick leaves the pets, adds one, or takes one out. -/
theorem perform_pets (m after : Manager) (call : Call) (performed : m.perform? call = some after)
    (other : ∀ dt, call ≠ .tick dt) : m.PetsChange after.pets := by
  cases call with
  | loadPack pack spec =>
    cases Option.some.inj performed
    rw [loadPack_pets]
    exact .kept
  | register pack =>
    obtain ⟨outcome, registered, rfl⟩ := Option.map_eq_some_iff.mp performed
    exact register_pets m pack outcome registered
  | registerAt pack position =>
    obtain ⟨outcome, registered, rfl⟩ := Option.map_eq_some_iff.mp performed
    exact registerAt_pets m pack position outcome registered
  | unregister id =>
    cases Option.some.inj performed
    rw [unregister_pets]
    exact .removed id
  | ask id request =>
    cases Option.some.inj performed
    rw [ask_pets]
    exact .kept
  | post command =>
    cases Option.some.inj performed
    rw [post_pets]
    exact .kept
  | stage settings =>
    cases Option.some.inj performed
    exact .kept
  | tick dt => exact absurd rfl (other dt)

end Manager

end DesktopPet
