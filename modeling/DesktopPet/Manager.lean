import DesktopPet.Pack.Compile
import DesktopPet.Pet

/-!
# The manager

The manager keeps the loaded catalogs, the pets, the play area and the settings, and advances all pets
by ticks. Commands wait in a channel until the next tick, and so do new settings. Every run is
determined by the settings, the seed and the calls.
-/

namespace DesktopPet

open Pack (Issue PackError)

/-- Time as the pets see it. -/
structure Clock where
  elapsed : Float32 := 0.0
  delta : Float32 := 0.0
  scale : Float32 := 1.0
  /-- `Nat` stands for a word of 64 bits; a thousand ticks per second take half a billion years to fill it. -/
  ticks : Nat := 0
  deriving DecidableEq, Repr

/-- Lets time pass. A step that is negative or not finite counts as none. -/
def Clock.advance (c : Clock) (dt : Float32) : Clock :=
  let step := if dt.isFinite then Number.positivePart dt else 0.0
  let delta := step * c.scale
  { c with elapsed := c.elapsed + delta, delta, ticks := c.ticks + 1 }

/-- The queue of commands; it takes them as long as its receiver lives. -/
structure Channel where
  waiting : List Command := []
  isOpen : Bool := true
  deriving DecidableEq, Repr

/-- Puts a command in the queue; a closed channel takes none. -/
def Channel.send? (c : Channel) (command : Command) : Option Channel :=
  if c.isOpen then some { c with waiting := c.waiting ++ [command] } else none

inductive CallError where
  | unknownPack (pack : String)
  | unknownPet (pet : PetId)
  | rejected (error : PackError)
  | disconnected
  deriving DecidableEq, Repr

def CallError.message : CallError → String
  | .unknownPack pack => "unknown pack '" ++ pack ++ "'"
  | .unknownPet pet => "unknown pet " ++ pet.display
  | .rejected error => error.message
  | .disconnected => "command channel closed"

/-- The state of a simulation. Pets stand in the order of their numbers. -/
structure Manager where
  settings : Settings
  area : Area
  /-- Settings for the next tick. -/
  staged : Option Settings
  clock : Clock
  /-- The loaded catalogs by pack name. -/
  packs : List (String × Catalog)
  /-- The pets and the index that finds them by number in one: an entry of the index and its pet come with
  `registerAt?`, go with `unregister`, and are never changed apart. -/
  pets : List Pet
  /-- The number of the next pet. `Nat` stands for a word of 64 bits, which no run fills, as each pet takes
  memory and time. -/
  nextNumber : Nat
  channel : Channel
  random : Random
  deriving DecidableEq, Repr

/-- The answer of a call and the manager after it. -/
structure Outcome (α : Type) where
  answer : Except CallError α
  manager : Manager

structure Report where
  frames : List (PetId × Picture)
  sounds : List SoundCue
  calls : List HostCall
  deriving DecidableEq, Repr

structure Diagnostics where
  pet : PetId
  pack : String
  behavior : Option String
  action : Option String
  /-- The child that is playing when the action is a sequence. -/
  playing : Option String
  frameIndex : Option Nat
  mode : Mode
  facing : Facing
  position : Vector2
  velocity : Vector2
  contact : Contact
  bounds : Bounds
  selections : Nat
  deriving DecidableEq, Repr

/-- A new pet in the default behavior of its pack. -/
def Pet.spawn (id : PetId) (catalog : Catalog) (position size : Vector2) (contact : Contact) (seed : UInt64) : Pet :=
  let (behavior, player) : BehaviorState × Player :=
    match catalog.behavior? catalog.defaultBehavior with
    | some found => (BehaviorState.set {} catalog.defaultBehavior, Player.start found.action catalog)
    | none => ({}, {})
  { id
    catalog
    body := { position, velocity := .zero, size }
    facing := .left
    contact
    interaction := .idle
    events := []
    behavior
    player
    random := ⟨seed⟩
    picture := { image := none, anchor := .zero, flip := false, position, size } }

def Pet.diagnose (p : Pet) (area : Area) : Diagnostics :=
  let actionName (index : Option Nat) : Option String := (index.bind p.catalog.action?).map (·.name)
  { pet := p.id
    pack := p.catalog.name
    behavior := (p.behavior.current.bind p.catalog.behavior?).map (·.name)
    action := actionName p.player.action
    playing := actionName p.player.leafAction?
    frameIndex := p.player.frameIndex?
    mode := p.interaction.mode
    facing := p.facing
    position := p.body.position
    velocity := p.body.velocity
    contact := p.contact
    bounds := area.bounds
    selections := p.behavior.selections }

namespace Manager

def new (settings : Settings) (seed : UInt64) : Manager :=
  { settings
    area := settings.area
    staged := none
    clock := {}
    packs := []
    pets := []
    nextNumber := 1
    channel := {}
    random := ⟨seed⟩ }

/-! ## Packs -/

def catalog? (m : Manager) (pack : String) : Option Catalog :=
  m.packs.lookup pack

/-- Keeps a catalog under a name in place of an earlier one. -/
def putCatalog (m : Manager) (pack : String) (catalog : Catalog) : Manager :=
  { m with packs := (pack, catalog) :: m.packs.filter (·.1 ≠ pack) }

/-- Compiles a pack and keeps its catalog. Pets of an earlier catalog of that name keep theirs. -/
def loadPack (m : Manager) (pack : String) (spec : PackSpec) : Outcome (List Issue) :=
  match spec.compile with
  | .error error => ⟨.error (.rejected error), m⟩
  | .ok (catalog, issues) => ⟨.ok issues, m.putCatalog pack catalog⟩

def visibleBehaviors (m : Manager) (pack : String) : Except CallError (List String) :=
  match m.catalog? pack with
  | none => .error (.unknownPack pack)
  | some catalog => .ok catalog.visibleBehaviors

/-! ## Pets -/

/-- Adds a pet at a position, moved within the bounds; its generator is seeded by the manager's. There
is no answer when the bounds leave no interval. -/
def registerAt? (m : Manager) (pack : String) (position : Vector2) : Option (Outcome PetId) :=
  match m.catalog? pack with
  | none => some ⟨.error (.unknownPack pack), m⟩
  | some catalog => do
    let size := m.settings.petSize
    let position ← m.area.bounds.clampRect? position size
    let contact := Contact.ofRect position size m.area m.settings.closeThreshold
    let id : PetId := ⟨m.nextNumber⟩
    let (seed, random) := m.random.next
    let pet := Pet.spawn id catalog position size contact seed
    return ⟨.ok id, { m with pets := m.pets ++ [pet], nextNumber := m.nextNumber + 1, random }⟩

/-- Adds a pet at a random position. The position is drawn before the pack is looked up. -/
def register? (m : Manager) (pack : String) : Option (Outcome PetId) :=
  let (position, random) := m.area.spawnPosition m.settings.petSize m.settings.spawnMargin m.random
  { m with random }.registerAt? pack position

def pet? (m : Manager) (id : PetId) : Option Pet :=
  m.pets.find? (·.id = id)

def petIds (m : Manager) : List PetId :=
  m.pets.map (·.id)

def unregister (m : Manager) (id : PetId) : Outcome Unit :=
  if (m.pet? id).isSome then ⟨.ok (), { m with pets := m.pets.filter (·.id ≠ id) }⟩
  else ⟨.error (.unknownPet id), m⟩

def diagnostics (m : Manager) (id : PetId) : Except CallError Diagnostics :=
  match m.pet? id with
  | none => .error (.unknownPet id)
  | some pet => .ok (pet.diagnose m.area)

/-! ## Commands -/

/-- Puts a command in the channel, whoever it is for. -/
def post (m : Manager) (command : Command) : Outcome Unit :=
  match m.channel.send? command with
  | none => ⟨.error .disconnected, m⟩
  | some channel => ⟨.ok (), { m with channel }⟩

/-- Puts a request for a pet in the channel, if there is such a pet. -/
def ask (m : Manager) (id : PetId) (request : Request) : Outcome Unit :=
  if (m.pet? id).isSome then m.post ⟨id, request⟩ else ⟨.error (.unknownPet id), m⟩

def pointerDown (m : Manager) (id : PetId) (position : Vector2) (time : Float) : Outcome Unit :=
  m.ask id (.pointer (.down position time))

def pointerMove (m : Manager) (id : PetId) (position : Vector2) (time : Float) : Outcome Unit :=
  m.ask id (.pointer (.move position time))

def pointerUp (m : Manager) (id : PetId) (position : Vector2) (time : Float) : Outcome Unit :=
  m.ask id (.pointer (.up position time))

def triggerBehavior (m : Manager) (id : PetId) (behavior : String) : Outcome Unit :=
  m.ask id (.trigger behavior)

/-- The channel once the manager is gone. -/
def close (m : Manager) : Channel :=
  { m.channel with isOpen := false }

/-! ## Ticks -/

/-- Settings to be taken up at the next tick, in place of any that wait already. -/
def stage (m : Manager) (settings : Settings) : Manager :=
  { m with staged := some settings }

/-- The area under new settings. It changes only where screen or margins differ. -/
def areaUnder (area : Area) (s : Settings) : Area :=
  if !(s.screenWidth == area.width && s.screenHeight == area.height) then
    { area with margins := s.margins }.resize s.screenWidth s.screenHeight
  else if !s.margins.agrees area.margins then area.withMargins s.margins
  else area

/-- Takes up staged settings. Settings that agree with the present ones change nothing. -/
def applyStaged (m : Manager) : Manager :=
  match m.staged with
  | none => m
  | some s =>
    { m with
      staged := none
      area := areaUnder m.area s
      settings := if m.settings.agrees s then m.settings else s }

def scene (m : Manager) : Scene :=
  { area := m.area, settings := m.settings, delta := m.clock.delta }

/-- Lets `dt` seconds pass: time and staged settings first, then each pet takes in its commands and
makes its step. There is no answer when a pet has none.

The program works in passes: all pets take in their commands, then the pointer events of all pets are handled,
and so on. In a pass a pet sees only its own state and the surroundings, so that here each pet makes all its
passes at once; `tick?_eq_passes` shows that it comes to the same. Sounds and calls are listed by the numbers of
their pets. The program lists them in the order in which the pets are stored, where the last pet takes the place
of one that is removed: of the pets 1, 2 and 3 without 1, pet 3 comes first. Nothing depends on the order between
pets, and within a pet it is the same. -/
def tick? (m : Manager) (dt : Float32) : Option (Manager × Report) := do
  let m := { m with clock := m.clock.advance dt }.applyStaged
  let pets := m.pets.map (·.receiveAll m.channel.waiting)
  let stepped ← pets.mapM (·.step? m.scene)
  let pets := stepped.map (·.1)
  return ({ m with pets, channel.waiting := [] },
    { frames := pets.map fun p => (p.id, p.picture)
      sounds := stepped.flatMap (·.2.sounds)
      calls := stepped.flatMap (·.2.calls) })

end Manager

end DesktopPet
