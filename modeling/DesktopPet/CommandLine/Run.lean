import DesktopPet.CommandLine.Options
import DesktopPet.Manager
import DesktopPet.Pack.Reader

/-!
# Runs of the command line

A run without a screen: it loads settings and a pack, adds some pets, lets them live for some ticks,
throws the first pet and triggers a behavior of the last one halfway through, and gives an account of
all pets at the end.
-/

namespace DesktopPet.CommandLine

inductive Result where
  | help
  | version
  | badArgument (argument : String)
  | badPack (reason : String)
  /-- The bounds left no interval to a pet. -/
  | undefinedBounds
  /-- No list is long enough for the pets. -/
  | tooManyPets
  /-- The list of the pets does not fit into memory. -/
  | outOfMemory
  /-- The accounts of all pets, to be printed if asked for. -/
  | finished (accounts : List Diagnostics) (dump : Bool)
  deriving DecidableEq, Repr

/-- The exit code; a run that is out of memory is killed and has none. -/
def Result.exitCode? : Result → Option UInt32
  | .help | .version | .finished .. => some 0
  | .badPack _ => some 1
  | .badArgument _ => some 2
  | .undefinedBounds | .tooManyPets => some 101
  | .outOfMemory => none

def Result.printed : Result → List Diagnostics
  | .finished accounts true => accounts
  | _ => []

def Result.complaint? : Result → Option String
  | .help | .version | .finished .. => none
  | .badArgument argument => some ("bad argument '" ++ argument ++ "'")
  | .badPack reason => some reason
  | .undefinedBounds => some "the bounds leave no interval to a pet"
  | .tooManyPets => some "no list is long enough for the pets"
  | .outOfMemory => some "the list of the pets does not fit into memory"

def Stop.result : Stop → Result
  | .help => .help
  | .version => .version
  | .badArgument argument => .badArgument argument

/-- Bytes that a run sets aside for each pet before it adds the first one. -/
def bytesPerPet : Nat := 8

/-- A list takes fewer bytes than this. -/
def listLimit : Nat := Nat.pow 2 63

/-- Bytes that a process can address. -/
def addressLimit : Nat := Nat.pow 2 47

/-- What stops a run with so many pets before it begins. -/
def refuseCount? (pets : Nat) : Option Result :=
  if listLimit ≤ pets * bytesPerPet then some .tooManyPets
  else if addressLimit < pets * bytesPerPet then some .outOfMemory
  else none

def addPets (pack : String) : Nat → Manager → Option Manager
  | 0, m => some m
  | n + 1, m => do
    let outcome ← m.register? pack
    addPets pack n outcome.manager

def splat (x : Float32) : Vector2 := ⟨x, x⟩

/-- Grabs a pet at its middle, moves it up and to the right, and lets go, all within half of a tick. -/
def flick (m : Manager) (pet : Diagnostics) (now : Float) (dt : Float32) : Manager :=
  let grab := pet.position + splat 32.0
  let step := Number.widen dt / 4.0
  let m := (m.pointerDown pet.pet grab now).manager
  let m := (m.pointerMove pet.pet (grab + ⟨20.0, -10.0⟩) (now + step)).manager
  (m.pointerUp pet.pet (grab + ⟨60.0, -40.0⟩) (now + 2.0 * step)).manager

/-- What happens halfway: the first pet is thrown and the last one gets a trigger. -/
def intervene (m : Manager) (trigger : String) (now : Float) (dt : Float32) : Manager :=
  let m := match m.petIds.head? with
    | some first =>
      match m.diagnostics first with
      | .ok account => flick m account now dt
      | .error _ => m
    | none => m
  match m.petIds.getLast? with
  | some last => (m.post ⟨last, .trigger trigger⟩).manager
  | none => m

/-- Lets ticks pass; `index` counts them and `now` is the time. -/
def run? (halfway : Nat) (trigger : String) (dt : Float32) : Nat → Nat → Float → Manager → Option Manager
  | 0, _, _, m => some m
  | n + 1, index, now, m => do
    let m := if index = halfway then intervene m trigger now dt else m
    let (m, _) ← m.tick? dt
    run? halfway trigger dt n (index + 1) (now + Number.widen dt) m

def simulate (o : Options) (seed : UInt64) (settings : Settings) (spec : PackSpec) : Result :=
  let pack := if spec.name.isEmpty then "demo" else spec.name
  let dt := 1.0 / Number.maximum settings.tickRate 1.0
  let loaded := (Manager.new settings seed).loadPack pack spec
  match loaded.answer with
  | .error error => .badPack error.message
  | .ok _ =>
    match refuseCount? o.petCount with
    | some refusal => refusal
    | none =>
      let final := do
        let m ← addPets pack o.petCount loaded.manager
        run? (o.tickCount / 2) o.triggerName dt o.tickCount 0 0.0 m
      match final with
      | none => .undefinedBounds
      | some m => .finished (m.pets.map (·.diagnose m.area)) o.dump

/-- The settings that a file holds; the standard ones if it cannot be loaded. -/
def settingsOf (path : String) (contents : Except String String) : Settings :=
  match Settings.loadFile {} path contents with
  | .ok settings => settings
  | .error _ => { path }

/-- The run that options ask for. Each file is given by what it holds, or by why it cannot be read.
`seed` is used if the options give none. -/
def Options.run (o : Options) (config pack : Except String String) (seed : UInt64) : Result :=
  match pack with
  | .error reason => .badPack ("cannot read pack " ++ o.packFile ++ ": " ++ reason)
  | .ok text =>
    match PackSpec.parse? text with
    | none => .badPack ("cannot read pack " ++ o.packFile ++ ": not a pack")
    | some spec => simulate o (o.seed.getD seed) (settingsOf o.configFile config) spec

/-- The run that arguments ask for, with the files that `contents` knows. -/
def start (arguments : List String) (contents : String → Except String String) (seed : UInt64) : Result :=
  match parse arguments with
  | .error stop => stop.result
  | .ok o => o.run (contents o.configFile) (contents o.packFile) seed

end DesktopPet.CommandLine
