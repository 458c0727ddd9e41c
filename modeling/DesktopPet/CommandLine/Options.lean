import DesktopPet.Number.Notation

/-!
# Arguments of the command line

Options have long names and may give their value after an equals sign or as the next argument. None
may be given twice, and there are no plain arguments.
-/

namespace DesktopPet.CommandLine

structure Options where
  configPath : Option String := none
  packPath : Option String := none
  pets : Option Nat := none
  ticks : Option Nat := none
  seed : Option UInt64 := none
  dump : Bool := false
  trigger : Option String := none
  deriving DecidableEq, Repr

inductive OptionName where
  | config | pack | pets | ticks | seed | trigger
  deriving DecidableEq, Repr

/-- Why there is nothing to run. -/
inductive Stop where
  | help
  | version
  | badArgument (argument : String)
  deriving DecidableEq, Repr

def OptionName.ofName? : String → Option OptionName
  | "config" => some .config
  | "pack" => some .pack
  | "pets" => some .pets
  | "ticks" => some .ticks
  | "seed" => some .seed
  | "trigger" => some .trigger
  | _ => none

/-- Digits as a number below a limit. -/
def digits? (limit : Nat) (cs : List Char) : Option Nat :=
  if cs.isEmpty || !cs.all Char.isDigit then none
  else
    let n := Number.digitsValue cs
    if n < limit then some n else none

def count? (limit : Nat) (text : String) : Option Nat :=
  match text.toList with
  | '+' :: rest => digits? limit rest
  | cs => digits? limit cs

/-- A number of 32 bits that is read with either sign, so that minus zero is one. -/
def signedCount? (text : String) : Option Nat :=
  match text.toList with
  | '-' :: rest => digits? 1 rest
  | _ => count? (Nat.pow 2 32) text

def path? (text : String) : Option String :=
  if text.isEmpty then none else some text

/-- Sets an option that is not set yet, if the value will do. -/
def Options.set? (o : Options) (name : OptionName) (value : String) : Option Options :=
  match name with
  | .config => if o.configPath.isSome then none else (path? value).map fun v => { o with configPath := some v }
  | .pack => if o.packPath.isSome then none else (path? value).map fun v => { o with packPath := some v }
  | .pets => if o.pets.isSome then none else (count? (Nat.pow 2 64) value).map fun v => { o with pets := some v }
  | .ticks => if o.ticks.isSome then none else (signedCount? value).map fun v => { o with ticks := some v }
  | .seed => if o.seed.isSome then none
    else (count? (Nat.pow 2 64) value).map fun v => { o with seed := some v.toUInt64 }
  | .trigger => if o.trigger.isSome then none else some { o with trigger := some value }

inductive Argument where
  /-- Two dashes alone: only plain arguments follow. -/
  | terminator
  /-- Two dashes with a name and perhaps a value after an equals sign. -/
  | long (name : String) (value : Option String)
  /-- One dash with letters. -/
  | short (letters : List Char)
  | plain (text : String)
  deriving DecidableEq, Repr

def Argument.ofText (text : String) : Argument :=
  match text.toList with
  | ['-', '-'] => .terminator
  | '-' :: '-' :: rest =>
    let name := String.ofList (rest.takeWhile (· ≠ '='))
    match rest.dropWhile (· ≠ '=') with
    | [] => .long name none
    | _ :: value => .long name (some (String.ofList value))
  | '-' :: c :: rest => .short (c :: rest)
  | _ => .plain text

/-- Reads arguments from left to right; the first that stops the reading decides. -/
def parseFrom (o : Options) : List String → Except Stop Options
  | [] => .ok o
  | text :: rest =>
    let bad : Except Stop Options := .error (.badArgument text)
    match Argument.ofText text with
    | .terminator => if rest.isEmpty then .ok o else bad
    | .plain _ => bad
    | .short ('h' :: _) => .error .help
    | .short ('V' :: _) => .error .version
    | .short _ => bad
    | .long "help" none => .error .help
    | .long "version" none => .error .version
    | .long "dump" none => if o.dump then bad else parseFrom { o with dump := true } rest
    | .long name value =>
      match OptionName.ofName? name, value, rest with
      | some option, some value, rest =>
        match o.set? option value with
        | some o => parseFrom o rest
        | none => bad
      | some option, none, value :: rest =>
        match Argument.ofText value with
        | .plain value =>
          match o.set? option value with
          | some o => parseFrom o rest
          | none => bad
        | _ => bad
      | _, _, _ => bad

def parse (arguments : List String) : Except Stop Options :=
  parseFrom {} arguments

def Options.configFile (o : Options) : String :=
  o.configPath.getD "assets/config.ini"

def Options.packFile (o : Options) : String :=
  o.packPath.getD "assets/packs/demo.json"

def Options.petCount (o : Options) : Nat :=
  o.pets.getD 2

def Options.tickCount (o : Options) : Nat :=
  o.ticks.getD 300

def Options.triggerName (o : Options) : String :=
  o.trigger.getD "Sit"

def usage : List String :=
  ["A desktop-pet simulation without a screen",
   "",
   "Options:",
   "  --config <PATH>   INI file of settings; standard settings are used when it is missing",
   "                    [default: assets/config.ini]",
   "  --pack <PATH>     JSON pack to load [default: assets/packs/demo.json]",
   "  --pets <N>        number of pets [default: 2]",
   "  --ticks <N>       number of ticks [default: 300]",
   "  --seed <N>        seed of a reproducible run",
   "  --dump            print the account of every pet as JSON at the end",
   "  --trigger <NAME>  behavior that is triggered halfway [default: Sit]",
   "  -h, --help        print this help",
   "  -V, --version     print the version"]

def versionLine : String :=
  "desktop-pet 0.1.0"

end DesktopPet.CommandLine
