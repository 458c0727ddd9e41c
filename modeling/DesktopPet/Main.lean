import DesktopPet.Account
import DesktopPet.CommandLine.Run

/-!
# The program

Reads the files that the arguments name, makes the run, and prints what came of it.
-/

namespace DesktopPet.CommandLine

def readText (path : String) : IO (Except String String) := do
  try
    return .ok (← IO.FS.readFile path)
  catch error =>
    return .error (toString error)

/-- A seed that differs from run to run. -/
def randomSeed : IO UInt64 := do
  let bytes ← IO.getRandomBytes 8
  return bytes.foldl (fun seed byte => seed * 256 + byte.toUInt64) 0

/-- The exit code that stands for a run that was killed. -/
def killedCode : UInt32 := 134

/-- Prints what came of a run and answers its exit code. -/
def conclude (result : Result) : IO UInt32 := do
  match result with
  | .help => usage.forM IO.println
  | .version => IO.println versionLine
  | _ => pure ()
  for account in result.printed do
    IO.println account.toJson.pretty
  if let some complaint := result.complaint? then
    IO.eprintln ("error: " ++ complaint)
  return result.exitCode?.getD killedCode

end DesktopPet.CommandLine

open DesktopPet.CommandLine in
def main (arguments : List String) : IO UInt32 := do
  match parse arguments with
  | .error stop => conclude stop.result
  | .ok options =>
    let config ← readText options.configFile
    let pack ← readText options.packFile
    conclude (options.run config pack (← randomSeed))
