import EntityViews.Command.Run

/-!
This module contains the program, which runs commands on the files of the machine.
-/

open EntityViews

instance : FileAccess IO where
  readText path := do
    match ← (IO.FS.readBinFile path).toBaseIO with
    | .ok content => return String.fromUTF8? content
    | .error _ => return none
  createDirectories path := do
    if path.isEmpty then
      return true
    match ← (IO.FS.createDirAll path).toBaseIO with
    | .ok () => return true
    | .error _ => return false
  writeText path content := do
    match ← (IO.FS.writeFile path content).toBaseIO with
    | .ok () => return true
    | .error _ => return false

def main (arguments : List String) : IO UInt32 := do
  let outcome ← Command.runArguments arguments
  IO.eprint (Outcome.textOf outcome.notes)
  IO.print (Outcome.textOf outcome.output)
  match outcome.error with
  | some error => IO.eprintln s!"error: {error.message}"
  | none => pure ()
  return outcome.exitCode.toUInt32
