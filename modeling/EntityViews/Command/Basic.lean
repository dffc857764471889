import EntityViews.Command.Switch
import EntityViews.Manifest.Basic

/-!
This module contains the commands of the program and how they are read from its arguments.
-/

namespace EntityViews

inductive Command where
  | generate (manifest directory : String) (dryRun : Bool)
  | check (manifest : String) (json : Bool)
  | list (manifest : String) (json : Bool)
deriving DecidableEq, Repr

namespace Command

def versionText : String := "entigen 0.3.0"

def readSwitches (allowed : List Switch) (arguments : List String) :
    Except Interruption Switches := do
  match ← Switches.read ([.verbose, .quiet, .manifest] ++ allowed) {} arguments with
  | (switches, []) => return switches
  | (_, text :: _) => throw (.usage (.unexpectedArgument text))

def manifestPath (switches : Switches) : String :=
  switches.value .manifest Manifest.defaultFileName

def parse (arguments : List String) : Except Interruption Command := do
  let (_, rest) ← Switches.read [.verbose, .quiet, .version] {} arguments
  match rest with
  | [] => throw (.usage .missingCommand)
  | "generate" :: arguments =>
    let switches ← readSwitches [.output, .dryRun] arguments
    return .generate (manifestPath switches) (switches.value .output ".") (switches.has .dryRun)
  | "check" :: arguments =>
    let switches ← readSwitches [.json] arguments
    return .check (manifestPath switches) (switches.has .json)
  | "list" :: arguments =>
    let switches ← readSwitches [.json] arguments
    return .list (manifestPath switches) (switches.has .json)
  | name :: _ => throw (.usage (.unknownCommand name))

end Command

end EntityViews
