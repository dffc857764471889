import EntityViews.Command.Basic
import EntityViews.Command.Check
import EntityViews.Command.Generate
import EntityViews.Command.List

/-!
This module contains the program as a whole, from its arguments to the outcome.
-/

namespace EntityViews

namespace Command

variable {m : Type → Type} [Monad m] [FileAccess m]

def manifestPathOf : Command → String
  | .generate manifest .. => manifest
  | .check manifest _ => manifest
  | .list manifest _ => manifest

def run (command : Command) : m Outcome := do
  match ← ManifestFile.load command.manifestPathOf with
  | .error error => return .stopped (.manifest error)
  | .ok file =>
    match command with
    | .generate _ directory dryRun => runGenerate file directory dryRun
    | .check _ json => return runCheck file json
    | .list _ json => return runList file json

def runArguments (arguments : List String) : m Outcome :=
  match parse arguments with
  | .error .version => return { output := [versionText] }
  | .error (.usage error) => return .stopped (.usage error)
  | .ok command => command.run

end Command

end EntityViews
