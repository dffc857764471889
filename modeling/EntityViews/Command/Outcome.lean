import EntityViews.Command.Switch
import EntityViews.Manifest.Error
import EntityViews.SourceUnit.Write

/-!
This module contains the outcomes of commands.
-/

namespace EntityViews

inductive CommandError where
  | usage (error : UsageError)
  | manifest (error : ManifestError)
  | write (entity : String) (error : WriteError)
deriving DecidableEq, Repr

def CommandError.message : CommandError → String
  | .usage error => error.message
  | .manifest error => error.message
  | .write entity error => s!"failed to write unit for {entity}: {error.message}"

structure Outcome where
  output : List String := []
  notes : List String := []
  error : Option CommandError := none
  hasFailures : Bool := false
deriving DecidableEq, Repr

namespace Outcome

def stopped (error : CommandError) : Outcome :=
  { error := some error }

def exitCode (outcome : Outcome) : Nat :=
  match outcome.error with
  | some (.usage _) => 2
  | some _ => 1
  | none => if outcome.hasFailures then 1 else 0

def textOf (lines : List String) : String :=
  String.join (lines.map (· ++ "\n"))

end Outcome

end EntityViews
