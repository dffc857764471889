import EntityViews.Command.Outcome
import EntityViews.Manifest.File

/-!
This module contains the command that generates the units of a manifest.
-/

namespace EntityViews

structure Tally where
  written : List String := []
  unchanged : Nat := 0
deriving DecidableEq, Repr

namespace Tally

variable {m : Type → Type} [Monad m] [FileAccess m]

def writeAll (directory : String) (tally : Tally) :
    List SourceUnit → m (Tally × Option (SourceUnit × WriteError))
  | [] => return (tally, none)
  | unit :: units => do
    match ← unit.write directory with
    | .error error => return (tally, some (unit, error))
    | .ok .written =>
      writeAll directory { tally with written := tally.written ++ [unit.path directory] } units
    | .ok .unchanged => writeAll directory { tally with unchanged := tally.unchanged + 1 } units

def fileLines (tally : Tally) : List String :=
  tally.written.map fun path => s!"  + {path}"

def summary (tally : Tally) (directory : String) : String :=
  s!"Generated: {tally.written.length} written, {tally.unchanged} unchanged in {directory}"

end Tally

namespace Report

def warningLines (report : Report) : List String :=
  (report.diagnostics.filter (·.isWarning)).map fun d => s!"warning: {d.message} ({d.entity})"

def failureLines (report : Report) : List String :=
  report.failures.map fun failure => s!"error: {failure.entity}: {failure.error.message}"

def previewLines (report : Report) : List String :=
  report.units.flatMap (fun unit => [s!"── {unit.fileName} ──", unit.content])
    ++ ["── Summary ──", s!"{report.units.length} files would be generated"]

end Report

namespace Command

variable {m : Type → Type} [Monad m] [FileAccess m]

def writeReport (report : Report) (directory : String) : m Outcome := do
  match ← Tally.writeAll directory {} report.units with
  | (tally, some (unit, error)) =>
    return {
      output := tally.fileLines
      notes := report.warningLines
      error := some (.write unit.entity error)
    }
  | (tally, none) =>
    return {
      output := tally.fileLines ++ ["", tally.summary directory]
      notes := report.warningLines ++ report.failureLines
      hasFailures := !report.isSuccess
    }

def previewReport (report : Report) : Outcome where
  output := report.previewLines
  notes := report.warningLines ++ report.failureLines
  hasFailures := !report.isSuccess

def runGenerate (file : ManifestFile) (directory : String) (dryRun : Bool) : m Outcome :=
  if dryRun then
    return previewReport file.manifest.generate
  else
    writeReport file.manifest.generate directory

end Command

end EntityViews
