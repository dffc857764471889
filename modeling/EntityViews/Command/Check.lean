import EntityViews.Command.Outcome
import EntityViews.Json.Encode
import EntityViews.Manifest.File

/-!
This module contains the command that reports all findings on a manifest.
-/

namespace EntityViews

def Failure.toDiagnostic (failure : Failure) : Diagnostic where
  severity := .error
  entity := failure.entity
  code := "generation-failed"
  message := failure.error.message

def Report.findings (report : Report) : List Diagnostic :=
  report.failures.map Failure.toDiagnostic ++ report.diagnostics

namespace Diagnostic

def lines (diagnostic : Diagnostic) : List String :=
  [s!"{diagnostic.severity.keyword}: {diagnostic.message}",
    s!"  --> {diagnostic.entity} [{diagnostic.code}]"]

end Diagnostic

namespace Command

def checkJson (isValid : Bool) (entityCount : Nat) (findings : List Diagnostic) : JsonValue :=
  .object [
    ("valid", .boolean isValid),
    ("entities", .number entityCount),
    ("diagnostics", .array (findings.map Diagnostic.toJson))]

def validLine (path : String) (entityCount : Nat) : String :=
  let ending := if entityCount = 1 then "y" else "ies"
  s!"✓ {path} is valid ({entityCount} entit{ending})"

def runCheck (file : ManifestFile) (json : Bool) : Outcome :=
  let findings := file.manifest.generate.findings
  let isValid := !findings.any (·.isError)
  let count := file.manifest.entities.length
  let isRemark (d : Diagnostic) : Bool := d.severity = .info
  if json then
    { output := [(checkJson isValid count findings).print 0], hasFailures := !isValid }
  else
    { output := (findings.filter isRemark).flatMap Diagnostic.lines
        ++ (if isValid then
            (if findings.isEmpty then [] else [""]) ++ [validLine file.path count]
          else [])
      notes := (findings.filter (!isRemark ·)).flatMap Diagnostic.lines
      hasFailures := !isValid }

end Command

end EntityViews
