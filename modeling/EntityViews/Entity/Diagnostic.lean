/-!
This module contains findings about entities.
-/

namespace EntityViews

inductive Severity where
  | error
  | warning
  | info
deriving DecidableEq, Repr

def Severity.keyword : Severity → String
  | .error => "error"
  | .warning => "warning"
  | .info => "info"

structure Diagnostic where
  severity : Severity
  entity : String
  code : String
  message : String
deriving DecidableEq, Repr

namespace Diagnostic

def isError (diagnostic : Diagnostic) : Bool :=
  diagnostic.severity = .error

def isWarning (diagnostic : Diagnostic) : Bool :=
  diagnostic.severity = .warning

def text (diagnostic : Diagnostic) : String :=
  s!"{diagnostic.severity.keyword}[{diagnostic.code}]: {diagnostic.message} (in {diagnostic.entity})"

end Diagnostic

end EntityViews
