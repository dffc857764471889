import EntityViews.SourceUnit.Basic
import EntityViews.Files.Access
import EntityViews.Files.Path

/-!
This module contains the writing of source units to files. Files that already have the right content
are left alone.
-/

namespace EntityViews

inductive WriteResult where
  | written
  | unchanged
deriving DecidableEq, Repr

inductive WriteError where
  | directory (path : String)
  | file (path : String)
deriving DecidableEq, Repr

def WriteError.message : WriteError → String
  | .directory path => s!"failed to create '{path}'"
  | .file path => s!"failed to write '{path}'"

namespace SourceUnit

def path (unit : SourceUnit) (directory : String) : String :=
  Path.join directory unit.fileName

variable {m : Type → Type} [Monad m] [FileAccess m]

def isStale (unit : SourceUnit) (directory : String) : m Bool := do
  let content ← readText (unit.path directory)
  return content != some unit.content

def write (unit : SourceUnit) (directory : String) : m (Except WriteError WriteResult) := do
  if ← unit.isStale directory then
    let path := unit.path directory
    if !(← createDirectories (Path.parent path)) then
      return .error (.directory (Path.parent path))
    else if !(← writeText path unit.content) then
      return .error (.file path)
    else
      return .ok .written
  else
    return .ok .unchanged

end SourceUnit

end EntityViews
