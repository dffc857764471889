import EntityViews.Manifest.Validate
import EntityViews.Files.Access

/-!
This module contains the files that manifests are read from.
-/

namespace EntityViews

structure ManifestFile where
  path : String
  content : String
  manifest : Manifest

namespace ManifestFile

variable {m : Type → Type} [Monad m] [FileAccess m]

def load (path : String) : m (Except ManifestError ManifestFile) := do
  match ← readText path with
  | none => return .error (.unreadable path)
  | some content =>
    match Manifest.parse content with
    | .error error => return .error error
    | .ok manifest => return .ok { path, content, manifest }

end ManifestFile

end EntityViews
