/-!
This module contains the access to files that commands need.
-/

namespace EntityViews

class FileAccess (m : Type → Type) where
  readText : String → m (Option String)
  createDirectories : String → m Bool
  writeText : String → String → m Bool

export FileAccess (readText createDirectories writeText)

end EntityViews
