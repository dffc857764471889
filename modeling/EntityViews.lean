import EntityViews.Main
import EntityViews.Storage.Chunk
import EntityViews.Files.Tree
import EntityViews.Proofs.Source.Page
import EntityViews.Proofs.Decl.Page
import EntityViews.Proofs.SourceUnit.Isolation
import EntityViews.Proofs.SourceUnit.Reuse
import EntityViews.Proofs.Storage.Handle
import EntityViews.Proofs.Manifest.Failure
import EntityViews.Proofs.SourceUnit.Types
import EntityViews.Proofs.SourceUnit.Members
import EntityViews.Proofs.Manifest.Members
import EntityViews.Proofs.Manifest.Tidy
import EntityViews.Proofs.Manifest.FileName
import EntityViews.Proofs.SourceUnit.Simulation
import EntityViews.Proofs.Manifest.Written
import EntityViews.Proofs.SourceUnit.Order
import EntityViews.Proofs.Command.Check
import EntityViews.Proofs.Decl.TypeCheck
import EntityViews.Proofs.Decl.Faint
import EntityViews.Proofs.Decl.Block
import EntityViews.Proofs.Manifest.Label
import EntityViews.Proofs.Manifest.Repeated
import EntityViews.Proofs.Entity.Stability
import EntityViews.Proofs.SourceUnit.Buildable
import EntityViews.Proofs.Manifest.Staleness
import EntityViews.Proofs.Entity.Decoration
import EntityViews.Proofs.Manifest.Naming
import EntityViews.Proofs.Storage.Range
import EntityViews.Proofs.SourceUnit.Parts
import EntityViews.Proofs.Decl.Separated
