import ClassAtlas.Main
import ClassAtlas.Proofs.Dependants
import ClassAtlas.Proofs.RelationTargets
import ClassAtlas.Proofs.Edges
import ClassAtlas.Proofs.Precedence
import ClassAtlas.Proofs.Extension
import ClassAtlas.Proofs.Reordering
import ClassAtlas.Proofs.Keys
import ClassAtlas.Proofs.Coupling
import ClassAtlas.Proofs.Folders
import ClassAtlas.Proofs.Listings
import ClassAtlas.Proofs.NoiseScan
import ClassAtlas.Proofs.NoiseReplacement
import ClassAtlas.Proofs.NoiseSegments
import ClassAtlas.Proofs.Nesting
import ClassAtlas.Proofs.Occurrences
import ClassAtlas.Proofs.FieldMarks
import ClassAtlas.Proofs.Parameters
import ClassAtlas.Proofs.Identifiers
import ClassAtlas.Proofs.FieldLines
import ClassAtlas.Proofs.FieldRecovery
import ClassAtlas.Proofs.Session.Interleaving
import ClassAtlas.Proofs.Session.RunSteps
import ClassAtlas.Proofs.Session.Supervision
import ClassAtlas.Proofs.Session.Progress
import ClassAtlas.Proofs.Session.Schedules
import ClassAtlas.Proofs.Session.Coherence
import ClassAtlas.Proofs.Session.Outcomes
import ClassAtlas.Proofs.Session.StatusLine
import ClassAtlas.Proofs.Session.Chronicle
import ClassAtlas.Proofs.Session.Replay
import ClassAtlas.Proofs.Session.Abandonment
import ClassAtlas.Proofs.Session.GivenFiles
import ClassAtlas.Proofs.Outlines
import ClassAtlas.Proofs.Overlaps
import ClassAtlas.Proofs.Spellings
import ClassAtlas.Proofs.FieldReferences
import ClassAtlas.Proofs.Realisations
import ClassAtlas.Proofs.Braces
import ClassAtlas.Proofs.PathComponents
import ClassAtlas.Proofs.PathTree
import ClassAtlas.Proofs.InnerFolders
import ClassAtlas.Proofs.DiagramNodes
import ClassAtlas.Proofs.ByteOrder
import ClassAtlas.Proofs.EdgeOrder
import ClassAtlas.Proofs.ArgumentPattern
import ClassAtlas.Proofs.TableCells
import ClassAtlas.Proofs.TableListing
import ClassAtlas.Proofs.SourceFiles
import ClassAtlas.Proofs.BranchOpeners
import ClassAtlas.Proofs.Columns
