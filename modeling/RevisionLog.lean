import RevisionLog.Store
import RevisionLog.Disk.Tree
import RevisionLog.Proofs.Reader.Shown
import RevisionLog.Proofs.Reader.Inflating
import RevisionLog.Proofs.Patch.Reading
import RevisionLog.Proofs.Patch.Reused
import RevisionLog.Proofs.Patch.Splicing
import RevisionLog.Proofs.Patch.Applying
import RevisionLog.Proofs.Index.Grammar
import RevisionLog.Proofs.Log.Text
import RevisionLog.Proofs.Log.Agreement
import RevisionLog.Proofs.Log.RoundTrip
import RevisionLog.Proofs.Log.Deltas
import RevisionLog.Proofs.Log.DeltaParents
import RevisionLog.Proofs.Log.Interference
import RevisionLog.Proofs.Log.Reused
import RevisionLog.Proofs.Log.WarmUp
import RevisionLog.Proofs.Log.Layout
import RevisionLog.Proofs.Log.Growth
import RevisionLog.Proofs.Log.Failures
import RevisionLog.Proofs.Log.Locality
import RevisionLog.Proofs.Patch.Codec
import RevisionLog.Proofs.Log.Lengths
import RevisionLog.Proofs.Copies
import RevisionLog.Proofs.Store.Paths
import RevisionLog.Proofs.Log.Strictness
import RevisionLog.Proofs.Log.Lookup
import RevisionLog.Proofs.Log.Shortcuts
import RevisionLog.Proofs.Log.DataFile
import RevisionLog.Proofs.Reader.Windows
import RevisionLog.Proofs.NodeId
