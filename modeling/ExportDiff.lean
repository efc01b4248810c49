import ExportDiff.Main
import ExportDiff.Noise.Content
import ExportDiff.Proofs.Change.FileDiff
import ExportDiff.Proofs.Flow.Comparison
import ExportDiff.Proofs.Flow.Connected
import ExportDiff.Proofs.Flow.LoopBack
import ExportDiff.Proofs.Flow.SinglePath
import ExportDiff.Proofs.LineDiff.Alignment
import ExportDiff.Proofs.Noise.PathKey
import ExportDiff.Web.Compare
import ExportDiff.Web.LineDiff
import ExportDiff.Xml.LocalName
import ExportDiff.Proofs.Text.Replace
import ExportDiff.Proofs.Archive.Reader
import ExportDiff.Proofs.Flow.Fallback
import ExportDiff.Proofs.Flow.Inventory
import ExportDiff.Proofs.Flow.Status
import ExportDiff.Proofs.Noise.Identifier
import ExportDiff.Proofs.Noise.Stamp
import ExportDiff.Proofs.LineDiff.Order
import ExportDiff.Proofs.LineDiff.View
import ExportDiff.Proofs.Change.Mirror
import ExportDiff.Proofs.Change.Rearrangement
import ExportDiff.Proofs.Change.Recount
import ExportDiff.Proofs.Change.Withheld
import ExportDiff.Proofs.LineDiff.Tail
import ExportDiff.Proofs.Noise.Layout
import ExportDiff.Proofs.Flow.Descent
import ExportDiff.Proofs.Flow.BranchLinks
import ExportDiff.Proofs.Change.Collision
import ExportDiff.Proofs.Change.MappingRating
import ExportDiff.Proofs.Noise.Extension
import ExportDiff.Proofs.Noise.Version
import ExportDiff.Proofs.Flow.Pairing
import ExportDiff.Proofs.Noise.OnePass
import ExportDiff.Proofs.Noise.Locality
import ExportDiff.Proofs.Change.Order
import ExportDiff.Proofs.LineDiff.Listing
import ExportDiff.Proofs.Change.Excerpt
import ExportDiff.Proofs.Pretty.Nesting
import ExportDiff.Proofs.Change.Repetition
import ExportDiff.Proofs.Change.Overflow
import ExportDiff.Proofs.Change.MappingLabels
import ExportDiff.Proofs.Flow.Recasing
import ExportDiff.Proofs.Json.Search
import ExportDiff.Proofs.Flow.Call
import ExportDiff.Proofs.Change.ConnectionString
import ExportDiff.Proofs.Change.Fingerprint
