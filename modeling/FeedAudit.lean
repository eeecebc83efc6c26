import FeedAudit.Main
import FeedAudit.Proofs.Encoding
import FeedAudit.Proofs.FlatVerdict
import FeedAudit.Proofs.Independence
import FeedAudit.Proofs.Interchange
import FeedAudit.Proofs.LeftBehind
import FeedAudit.Proofs.Locality
import FeedAudit.Proofs.Refusals
import FeedAudit.Proofs.ReportBlock
import FeedAudit.Proofs.DistinctNames
import FeedAudit.Proofs.Essence
import FeedAudit.Proofs.Layering
import FeedAudit.Proofs.SideBySide
import FeedAudit.Proofs.Masking
import FeedAudit.Proofs.LosslessLog
import FeedAudit.Proofs.Mirroring
import FeedAudit.Proofs.Explanation
import FeedAudit.Proofs.Agreement
import FeedAudit.Proofs.Descent
import FeedAudit.Proofs.OrderedUnion
import FeedAudit.Proofs.Nesting
import FeedAudit.Proofs.Isolation
import FeedAudit.Proofs.Endings
import FeedAudit.Proofs.AcceptedRuns
import FeedAudit.Proofs.Containers
import FeedAudit.Proofs.Retries
import FeedAudit.Proofs.AcceptedValues
import FeedAudit.Proofs.SelectorGrammar
import FeedAudit.Proofs.AddedChannels
import FeedAudit.Proofs.ReportPlaces
import FeedAudit.Proofs.WrittenBlocks
import FeedAudit.Proofs.Parameters
import FeedAudit.Proofs.Redaction
import FeedAudit.Proofs.Durations
import FeedAudit.Proofs.Limits
import FeedAudit.Proofs.Resolution
