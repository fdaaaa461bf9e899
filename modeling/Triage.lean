import Triage.Codec.Catalog
import Triage.Codec.Member
import Triage.Config.Building
import Triage.Config.Load
import Triage.Service.Creation
import Triage.Service.Fault
import Triage.Service.Reading
import Triage.Service.Reindex
import Triage.Service.Run
import Triage.Service.Snapshot
import Triage.Store.Edit
import Triage.Store.Location
import Triage.Codec.Search
import Triage.Proofs.KeyMap
import Triage.Proofs.Result
import Triage.Proofs.Store.Content
import Triage.Proofs.Store.Calls
import Triage.Proofs.Service.Dialogue
import Triage.Proofs.Service.Refusal
import Triage.Proofs.Service.Exits
import Triage.Proofs.Service.Reachable
import Triage.Proofs.Service.Atomicity
import Triage.Proofs.Service.Mirror
import Triage.Proofs.Service.Amid
import Triage.Proofs.Service.Rebuild
import Triage.Proofs.Service.Ledger
import Triage.Proofs.Service.Conduct
import Triage.Proofs.Service.Coherence
import Triage.Proofs.Service.Interleaving
import Triage.Proofs.Service.Recovery
import Triage.Proofs.Service.Divergence
import Triage.Proofs.Service.LockUse
import Triage.Proofs.Service.Breakdown
import Triage.Proofs.Json.Number
import Triage.Proofs.Json.Scan
import Triage.Proofs.Json.Read
import Triage.Proofs.Codec.Exact
import Triage.Proofs.Store.Refinement
import Triage.Proofs.Issue.Replay
import Triage.Proofs.Decimal.Rounding
import Triage.Proofs.Decimal.Stepwise
import Triage.Proofs.Decimal.Shortest
import Triage.Proofs.Decimal.Readable
import Triage.Proofs.Decimal.Finite
import Triage.Proofs.Store.Legible
import Triage.Proofs.Service.Chronicle
import Triage.Proofs.Store.Checks
import Triage.Proofs.Store.Steps
import Triage.Proofs.Store.Reread
import Triage.Proofs.Store.Soundness
import Triage.Proofs.Store.Readback
import Triage.Proofs.Store.Stamps
import Triage.Proofs.Service.Tampering
import Triage.Proofs.Store.Reopening
import Triage.Proofs.Workflow
import Triage.Proofs.Search.Filter
import Triage.Proofs.Service.Schedule
import Triage.Proofs.Service.Forbidden
import Triage.Proofs.Service.Frame
import Triage.Proofs.Service.Hosting
import Triage.Proofs.Service.Lasting
import Triage.Proofs.Service.Lifecycle
import Triage.Proofs.Service.Memoryless
import Triage.Proofs.Service.Locality
import Triage.Proofs.Service.Origin
import Triage.Proofs.Service.Repetition
import Triage.Proofs.Lock.Race
import Triage.Proofs.Lock.Serial
import Triage.Proofs.Gate
import Triage.Proofs.Config.Grants
import Triage.Proofs.Store.RoundTrip
import Triage.Proofs.Store.Batches
import Triage.Proofs.Search.Ranking
import Triage.Proofs.Search.Listing
import Triage.Proofs.Search.Tally
import Triage.Proofs.Search.DrillDown
import Triage.Proofs.Service.Searching
import Triage.Proofs.Search.Replacement
import Triage.Proofs.Service.Aggregates
import Triage.Proofs.Service.TagListing
import Triage.Proofs.Service.Acceptance
import Triage.Proofs.Service.Raising
import Triage.Proofs.Service.MessageLimit
import Triage.Proofs.TextSet
import Triage.Proofs.Catalog
import Triage.Proofs.Issue.Difference
import Triage.Proofs.Text.Lowercase
import Triage.Proofs.Tags
import Triage.Proofs.Service.Custody
import Triage.Proofs.Service.Safekeeping
import Triage.Proofs.Service.Recording
import Triage.Proofs.Service.Tagging
import Triage.Proofs.Files.Path
import Triage.Proofs.Config.StorePath
import Triage.Proofs.Codec.Facet
import Triage.Proofs.Search.Buckets
import Triage.Proofs.Json.Printed
import Triage.Proofs.Audit
import Triage.Proofs.Service.Logging
