import ContentIndex.Bulk.Answer
import ContentIndex.Bulk.Batch
import ContentIndex.Calendar.Date
import ContentIndex.Calendar.Moment
import ContentIndex.Calendar.Reading
import ContentIndex.Calendar.Relative
import ContentIndex.Calendar.Timestamp
import ContentIndex.Config
import ContentIndex.Content
import ContentIndex.Content.Catalogue
import ContentIndex.Document.Basic
import ContentIndex.Document.DateTerms
import ContentIndex.Document.MetaValue
import ContentIndex.Engine.Cluster
import ContentIndex.Engine.Mapping
import ContentIndex.Engine.Paths
import ContentIndex.Engine.Request
import ContentIndex.Hooks
import ContentIndex.IdSet
import ContentIndex.Indexer.Basic
import ContentIndex.Indexer.Bulk
import ContentIndex.Indexer.Describe
import ContentIndex.Indexer.Rebuild
import ContentIndex.Indexer.Search
import ContentIndex.Indexer.World
import ContentIndex.Indexer.Write
import ContentIndex.Json.Number
import ContentIndex.Json.Printer
import ContentIndex.Json.Record
import ContentIndex.Json.Token
import ContentIndex.Json.Tree
import ContentIndex.Json.Value
import ContentIndex.Metrics
import ContentIndex.Number.Double
import ContentIndex.Number.Integer
import ContentIndex.Number.Reading
import ContentIndex.Number.Rounding
import ContentIndex.Number.Shortest
import ContentIndex.Number.Single
import ContentIndex.Program
import ContentIndex.Progress.Cursor
import ContentIndex.Progress.Ledger
import ContentIndex.Progress.RunId
import ContentIndex.Progress.State
import ContentIndex.Progress.Store
import ContentIndex.Query.Clause
import ContentIndex.Query.Compiled
import ContentIndex.Query.Compiler
import ContentIndex.Query.Date
import ContentIndex.Query.Meta
import ContentIndex.Query.Request
import ContentIndex.Query.Results
import ContentIndex.Query.Scalar
import ContentIndex.Query.Taxonomy
import ContentIndex.Query.Vocabulary
import ContentIndex.Query.Wire
import ContentIndex.Resilience.Breaker
import ContentIndex.Resilience.Pause
import ContentIndex.Resilience.Retry
import ContentIndex.SortedMap
import ContentIndex.Sync.Capture
import ContentIndex.Sync.Queue
import ContentIndex.Sync.Session
import ContentIndex.Text.Ascii
import ContentIndex.Text.Base64
import ContentIndex.Text.Blank
import ContentIndex.Text.Hidden
import ContentIndex.Text.Quoted
import ContentIndex.Proofs.Bulk.Acceptance
import ContentIndex.Proofs.Bulk.Account
import ContentIndex.Proofs.Bulk.Batches
import ContentIndex.Proofs.Bulk.Delivery
import ContentIndex.Proofs.Bulk.Flush
import ContentIndex.Proofs.Bulk.Framing
import ContentIndex.Proofs.Bulk.Items
import ContentIndex.Proofs.Bulk.Measured
import ContentIndex.Proofs.Bulk.Retries
import ContentIndex.Proofs.Bulk.SingleWrite
import ContentIndex.Proofs.Bulk.Tally
import ContentIndex.Proofs.Calendar.Counting
import ContentIndex.Proofs.Calendar.Expressions
import ContentIndex.Proofs.Calendar.ReadBack
import ContentIndex.Proofs.Calendar.Rereading
import ContentIndex.Proofs.Calendar.Shifting
import ContentIndex.Proofs.Calendar.Timestamp
import ContentIndex.Proofs.Document.Formats
import ContentIndex.Proofs.Document.Integers
import ContentIndex.Proofs.Document.Projection
import ContentIndex.Proofs.Document.ReadBack
import ContentIndex.Proofs.Engine.Failover
import ContentIndex.Proofs.Engine.Headers
import ContentIndex.Proofs.Engine.Indices
import ContentIndex.Proofs.Engine.Skipping
import ContentIndex.Proofs.Indexer.Calls
import ContentIndex.Proofs.Indexer.Conservation
import ContentIndex.Proofs.Indexer.FailureRecords
import ContentIndex.Proofs.Indexer.Footprint
import ContentIndex.Proofs.Indexer.StateRecord
import ContentIndex.Proofs.Indexer.Success
import ContentIndex.Proofs.Indexer.Trace
import ContentIndex.Proofs.Indexer.Traffic
import ContentIndex.Proofs.Json.Canonical
import ContentIndex.Proofs.Json.Lines
import ContentIndex.Proofs.Json.ReadBack
import ContentIndex.Proofs.Json.Records
import ContentIndex.Proofs.Ledger.Custody
import ContentIndex.Proofs.Ledger.Failures
import ContentIndex.Proofs.Ledger.History
import ContentIndex.Proofs.Ledger.PageFailures
import ContentIndex.Proofs.Ledger.ScopeReports
import ContentIndex.Proofs.Ledger.StepWork
import ContentIndex.Proofs.Ledger.Updates
import ContentIndex.Proofs.Metrics.Registry
import ContentIndex.Proofs.Number.Accuracy
import ContentIndex.Proofs.Number.Digits
import ContentIndex.Proofs.Number.LargeIntegers
import ContentIndex.Proofs.Program.Execution
import ContentIndex.Proofs.Progress.LedgerRecord
import ContentIndex.Proofs.Progress.Persistence
import ContentIndex.Proofs.Progress.ReadBack
import ContentIndex.Proofs.Query.Callers
import ContentIndex.Proofs.Query.Clock
import ContentIndex.Proofs.Query.Complements
import ContentIndex.Proofs.Query.DateColumns
import ContentIndex.Proofs.Query.DateEntries
import ContentIndex.Proofs.Query.DateTree
import ContentIndex.Proofs.Query.Grammar
import ContentIndex.Proofs.Query.IdLists
import ContentIndex.Proofs.Query.Influence
import ContentIndex.Proofs.Query.Matching
import ContentIndex.Proofs.Query.Membership
import ContentIndex.Proofs.Query.MetaTree
import ContentIndex.Proofs.Query.MimePrefixes
import ContentIndex.Proofs.Query.Nesting
import ContentIndex.Proofs.Query.Paging
import ContentIndex.Proofs.Query.Periods
import ContentIndex.Proofs.Query.ReadBack
import ContentIndex.Proofs.Query.Spellings
import ContentIndex.Proofs.Query.Taxonomies
import ContentIndex.Proofs.Query.BodyReadBack
import ContentIndex.Proofs.Query.Walk
import ContentIndex.Proofs.Rebuild.Cancel
import ContentIndex.Proofs.Rebuild.Coverage
import ContentIndex.Proofs.Rebuild.Drive
import ContentIndex.Proofs.Rebuild.Failing
import ContentIndex.Proofs.Rebuild.Fencing
import ContentIndex.Proofs.Rebuild.Filling
import ContentIndex.Proofs.Rebuild.Handover
import ContentIndex.Proofs.Rebuild.Heed
import ContentIndex.Proofs.Rebuild.Host
import ContentIndex.Proofs.Rebuild.Pages
import ContentIndex.Proofs.Rebuild.Recreate
import ContentIndex.Proofs.Rebuild.Sections
import ContentIndex.Proofs.Rebuild.Shifting
import ContentIndex.Proofs.Rebuild.Step
import ContentIndex.Proofs.Rebuild.Stepwise
import ContentIndex.Proofs.Rebuild.Tasks
import ContentIndex.Proofs.Resilience.Budget
import ContentIndex.Proofs.Resilience.Isolation
import ContentIndex.Proofs.Resilience.Pacing
import ContentIndex.Proofs.Search.Gate
import ContentIndex.Proofs.Search.Outcomes
import ContentIndex.Proofs.Search.ReadsOff
import ContentIndex.Proofs.Search.Rebuilding
import ContentIndex.Proofs.Sync.Finish
import ContentIndex.Proofs.Sync.QueueHistory
import ContentIndex.Proofs.Sync.Recording
