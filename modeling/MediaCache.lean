import MediaCache.Client.Replay
import MediaCache.Client.Service
import MediaCache.Client.Transport
import MediaCache.CommandLine.Arguments
import MediaCache.CommandLine.Help
import MediaCache.CommandLine.Run
import MediaCache.Config.Endpoint
import MediaCache.Config.Layers
import MediaCache.Config.Merge
import MediaCache.Config.Redaction
import MediaCache.Config.Settings
import MediaCache.Config.Sha256
import MediaCache.Config.Stored
import MediaCache.Config.Toml.Document
import MediaCache.Config.Toml.Quoted
import MediaCache.Config.Toml.Scalar
import MediaCache.Config.Toml.Table
import MediaCache.Data.Assoc
import MediaCache.Data.SortedMap
import MediaCache.Json.Basic
import MediaCache.Json.Canonical
import MediaCache.Json.Decode
import MediaCache.Json.Number
import MediaCache.Json.Printer
import MediaCache.Json.Token
import MediaCache.Json.Written
import MediaCache.Main
import MediaCache.Number.Decimal
import MediaCache.Number.Double
import MediaCache.Proofs.Client.CacheFirst
import MediaCache.Proofs.Client.Checkpoint
import MediaCache.Proofs.Client.KeptFresh
import MediaCache.Proofs.Client.Refresh
import MediaCache.Proofs.Client.Replay
import MediaCache.Proofs.Config.Endpoint
import MediaCache.Proofs.Config.Merge
import MediaCache.Proofs.Config.Precedence
import MediaCache.Proofs.Config.Redaction
import MediaCache.Proofs.Config.Url
import MediaCache.Proofs.Data.Merged
import MediaCache.Proofs.Data.SortedMap
import MediaCache.Proofs.Json.Canonical
import MediaCache.Proofs.Json.Numbers
import MediaCache.Proofs.Json.Parts
import MediaCache.Proofs.Json.Places
import MediaCache.Proofs.Json.Read
import MediaCache.Proofs.Json.Sorted
import MediaCache.Proofs.Json.Text
import MediaCache.Proofs.Json.Written
import MediaCache.Proofs.Number.Decimal
import MediaCache.Proofs.Number.Double
import MediaCache.Proofs.Number.Whole
import MediaCache.Proofs.Schema.Codec
import MediaCache.Proofs.Store.Census
import MediaCache.Proofs.Store.Collect
import MediaCache.Proofs.Store.CollectedReads
import MediaCache.Proofs.Store.Copied
import MediaCache.Proofs.Store.FieldName
import MediaCache.Proofs.Store.Growth
import MediaCache.Proofs.Store.Index
import MediaCache.Proofs.Store.Normalize
import MediaCache.Proofs.Store.Objects
import MediaCache.Proofs.Store.Positions
import MediaCache.Proofs.Store.Prune
import MediaCache.Proofs.Store.Read
import MediaCache.Proofs.Store.ReadBack
import MediaCache.Proofs.Store.ReadRows
import MediaCache.Proofs.Store.Reference
import MediaCache.Proofs.Store.Rereads
import MediaCache.Proofs.Store.Restore
import MediaCache.Proofs.Store.Rewrite
import MediaCache.Proofs.Store.RootEntries
import MediaCache.Proofs.Store.Rows
import MediaCache.Proofs.Store.Runs
import MediaCache.Proofs.Store.Snapshot
import MediaCache.Proofs.Store.SnapshotText
import MediaCache.Proofs.Store.Stored
import MediaCache.Proofs.Store.Union
import MediaCache.Proofs.Update.AssignedFile
import MediaCache.Proofs.Update.Clock
import MediaCache.Proofs.Update.Conservation
import MediaCache.Proofs.Update.Counter
import MediaCache.Proofs.Update.Counts
import MediaCache.Proofs.Update.Created
import MediaCache.Proofs.Update.Destroyed
import MediaCache.Proofs.Update.Dropdowns
import MediaCache.Proofs.Update.Ended
import MediaCache.Proofs.Update.Evicted
import MediaCache.Proofs.Update.EvictedReads
import MediaCache.Proofs.Update.Eviction
import MediaCache.Proofs.Update.Freshness
import MediaCache.Proofs.Update.Invalidation
import MediaCache.Proofs.Update.OneCopy
import MediaCache.Proofs.Update.Order
import MediaCache.Proofs.Update.Planned
import MediaCache.Proofs.Update.PlayCounts
import MediaCache.Proofs.Update.Resolutions
import MediaCache.Proofs.Update.Resolved
import MediaCache.Proofs.Update.Responses
import MediaCache.Proofs.Update.Results
import MediaCache.Proofs.Update.Returned
import MediaCache.Proofs.Update.Runs
import MediaCache.Proofs.Update.Snapshots
import MediaCache.Proofs.Update.Spared
import MediaCache.Proofs.Update.Statistics
import MediaCache.Proofs.Update.Storable
import MediaCache.Proofs.Update.Stored
import MediaCache.Proofs.Update.Tables
import MediaCache.Proofs.Update.Tally
import MediaCache.Proofs.Update.TypeFields
import MediaCache.Proofs.Update.Unattributed
import MediaCache.Proofs.Update.Visits
import MediaCache.Schema.Document
import MediaCache.Schema.Event
import MediaCache.Schema.Family
import MediaCache.Schema.Mutation
import MediaCache.Schema.Named
import MediaCache.Schema.Typename
import MediaCache.Store.Cache
import MediaCache.Store.Change
import MediaCache.Store.Collect
import MediaCache.Store.FieldName
import MediaCache.Store.Policy
import MediaCache.Store.Read
import MediaCache.Store.Reference
import MediaCache.Store.Shape
import MediaCache.Store.Snapshot
import MediaCache.Text.Blank
import MediaCache.Text.File
import MediaCache.Text.Hidden
import MediaCache.Text.Lines
import MediaCache.Text.Quoted
import MediaCache.Time.Calendar
import MediaCache.Time.Instant
import MediaCache.Update.Counter
import MediaCache.Update.Eviction
import MediaCache.Update.Impact
import MediaCache.Update.Overflow
import MediaCache.Update.Plan
import MediaCache.Update.TypeFields
