import Serving.Agenda
import Serving.Balancer.Algorithm
import Serving.Balancer.Basic
import Serving.Balancer.Config
import Serving.Balancer.Probe
import Serving.Batch.Batcher
import Serving.Batch.Config
import Serving.Batch.Fire
import Serving.Batch.Processor
import Serving.Batch.Request
import Serving.Breaker
import Serving.Cache.Computation
import Serving.Cache.Config
import Serving.Cache.Key
import Serving.Cache.Manager
import Serving.Cache.Memory
import Serving.Cache.Remote.Connection
import Serving.Cache.Remote.Glob
import Serving.Cache.Remote.Server
import Serving.Cache.Remote.Store
import Serving.Cache.Store
import Serving.Database
import Serving.Decimal.Binary
import Serving.Decimal.Reader
import Serving.Decimal.Shortest
import Serving.Decimal.Text
import Serving.Digest.Sha256
import Serving.Duration.Printer
import Serving.Duration.Reader
import Serving.Error
import Serving.Gateway.Basic
import Serving.Gateway.Batches
import Serving.Gateway.Clock
import Serving.Gateway.Lifecycle
import Serving.Gateway.Request
import Serving.Gateway.Upkeep
import Serving.Gateway.Work
import Serving.Handler
import Serving.Instance
import Serving.Json.Basic
import Serving.Json.Edit
import Serving.Json.Number
import Serving.Json.Parser
import Serving.Json.Pointer
import Serving.Json.Printer
import Serving.LogFilter
import Serving.Priority
import Serving.Proofs.Balancer.Breakers
import Serving.Proofs.Balancer.Eligibility
import Serving.Proofs.Balancer.Figures
import Serving.Proofs.Balancer.History
import Serving.Proofs.Balancer.Loads
import Serving.Proofs.Balancer.Order
import Serving.Proofs.Balancer.Selection
import Serving.Proofs.Balancer.Tables
import Serving.Proofs.Balancer.Turns
import Serving.Proofs.Batcher.Absence
import Serving.Proofs.Batcher.Answers
import Serving.Proofs.Batcher.Bounds
import Serving.Proofs.Batcher.Conservation
import Serving.Proofs.Batcher.Dispatch
import Serving.Proofs.Batcher.Division
import Serving.Proofs.Batcher.Drain
import Serving.Proofs.Batcher.Firing
import Serving.Proofs.Batcher.History
import Serving.Proofs.Batcher.Independence
import Serving.Proofs.Batcher.Models
import Serving.Proofs.Batcher.Operations
import Serving.Proofs.Batcher.Order
import Serving.Proofs.Batcher.Shutdown
import Serving.Proofs.Batcher.Wakeup
import Serving.Proofs.Breaker.History
import Serving.Proofs.Cache.Absorption
import Serving.Proofs.Cache.Computing
import Serving.Proofs.Cache.Contents
import Serving.Proofs.Cache.Counters
import Serving.Proofs.Cache.Deletion
import Serving.Proofs.Cache.History
import Serving.Proofs.Cache.Identity
import Serving.Proofs.Cache.Interference
import Serving.Proofs.Cache.Invalidation
import Serving.Proofs.Cache.Keys
import Serving.Proofs.Cache.Ledger
import Serving.Proofs.Cache.Noting
import Serving.Proofs.Cache.Overlap
import Serving.Proofs.Cache.Partitions
import Serving.Proofs.Cache.Presence
import Serving.Proofs.Cache.Promotion
import Serving.Proofs.Cache.Removal
import Serving.Proofs.Cache.Renewal
import Serving.Proofs.Cache.RoundTrip
import Serving.Proofs.Cache.Separation
import Serving.Proofs.Cache.Sharing
import Serving.Proofs.Cache.Staleness
import Serving.Proofs.Cache.Stores
import Serving.Proofs.Cache.Views
import Serving.Proofs.Connection.Attempts
import Serving.Proofs.Connection.History
import Serving.Proofs.Decimal.Shortest
import Serving.Proofs.Decimal.Text
import Serving.Proofs.FloatOrder
import Serving.Proofs.Gateway.Absorption
import Serving.Proofs.Gateway.Blame
import Serving.Proofs.Gateway.Bootstrap
import Serving.Proofs.Gateway.Course
import Serving.Proofs.Gateway.Footing
import Serving.Proofs.Gateway.History
import Serving.Proofs.Gateway.Listening
import Serving.Proofs.Gateway.Provenance
import Serving.Proofs.Gateway.Reliance
import Serving.Proofs.Interference
import Serving.Proofs.Json.Content
import Serving.Proofs.Json.Nesting
import Serving.Proofs.Json.Reading
import Serving.Proofs.Json.Text
import Serving.Proofs.Memory.Accounting
import Serving.Proofs.Memory.History
import Serving.Proofs.Memory.Holding
import Serving.Proofs.Memory.Inclusion
import Serving.Proofs.Memory.Retention
import Serving.Proofs.Numbered
import Serving.Proofs.Processor.Accounts
import Serving.Proofs.Processor.Answers
import Serving.Proofs.Processor.Connections
import Serving.Proofs.Processor.History
import Serving.Proofs.Processor.Permits
import Serving.Proofs.Remote.Answers
import Serving.Proofs.Remote.Equivalence
import Serving.Proofs.Remote.Listing
import Serving.Proofs.Remote.Ownership
import Serving.Proofs.Remote.Patterns
import Serving.Proofs.Remote.Reflection
import Serving.Proofs.Routine
import Serving.Proofs.Scaling.Bounds
import Serving.Proofs.Scaling.Capacity
import Serving.Proofs.Scaling.Configuration
import Serving.Proofs.Scaling.Cooldowns
import Serving.Proofs.Scaling.Delays
import Serving.Proofs.Scaling.Evaluation
import Serving.Proofs.Scaling.Filling
import Serving.Proofs.Scaling.History
import Serving.Proofs.Scaling.Lifecycle
import Serving.Proofs.Scaling.Overlap
import Serving.Proofs.Scaling.Previews
import Serving.Proofs.Scaling.Reports
import Serving.Proofs.Scaling.Roster
import Serving.Proofs.Scaling.Turns
import Serving.Proofs.Scaling.Windows
import Serving.Proofs.Settings.Feed
import Serving.Proofs.Settings.History
import Serving.Proofs.Settings.Overlap
import Serving.Proofs.Settings.Reloads
import Serving.Proofs.Settings.Validity
import Serving.Proofs.Table
import Serving.Rehearsal.Parties
import Serving.Rehearsal.Store
import Serving.Routine
import Serving.Scaling.Decision
import Serving.Scaling.Policy
import Serving.Scaling.Scaler
import Serving.Settings.Basic
import Serving.Settings.Document
import Serving.Settings.Feed
import Serving.Settings.Manager
import Serving.Settings.Overrides
import Serving.SocketAddress
import Serving.Sorted
import Serving.Source
import Serving.Table
import Serving.Telemetry.Config
import Serving.Telemetry.Sla
import Serving.Text.Blank
import Serving.Text.Whole
import Serving.Time
import Serving.Timestamp
import Serving.Yaml.Basic
import Serving.Yaml.Number
import Serving.Yaml.Reader
import Serving.Yaml.Scalar
