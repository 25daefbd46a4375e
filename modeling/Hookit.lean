import Hookit.Foundations.Machine
import Hookit.Foundations.Table
import Hookit.Foundations.Isolation
import Hookit.Foundations.Once
import Hookit.Foundations.Raise
import Hookit.Foundations.Lists
import Hookit.Foundations.Text
import Hookit.Foundations.Numeral
import Hookit.Foundations.Uuid
import Hookit.Foundations.Double
import Hookit.Foundations.Decimal
import Hookit.Foundations.Datetime
import Hookit.Foundations.Bytes
import Hookit.Foundations.Base64
import Hookit.Foundations.Keyset
import Hookit.Foundations.Newest
import Hookit.Foundations.Rows
import Hookit.Foundations.Json
import Hookit.Foundations.Jsonb
import Hookit.Foundations.FloatText
import Hookit.Foundations.Readable
import Hookit.Foundations.SortedKeys
import Hookit.Services.Ssrf
import Hookit.Services.Literals
import Hookit.Services.Watchdog
import Hookit.Services.FlyMachines
import Hookit.Worker.Backoff
import Hookit.Worker.Process
import Hookit.Worker.Batch
import Hookit.Services.FastForward
import Hookit.Worker.Signing
import Hookit.Worker.Verdict
import Hookit.Services.Transform
import Hookit.Services.Discord
import Hookit.Services.Inbox
import Hookit.Services.LiveTail
import Hookit.Receivers.Envelope
import Hookit.Engine.Machine
import Hookit.Engine.Moves
import Hookit.Engine.Lifecycle
import Hookit.Engine.Invariant
import Hookit.Engine.Journal
import Hookit.Engine.Posts
import Hookit.Engine.Finality
import Hookit.Engine.Attempts
import Hookit.Engine.Leases
import Hookit.Engine.Waiting
import Hookit.Bank.Safe
import Hookit.Bank.Convergence
import Hookit.Bank.Machine
import Hookit.Bank.Serial
import Hookit.Bank.Receiver
import Hookit.Showcase.System
import Hookit.Showcase.ExactlyOnce
import Hookit.Ingestion.Machine
import Hookit.Ingestion.Invariant
import Hookit.Ingestion.Idempotency
import Hookit.Ingestion.BodyHash
import Hookit.Worker.Wakeup
import Hookit.Database
import Hookit.Routers.Pagination
import Hookit.Routers.Listing
import Hookit.Ledger.Trade
import Hookit.Ledger.Banks
import Hookit.Ledger.Sequential
import Hookit.Ledger.Convergence
import Hookit.Ledger.Meter
import Hookit.Ledger.Log
import Hookit.Ledger.Agreement
import Hookit.Ledger.Spelling
import Hookit.Ledger.Drift
import Hookit.Ledger.Stale
import Hookit.Receivers.Routes
import Hookit.Receivers.Documented
import Hookit.Showcase.Seeding
import Hookit.Showcase.Seeded
import Hookit.Showcase.Markers
import Hookit.Showcase.Handles
import Hookit.Showcase.Reseeding
import Hookit.Producer.Prices
import Hookit.Producer.Trades
import Hookit.Producer.Stream
import Hookit.Services.Metrics
import Hookit.Routers.Api
import Hookit.Tenancy.Store
import Hookit.Worker.Tick
import Hookit.Foundations.Totals
import Hookit.Foundations.Budget
import Hookit.Tenancy.Tick
import Hookit.Tenancy.Routes
import Hookit.Tenancy.Service
import Hookit.Tenancy.Isolation
import Hookit.Worker.Drain
import Hookit.Tenancy.Moves
import Hookit.Tenancy.Progress
import Hookit.Tenancy.Attempts
import Hookit.Foundations.Records
import Hookit.Tenancy.Keys
import Hookit.Tenancy.Persistence
import Hookit.Benchmark.Runner
import Hookit.Tenancy.Fanout
import Hookit.Foundations.Tally
import Hookit.Routers.Showcase
import Hookit.Tenancy.Visitors
import Hookit.Tenancy.Timeline
import Hookit.Tenancy.Secrets
