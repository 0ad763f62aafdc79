import ClientSession.Activity
import ClientSession.Bounds
import ClientSession.Bytes.Base64
import ClientSession.Bytes.Sha256
import ClientSession.Bytes.Utf8
import ClientSession.Client.Calls
import ClientSession.Client.Lifecycle
import ClientSession.Client.State
import ClientSession.Client.Supervision
import ClientSession.Client.Validation
import ClientSession.Config
import ClientSession.Decimal.Shortest
import ClientSession.Device
import ClientSession.Failure.ApiError
import ClientSession.Failure.Kind
import ClientSession.Http.Base
import ClientSession.Http.Message
import ClientSession.Http.RetryAfter
import ClientSession.Http.Route
import ClientSession.Http.SecurityHeaders
import ClientSession.Json.Decoder
import ClientSession.Json.Issue
import ClientSession.Json.Printer
import ClientSession.Json.Reader
import ClientSession.Json.Scan
import ClientSession.Json.Value
import ClientSession.Limit.Bucket
import ClientSession.Limit.Limiter
import ClientSession.Notice
import ClientSession.Retry
import ClientSession.Session.Tabs
import ClientSession.Simulation.Play
import ClientSession.Simulation.World
import ClientSession.Storage.Backend
import ClientSession.Storage.Disk
import ClientSession.Storage.Path
import ClientSession.Storage.Snapshot
import ClientSession.Storage.Vault
import ClientSession.Table
import ClientSession.Tally
import ClientSession.Telemetry.Batcher
import ClientSession.Telemetry.Event
import ClientSession.Text.Basic
import ClientSession.Text.CodeTable
import ClientSession.Text.CombiningClass
import ClientSession.Text.Composition
import ClientSession.Text.Marks
import ClientSession.Text.Quoted
import ClientSession.Text.Unprintable
import ClientSession.Time.Calendar
import ClientSession.Time.Instant
import ClientSession.Time.Rfc2822
import ClientSession.Time.Rfc3339
import ClientSession.Time.Span
import ClientSession.Token.Bearer
import ClientSession.Token.Claims
import ClientSession.Turn
import ClientSession.Url.Basic
import ClientSession.Url.Domain
import ClientSession.Url.Domain.Direction
import ClientSession.Url.Domain.Folding
import ClientSession.Url.Domain.Joining
import ClientSession.Url.Host
import ClientSession.Url.Parse
import ClientSession.Url.Percent
import ClientSession.Url.Punycode
import ClientSession.Proofs.Session.Slots
import ClientSession.Proofs.Stretches
import ClientSession.Proofs.Session.Fading
import ClientSession.Proofs.Session.Recollection
import ClientSession.Proofs.Course
import ClientSession.Proofs.Client.Asides
import ClientSession.Proofs.Telemetry.Attribution
import ClientSession.Proofs.Client.Calls
import ClientSession.Proofs.Client.Renewal
import ClientSession.Proofs.Client.Passes
import ClientSession.Proofs.Client.Operations
import ClientSession.Proofs.Client.Laws
import ClientSession.Proofs.Client.SignOut
import ClientSession.Proofs.Client.AtRest
import ClientSession.Proofs.Storage.Sealing
import ClientSession.Proofs.Storage.Unsealing
import ClientSession.Proofs.Storage.Keeping
import ClientSession.Proofs.Text.Numerals
import ClientSession.Proofs.Client.Timeout
import ClientSession.Proofs.Session.Hearing
import ClientSession.Proofs.Client.Elsewhere
import ClientSession.Proofs.Tabs.Visits
import ClientSession.Proofs.Tabs.Faithful
import ClientSession.Proofs.Tabs.Pairing
import ClientSession.Proofs.Tabs.Overdue
import ClientSession.Proofs.Client.Expulsion
import ClientSession.Proofs.Tabs.Transparency
import ClientSession.Proofs.Limit.Refill
import ClientSession.Proofs.Limit.Windows
import ClientSession.Proofs.Limit.Uses
import ClientSession.Proofs.Limit.Calls
import ClientSession.Proofs.Flights
import ClientSession.Proofs.Limit.Metering
import ClientSession.Proofs.Limit.Reconfiguration
import ClientSession.Proofs.Limit.Told
import ClientSession.Proofs.Limit.Alike
import ClientSession.Proofs.Limit.SideBySide
import ClientSession.Proofs.Limit.Separation
import ClientSession.Proofs.Limit.Looking
import ClientSession.Proofs.Client.Thrift
import ClientSession.Proofs.Client.Throttle
import ClientSession.Proofs.Client.Admission
import ClientSession.Proofs.Client.Throughput
import ClientSession.Proofs.Client.Configured
import ClientSession.Proofs.Tabs.Departure
import ClientSession.Proofs.Tabs.Gathering
import ClientSession.Proofs.Text.Splitting
import ClientSession.Proofs.Url.Folding
import ClientSession.Proofs.Url.Hosts
import ClientSession.Proofs.Url.Punycode
import ClientSession.Proofs.Url.Rereading
import ClientSession.Proofs.Url.Segments
import ClientSession.Proofs.Http.Bases
import ClientSession.Proofs.Http.Containment
import ClientSession.Proofs.Http.Routing
import ClientSession.Proofs.Http.Stamps
import ClientSession.Proofs.Configuration
import ClientSession.Proofs.Telemetry.Ledger
import ClientSession.Proofs.Telemetry.Callers
import ClientSession.Proofs.Telemetry.Custody
import ClientSession.Proofs.Client.Credentials
import ClientSession.Proofs.Client.Vouching
import ClientSession.Proofs.Aftermath
import ClientSession.Proofs.Telemetry.Requests
import ClientSession.Proofs.Telemetry.Stream
import ClientSession.Proofs.Telemetry.Dispatches
import ClientSession.Proofs.Telemetry.Clearing
import ClientSession.Proofs.Telemetry.Timers
import ClientSession.Proofs.Telemetry.Deferral
import ClientSession.Proofs.Headcount
import ClientSession.Proofs.Client.Turns
import ClientSession.Proofs.Client.Refreshing
import ClientSession.Proofs.Client.InTurn
import ClientSession.Proofs.Client.Singleflight
import ClientSession.Proofs.Client.Verdicts
import ClientSession.Proofs.Client.Desk
import ClientSession.Proofs.Client.Tickets
import ClientSession.Proofs.Client.Trials
import ClientSession.Proofs.Tabs.Farewells
import ClientSession.Proofs.Client.Fortunes
import ClientSession.Proofs.Client.Abandoned
import ClientSession.Proofs.Client.FreshTokens
import ClientSession.Proofs.Tables
import ClientSession.Proofs.Json.Quoting
import ClientSession.Proofs.Json.Beginnings
import ClientSession.Proofs.Storage.Documents
import ClientSession.Proofs.Storage.Savings
import ClientSession.Proofs.Storage.Openings
import ClientSession.Proofs.Storage.Durability
import ClientSession.Proofs.Storage.Crashes
import ClientSession.Proofs.Client.Arming
import ClientSession.Proofs.Client.Deadlines
import ClientSession.Proofs.Session.Setbacks
import ClientSession.Proofs.Tabs.Ordeals
import ClientSession.Proofs.Tabs.Lingering
import ClientSession.Proofs.Tabs.Mixtures
import ClientSession.Proofs.Json.Ranges
import ClientSession.Proofs.Tabs.Totality
import ClientSession.Proofs.Limit.Strain
import ClientSession.Proofs.Limit.Hints
import ClientSession.Proofs.Limit.Recovery
import ClientSession.Proofs.Telemetry.Overrun
import ClientSession.Proofs.Client.Counters
import ClientSession.Proofs.Client.Announcements
import ClientSession.Proofs.Erasure
import ClientSession.Proofs.Telemetry.Journal
import ClientSession.Proofs.Telemetry.Discretion
import ClientSession.Proofs.Holdings
import ClientSession.Proofs.Client.Logbook
import ClientSession.Proofs.Client.Accounting
import ClientSession.Proofs.Telemetry.Repetitions
import ClientSession.Proofs.Tabs.Sightings
import ClientSession.Proofs.Tabs.Strangers
import ClientSession.Proofs.Json.Reading
import ClientSession.Proofs.Time.Stamps
import ClientSession.Proofs.Telemetry.Wire
import ClientSession.Proofs.Telemetry.Failures
import ClientSession.Proofs.Client.Attempts
import ClientSession.Proofs.Failure.Messages
import ClientSession.Proofs.Client.Delays
import ClientSession.Proofs.Failure.Notices
import ClientSession.Proofs.Tabs.Remaining
import ClientSession.Proofs.Client.Refusals
import ClientSession.Proofs.Http.NormalForms
import ClientSession.Proofs.Tabs.Clearance
import ClientSession.Proofs.Telemetry.Overtaking
import ClientSession.Proofs.Json.Grammar
import ClientSession.Proofs.Json.Spelling
import ClientSession.Proofs.Token.Expiry
