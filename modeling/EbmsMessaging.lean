import EbmsMessaging.Acknowledgement
import EbmsMessaging.BinaryDouble
import EbmsMessaging.Correlation.Retention
import EbmsMessaging.Correlation.Sweeper
import EbmsMessaging.Correlation.Table
import EbmsMessaging.Correlation.Waiting
import EbmsMessaging.Correlation.WaitingRoom
import EbmsMessaging.Duration
import EbmsMessaging.Envelope.Agreement
import EbmsMessaging.Envelope.Basic
import EbmsMessaging.Envelope.Draws
import EbmsMessaging.Envelope.Identifiers
import EbmsMessaging.Envelope.Reading
import EbmsMessaging.Envelope.Writing
import EbmsMessaging.Exchange.Failure
import EbmsMessaging.Exchange.Gateway
import EbmsMessaging.Exchange.OpenExchange
import EbmsMessaging.Exchange.Settings
import EbmsMessaging.Exchange.Stage
import EbmsMessaging.Exchange.Transport
import EbmsMessaging.Fault
import EbmsMessaging.Identifier
import EbmsMessaging.Json.Fault
import EbmsMessaging.Json.Lexical
import EbmsMessaging.Json.Number
import EbmsMessaging.Json.Quoted
import EbmsMessaging.Json.Reader
import EbmsMessaging.Json.Skip
import EbmsMessaging.Json.Writer
import EbmsMessaging.Message
import EbmsMessaging.Multipart.Basic
import EbmsMessaging.Multipart.Indexed
import EbmsMessaging.Multipart.Reader
import EbmsMessaging.Proofs.Correlation.Ages
import EbmsMessaging.Proofs.Correlation.Balance
import EbmsMessaging.Proofs.Correlation.Covering
import EbmsMessaging.Proofs.Correlation.Deadlines
import EbmsMessaging.Proofs.Correlation.Delivery
import EbmsMessaging.Proofs.Correlation.Detachment
import EbmsMessaging.Proofs.Correlation.Evolution
import EbmsMessaging.Proofs.Correlation.Hosting
import EbmsMessaging.Proofs.Correlation.Independence
import EbmsMessaging.Proofs.Correlation.Leftovers
import EbmsMessaging.Proofs.Correlation.Lines
import EbmsMessaging.Proofs.Correlation.Moves
import EbmsMessaging.Proofs.Correlation.Numbering
import EbmsMessaging.Proofs.Correlation.Offers
import EbmsMessaging.Proofs.Correlation.Orderly
import EbmsMessaging.Proofs.Correlation.OtherKeys
import EbmsMessaging.Proofs.Correlation.Settling
import EbmsMessaging.Proofs.Correlation.Sleepers
import EbmsMessaging.Proofs.Correlation.Statistics
import EbmsMessaging.Proofs.Correlation.Sweeps
import EbmsMessaging.Proofs.Correlation.Tracing
import EbmsMessaging.Proofs.Correlation.Unnoticed
import EbmsMessaging.Proofs.Envelope.Acceptance
import EbmsMessaging.Proofs.Envelope.Attachments
import EbmsMessaging.Proofs.Envelope.Business
import EbmsMessaging.Proofs.Envelope.Faults
import EbmsMessaging.Proofs.Envelope.PropertyNames
import EbmsMessaging.Proofs.Envelope.Rewriting
import EbmsMessaging.Proofs.Envelope.Untyped
import EbmsMessaging.Proofs.Envelope.Wire
import EbmsMessaging.Proofs.Identifier
import EbmsMessaging.Proofs.Json.Numeral
import EbmsMessaging.Proofs.Json.Quoted
import EbmsMessaging.Proofs.Json.RoundTrip
import EbmsMessaging.Proofs.Message
import EbmsMessaging.Proofs.Message.Drafting
import EbmsMessaging.Proofs.Multipart.Acknowledgements
import EbmsMessaging.Proofs.Multipart.Delivery
import EbmsMessaging.Proofs.Multipart.Grammar
import EbmsMessaging.Proofs.Multipart.Indexed
import EbmsMessaging.Proofs.Multipart.RoundTrip
import EbmsMessaging.Proofs.Outcome
import EbmsMessaging.Proofs.Properties
import EbmsMessaging.Proofs.Properties.Insertion
import EbmsMessaging.Proofs.Scheduler
import EbmsMessaging.Proofs.Scheduler.Overlooked
import EbmsMessaging.Proofs.Scheduler.Shows
import EbmsMessaging.Proofs.Scheduler.Turns
import EbmsMessaging.Proofs.Service.Arrivals
import EbmsMessaging.Proofs.Service.Bystanders
import EbmsMessaging.Proofs.Service.ClosedLoop
import EbmsMessaging.Proofs.Service.Continuity
import EbmsMessaging.Proofs.Service.Counting
import EbmsMessaging.Proofs.Service.Course
import EbmsMessaging.Proofs.Service.Deeds
import EbmsMessaging.Proofs.Service.Departure
import EbmsMessaging.Proofs.Service.Dispatches
import EbmsMessaging.Proofs.Service.Exchanges
import EbmsMessaging.Proofs.Service.FanOut
import EbmsMessaging.Proofs.Service.Freshness
import EbmsMessaging.Proofs.Service.Inbox
import EbmsMessaging.Proofs.Service.Mailbox
import EbmsMessaging.Proofs.Service.OnCourse
import EbmsMessaging.Proofs.Service.Phases
import EbmsMessaging.Proofs.Service.Reckoning
import EbmsMessaging.Proofs.Service.Refusals
import EbmsMessaging.Proofs.Service.Seating
import EbmsMessaging.Proofs.Service.Senders
import EbmsMessaging.Proofs.Service.Strays
import EbmsMessaging.Proofs.Service.Sweepers
import EbmsMessaging.Proofs.Service.Tasks
import EbmsMessaging.Proofs.Service.Trace
import EbmsMessaging.Proofs.Service.Upkeep
import EbmsMessaging.Proofs.Service.Vigil
import EbmsMessaging.Proofs.Service.Watching
import EbmsMessaging.Proofs.Text.Cut
import EbmsMessaging.Proofs.Text.Utf8
import EbmsMessaging.Proofs.Timestamp
import EbmsMessaging.Proofs.Uuid
import EbmsMessaging.Properties
import EbmsMessaging.Route
import EbmsMessaging.Scheduler
import EbmsMessaging.Schema
import EbmsMessaging.Service.Basic
import EbmsMessaging.Service.Handlers
import EbmsMessaging.Service.Intake
import EbmsMessaging.Service.State
import EbmsMessaging.Service.Task
import EbmsMessaging.Task
import EbmsMessaging.Telemetry.LogFilter
import EbmsMessaging.Telemetry.Metrics
import EbmsMessaging.Telemetry.Pattern.Basic
import EbmsMessaging.Telemetry.Pattern.Bracket
import EbmsMessaging.Telemetry.Pattern.Reader
import EbmsMessaging.Telemetry.Settings
import EbmsMessaging.Telemetry.Tally
import EbmsMessaging.Text.Alphanumeric
import EbmsMessaging.Text.Base64
import EbmsMessaging.Text.Blank
import EbmsMessaging.Text.Digits
import EbmsMessaging.Text.Hidden
import EbmsMessaging.Text.Literal
import EbmsMessaging.Text.Split
import EbmsMessaging.Text.Utf8
import EbmsMessaging.Text.Window
import EbmsMessaging.Timestamp.Basic
import EbmsMessaging.Timestamp.Calendar
import EbmsMessaging.Timestamp.Reader
import EbmsMessaging.Toml.Document
import EbmsMessaging.Toml.Lexical
import EbmsMessaging.Toml.Reader
import EbmsMessaging.Toml.Scalar
import EbmsMessaging.Toml.Value
import EbmsMessaging.Uuid
import EbmsMessaging.Vocabulary
