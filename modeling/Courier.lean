import Courier.Attempt
import Courier.Bounded
import Courier.Bus
import Courier.CommandLine
import Courier.Database
import Courier.Decimal.Binary64
import Courier.Decimal.Digits
import Courier.Decimal.Parse
import Courier.Delivery
import Courier.Dispatch
import Courier.Duration
import Courier.Event
import Courier.Json.Printer
import Courier.Json.Reader
import Courier.Json.Schema
import Courier.Json.Skip
import Courier.Json.Value
import Courier.Main
import Courier.Operator
import Courier.Proofs.Bench
import Courier.Proofs.Calls
import Courier.Proofs.ClaimFence
import Courier.Proofs.CompletionOrder
import Courier.Proofs.Custody
import Courier.Proofs.Desk
import Courier.Proofs.Evolution
import Courier.Proofs.FanOut
import Courier.Proofs.Fleet
import Courier.Proofs.FleetSteps
import Courier.Proofs.History
import Courier.Proofs.Identity
import Courier.Proofs.LeaseExclusion
import Courier.Proofs.Ledger
import Courier.Proofs.Links
import Courier.Proofs.Moves
import Courier.Proofs.OutcomeSequence
import Courier.Proofs.PlayedBus
import Courier.Proofs.PlayedWakeup
import Courier.Proofs.Progress
import Courier.Proofs.Records
import Courier.Proofs.Reports
import Courier.Proofs.RequestHeaders
import Courier.Proofs.Rounds
import Courier.Proofs.ScanEnd
import Courier.Proofs.Scene
import Courier.Proofs.SentAsStored
import Courier.Proofs.Shutdown
import Courier.Proofs.StateMachine
import Courier.Proofs.StoreSteps
import Courier.Proofs.Subscriptions
import Courier.Rehearsal.Action
import Courier.Rehearsal.Session
import Courier.Rehearsal.Task
import Courier.Rehearsal.World
import Courier.Request
import Courier.Request.Body
import Courier.Request.Header
import Courier.Retention
import Courier.RetryPolicy
import Courier.Scan
import Courier.Scheduler
import Courier.SchemaName
import Courier.Settings.Commented
import Courier.Settings.Convert
import Courier.Settings.Format
import Courier.Settings.Ini
import Courier.Settings.Json5
import Courier.Settings.Load
import Courier.Settings.Place
import Courier.Settings.Reading
import Courier.Settings.Ron
import Courier.Settings.Sections
import Courier.Settings.Toml.Date
import Courier.Settings.Toml.Document
import Courier.Settings.Toml.Reader
import Courier.Settings.Toml.Token
import Courier.Settings.Tree
import Courier.Settings.Yaml.Reader
import Courier.Settings.Yaml.Scalar
import Courier.Signature
import Courier.Signature.Sha256
import Courier.Store.Basic
import Courier.Store.Claims
import Courier.Store.Deliveries
import Courier.Store.Error
import Courier.Store.Remote
import Courier.Text.Blank
import Courier.Text.Category
import Courier.Text.Hex
import Courier.Text.Lower
import Courier.Text.Quoted
import Courier.Text.Split
import Courier.Text.Utf8
import Courier.Ticker
import Courier.Time.Calendar
import Courier.Time.Instant
import Courier.Time.Text
import Courier.Url.Address
import Courier.Url.Basic
import Courier.Url.Direction
import Courier.Url.Domain
import Courier.Url.Parser
import Courier.Url.Percent
import Courier.Url.Punycode
import Courier.Uuid
import Courier.Wakeup
import Courier.Webhook
import Courier.Worker
import Courier.Proofs.Draining
import Courier.Proofs.Outages
import Courier.Proofs.SettingsRange
import Courier.Proofs.Masks
import Courier.Proofs.Secrecy
import Courier.Proofs.RecordTexts
import Courier.Proofs.References
import Courier.Proofs.Relay
import Courier.Proofs.Beacon
import Courier.Proofs.SignedRequests
import Courier.Proofs.BodyFraming
import Courier.Proofs.ConsecutiveClaims
import Courier.Proofs.Interruption
import Courier.Proofs.Backoff
import Courier.Proofs.Leases
import Courier.Proofs.Encodings
import Courier.Proofs.LossyText
import Courier.Proofs.ByteOrder
import Courier.Proofs.BodyCapture
import Courier.Proofs.PatternOrder
import Courier.Proofs.SignatureSpellings
import Courier.Proofs.HeaderContents
import Courier.Proofs.ExpiredClaims
import Courier.Proofs.RetentionWindow
import Courier.Proofs.RegistrationRules
import Courier.Proofs.RoutineCalls
import Courier.Proofs.Listings
