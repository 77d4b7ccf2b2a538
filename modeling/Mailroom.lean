import Mailroom.Access.Authenticate
import Mailroom.Access.Secret
import Mailroom.Address
import Mailroom.Api.Answer
import Mailroom.Api.Handle
import Mailroom.Api.Request
import Mailroom.Api.Route
import Mailroom.Bench.Label
import Mailroom.Bench.Run
import Mailroom.Bench.Session
import Mailroom.Bench.Setup
import Mailroom.Bench.Station
import Mailroom.Bench.Strand
import Mailroom.Bench.Transcript
import Mailroom.Bench.World
import Mailroom.Bindings
import Mailroom.Buckets
import Mailroom.Content.Campaign
import Mailroom.Content.Placeholder
import Mailroom.Content.Resolve
import Mailroom.Content.Source
import Mailroom.Decimal.Approximate
import Mailroom.Decimal.Shortest
import Mailroom.Digest.Argon2
import Mailroom.Digest.Blake2b
import Mailroom.Digest.Roots
import Mailroom.Digest.Sha2
import Mailroom.Domain.Basic
import Mailroom.Domain.Patch
import Mailroom.Domain.Sync
import Mailroom.Engine.Dispatch
import Mailroom.Engine.Reconcile
import Mailroom.Engine.Report
import Mailroom.Engine.Tick
import Mailroom.Error
import Mailroom.Job.Basic
import Mailroom.Job.Control
import Mailroom.Job.Create
import Mailroom.Json.Basic
import Mailroom.Json.Decode
import Mailroom.Json.Draft
import Mailroom.Json.Member
import Mailroom.Json.Reader
import Mailroom.Json.Writer
import Mailroom.Mta.Exchange
import Mailroom.Mta.Message
import Mailroom.Mta.Probe
import Mailroom.Mta.Registry
import Mailroom.Mta.Target
import Mailroom.Program
import Mailroom.Quota
import Mailroom.Routing.Route
import Mailroom.Routing.Selection
import Mailroom.Routing.Strategy
import Mailroom.Send.Direct
import Mailroom.Send.Request
import Mailroom.Settings.Basic
import Mailroom.Settings.Layers
import Mailroom.Settings.Path
import Mailroom.Settings.Toml.Basic
import Mailroom.Settings.Toml.Date
import Mailroom.Settings.Toml.Document
import Mailroom.Settings.Toml.Number
import Mailroom.Settings.Toml.Text
import Mailroom.Sql.Dialogue
import Mailroom.Sql.Domains
import Mailroom.Sql.Jobs
import Mailroom.Sql.Row
import Mailroom.Sql.Schema
import Mailroom.Sql.Statement
import Mailroom.Sql.Store
import Mailroom.Store.Call
import Mailroom.Store.Format
import Mailroom.Store.Items
import Mailroom.Store.Memory
import Mailroom.Store.Reply
import Mailroom.Store.Rows
import Mailroom.Store.Tables
import Mailroom.Text.Base64
import Mailroom.Text.Blank
import Mailroom.Text.Cut
import Mailroom.Text.Dictionary
import Mailroom.Text.Hex
import Mailroom.Text.Letter
import Mailroom.Text.Percent
import Mailroom.Text.Printable
import Mailroom.Text.Quoted
import Mailroom.Text.Utf8
import Mailroom.Timestamp
import Mailroom.Uuid
import Mailroom.Vocabulary
import Mailroom.Proofs.Concurrency.Pledge
import Mailroom.Proofs.Store.Calls
import Mailroom.Proofs.Concurrency.Office
import Mailroom.Proofs.Delivery.Record
import Mailroom.Proofs.Delivery.Justified
import Mailroom.Proofs.Delivery.Custody
import Mailroom.Proofs.Delivery.Own
import Mailroom.Proofs.Delivery.Recording
import Mailroom.Proofs.Delivery.Sending
import Mailroom.Proofs.Delivery.Tick
import Mailroom.Proofs.Delivery.AtMostOnce
import Mailroom.Proofs.Concurrency.Calm
import Mailroom.Proofs.Jobs.Counts
import Mailroom.Proofs.Jobs.Ledger
import Mailroom.Proofs.Jobs.Balance
import Mailroom.Proofs.Jobs.Driving
import Mailroom.Proofs.Jobs.Reviewing
import Mailroom.Proofs.Jobs.Operations
import Mailroom.Proofs.Jobs.Counters
import Mailroom.Proofs.Concurrency.Alone
import Mailroom.Proofs.Concurrency.Cues
import Mailroom.Proofs.Concurrency.Spending
import Mailroom.Proofs.Jobs.Finishing
import Mailroom.Proofs.Concurrency.Call
import Mailroom.Proofs.Jobs.Retrying
import Mailroom.Proofs.Jobs.Postage
import Mailroom.Proofs.Jobs.Stopping
import Mailroom.Proofs.Concurrency.Completion
import Mailroom.Proofs.Delivery.Direct
import Mailroom.Proofs.Store.Instants
import Mailroom.Proofs.Access.Entry
import Mailroom.Proofs.Store.Deployments
import Mailroom.Proofs.Deployment.Calls
import Mailroom.Proofs.Deployment.Upkeep
import Mailroom.Proofs.Deployment.Fingerprint
import Mailroom.Proofs.Deployment.Workshop
import Mailroom.Proofs.Deployment.Drift
import Mailroom.Proofs.Limits.Calls
import Mailroom.Proofs.Limits.Windows
import Mailroom.Proofs.Access.Keys
import Mailroom.Proofs.Access.Scopes
import Mailroom.Proofs.Jobs.Failing
import Mailroom.Proofs.Jobs.Lifecycle
import Mailroom.Proofs.Content.Placeholders
import Mailroom.Proofs.Jobs.Coherence
import Mailroom.Proofs.Routing.Selection
import Mailroom.Proofs.Jobs.Expansion
import Mailroom.Proofs.Routing.Failover
import Mailroom.Proofs.Jobs.Restarting
import Mailroom.Proofs.Delivery.Confinement
import Mailroom.Proofs.Delivery.Fates
import Mailroom.Proofs.Delivery.Batches
import Mailroom.Proofs.Jobs.Promoting
import Mailroom.Proofs.Delivery.Checking
import Mailroom.Proofs.Jobs.Rounds
import Mailroom.Proofs.Jobs.Reporting
import Mailroom.Proofs.Jobs.Draining
import Mailroom.Proofs.Store.Queue
import Mailroom.Proofs.Concurrency.Tallying
import Mailroom.Proofs.Delivery.Inquiries
import Mailroom.Proofs.Delivery.Rotation
import Mailroom.Proofs.Limits.Sweeping
import Mailroom.Proofs.Access.Quotas
import Mailroom.Proofs.Routing.Routes
import Mailroom.Proofs.Routing.Turns
import Mailroom.Proofs.Routing.Proportion
import Mailroom.Proofs.Routing.Sharing
import Mailroom.Proofs.Content.Layers
import Mailroom.Proofs.Delivery.Parts
import Mailroom.Proofs.Delivery.Likeness
import Mailroom.Proofs.Delivery.Converging
import Mailroom.Proofs.Delivery.Confluence
import Mailroom.Proofs.Routing.Addresses
import Mailroom.Proofs.Json.Rereading
import Mailroom.Proofs.Json.Records
import Mailroom.Proofs.Deployment.Patches
import Mailroom.Proofs.Access.Isolation
import Mailroom.Proofs.Text.Percent
import Mailroom.Proofs.Delivery.Addressing
