import DeadLetter.Admin.Auth
import DeadLetter.Admin.Environment
import DeadLetter.Admin.Failure
import DeadLetter.Admin.Router
import DeadLetter.Aws.Answer
import DeadLetter.Aws.BucketAnswer
import DeadLetter.Aws.QueueAnswer
import DeadLetter.Aws.Reply
import DeadLetter.Aws.Request
import DeadLetter.Aws.Sdk
import DeadLetter.Aws.TopicAnswer
import DeadLetter.Backoff
import DeadLetter.Binary64
import DeadLetter.BodyDecoder
import DeadLetter.ClientCache
import DeadLetter.Config.Error
import DeadLetter.Config.Properties
import DeadLetter.Config.Reader
import DeadLetter.Config.Validation
import DeadLetter.Credentials
import DeadLetter.Dict
import DeadLetter.EventType
import DeadLetter.Json.Draft
import DeadLetter.Json.Numeral
import DeadLetter.Json.Printer
import DeadLetter.Json.Quoted
import DeadLetter.Json.Token
import DeadLetter.Json.Value
import DeadLetter.Message
import DeadLetter.Naming
import DeadLetter.Proofs.Admission
import DeadLetter.Proofs.Authorization
import DeadLetter.Proofs.Aws.Forwarding
import DeadLetter.Proofs.Backoff
import DeadLetter.Proofs.Cancellation
import DeadLetter.Proofs.ClientCache
import DeadLetter.Proofs.Clients
import DeadLetter.Proofs.Concurrency
import DeadLetter.Proofs.Conservation
import DeadLetter.Proofs.Decoding
import DeadLetter.Proofs.Deliveries
import DeadLetter.Proofs.Diagnosis
import DeadLetter.Proofs.Dict
import DeadLetter.Proofs.Failures
import DeadLetter.Proofs.Health
import DeadLetter.Proofs.Identities
import DeadLetter.Proofs.Inspecting
import DeadLetter.Proofs.Isolation
import DeadLetter.Proofs.Json.Grammar
import DeadLetter.Proofs.Json.Lexing
import DeadLetter.Proofs.Json.Numbers
import DeadLetter.Proofs.Json.Parts
import DeadLetter.Proofs.Json.Reading
import DeadLetter.Proofs.Json.RoundTrip
import DeadLetter.Proofs.MainQueues
import DeadLetter.Proofs.OrderedQueues
import DeadLetter.Proofs.Polling
import DeadLetter.Proofs.Provider.Reachable
import DeadLetter.Proofs.Provider.Refusals
import DeadLetter.Proofs.Provisioning.Creations
import DeadLetter.Proofs.Provisioning.Established
import DeadLetter.Proofs.Provisioning.Repeated
import DeadLetter.Proofs.Provisioning.Script
import DeadLetter.Proofs.Provisioning.Series
import DeadLetter.Proofs.Provisioning.Success
import DeadLetter.Proofs.Publishing
import DeadLetter.Proofs.Purging
import DeadLetter.Proofs.RedrivePolicy
import DeadLetter.Proofs.Redriving
import DeadLetter.Proofs.Registry.Handles
import DeadLetter.Proofs.Registry.Lookups
import DeadLetter.Proofs.Registry.Places
import DeadLetter.Proofs.Rounds
import DeadLetter.Proofs.Routine.Abreast
import DeadLetter.Proofs.Routine.Interleaving
import DeadLetter.Proofs.Routine.Journal
import DeadLetter.Proofs.Routine.Protocol
import DeadLetter.Proofs.Service.Answered
import DeadLetter.Proofs.Service.Asking
import DeadLetter.Proofs.Service.Checks
import DeadLetter.Proofs.Service.Components
import DeadLetter.Proofs.Service.Draining
import DeadLetter.Proofs.Service.Ebb
import DeadLetter.Proofs.Service.Frame
import DeadLetter.Proofs.Service.Grouping
import DeadLetter.Proofs.Service.Inquiry
import DeadLetter.Proofs.Service.Keeping
import DeadLetter.Proofs.Service.Ledger
import DeadLetter.Proofs.Service.Looking
import DeadLetter.Proofs.Service.Lookup
import DeadLetter.Proofs.Service.Outage
import DeadLetter.Proofs.Service.Stages
import DeadLetter.Proofs.Service.Surplus
import DeadLetter.Proofs.Service.Through
import DeadLetter.Proofs.Service.Transfer
import DeadLetter.Proofs.Service.Twin
import DeadLetter.Proofs.Sessions
import DeadLetter.Proofs.Store.Batches
import DeadLetter.Proofs.Store.Calls
import DeadLetter.Proofs.Store.Copies
import DeadLetter.Proofs.Store.Creation
import DeadLetter.Proofs.Store.Effects
import DeadLetter.Proofs.Store.Groups
import DeadLetter.Proofs.Store.Likeness
import DeadLetter.Proofs.Store.Receipts
import DeadLetter.Proofs.Store.Stamps
import DeadLetter.Proofs.Store.Takings
import DeadLetter.Proofs.Store.Tallies
import DeadLetter.Proofs.Store.Topics
import DeadLetter.Proofs.Store.Turns
import DeadLetter.Proofs.Sweeping
import DeadLetter.Proofs.Text.Digits
import DeadLetter.Proofs.Timeouts
import DeadLetter.Proofs.Validation
import DeadLetter.Proofs.World
import DeadLetter.Provider.Call
import DeadLetter.Provider.Memory
import DeadLetter.Provider.QueueStore
import DeadLetter.Provider.Routine
import DeadLetter.Provider.TopicStore
import DeadLetter.Provider.World
import DeadLetter.QueueError
import DeadLetter.RedrivePolicy
import DeadLetter.Registry.Basic
import DeadLetter.Registry.Build
import DeadLetter.Service.Health
import DeadLetter.Service.Inspect
import DeadLetter.Service.Listener
import DeadLetter.Service.Lookup
import DeadLetter.Service.Provision
import DeadLetter.Service.Publish
import DeadLetter.Service.Purge
import DeadLetter.Service.Report
import DeadLetter.Service.Retry
import DeadLetter.Service.Sweep
import DeadLetter.Service.Visibility
import DeadLetter.Text.Base64
import DeadLetter.Text.Blank
import DeadLetter.Text.Casing
import DeadLetter.Text.CasingTable
import DeadLetter.Text.Numeral
import DeadLetter.Text.Percent
import DeadLetter.Text.Scan
import DeadLetter.Text.Segment
import DeadLetter.Toml.Document
import DeadLetter.Toml.Scalar
import DeadLetter.Toml.Text
import DeadLetter.Toml.Tree
import DeadLetter.Toml.Value
import DeadLetter.Xml.Element
import DeadLetter.Xml.Letter
import DeadLetter.Xml.Printer
import DeadLetter.Xml.Reference
import DeadLetter.Xml.Token
import DeadLetter.Proofs.Binary64
