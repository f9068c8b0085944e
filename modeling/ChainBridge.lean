import ChainBridge.Address
import ChainBridge.BlockTag
import ChainBridge.Bridge.Build
import ChainBridge.Bridge.Lifecycle
import ChainBridge.Cache.Item
import ChainBridge.Cache.Landing
import ChainBridge.Cache.Machine
import ChainBridge.Cache.Policy
import ChainBridge.Cache.Stats
import ChainBridge.Cache.Store
import ChainBridge.Cache.Task
import ChainBridge.Call
import ChainBridge.CommandLine.Arguments
import ChainBridge.CommandLine.Menu
import ChainBridge.CommandLine.Procedure
import ChainBridge.CommandLine.Program
import ChainBridge.CommandLine.Question
import ChainBridge.CommandLine.Session
import ChainBridge.CommandLine.Summary
import ChainBridge.Config.Basic
import ChainBridge.Config.Json
import ChainBridge.Config.Layers
import ChainBridge.Config.Sections
import ChainBridge.Config.Validate
import ChainBridge.Decimal.Shortest
import ChainBridge.Defi.Aggregate
import ChainBridge.Defi.Settings
import ChainBridge.Defi.Slot
import ChainBridge.Footprint
import ChainBridge.Json.Address
import ChainBridge.Json.Basic
import ChainBridge.Json.Draft
import ChainBridge.Json.Printer
import ChainBridge.Json.Reader
import ChainBridge.Keccak
import ChainBridge.Metrics
import ChainBridge.Quantity
import ChainBridge.Repository.Error
import ChainBridge.Repository.Handle
import ChainBridge.Repository.Key
import ChainBridge.Repository.Logos
import ChainBridge.Repository.Machine
import ChainBridge.Repository.Operation
import ChainBridge.Rpc.Envelope
import ChainBridge.Rpc.Error
import ChainBridge.Rpc.Exchange
import ChainBridge.Rpc.Inquiry
import ChainBridge.Rpc.Permits
import ChainBridge.Rpc.Query
import ChainBridge.Rpc.Url
import ChainBridge.Rpc.Wire
import ChainBridge.Simulation.Clock
import ChainBridge.Simulation.Desk
import ChainBridge.Simulation.Disk
import ChainBridge.Simulation.Node
import ChainBridge.Text.Hex
import ChainBridge.Text.LowerCase
import ChainBridge.Text.Quoted
import ChainBridge.Text.Unprintable
import ChainBridge.Text.Utf8
import ChainBridge.Toml.Document
import ChainBridge.Toml.Lexeme
import ChainBridge.Toml.Tree
import ChainBridge.Value
import ChainBridge.Main
import ChainBridge.Proofs.Cache.Books
import ChainBridge.Proofs.Cache.Representation
import ChainBridge.Proofs.Cache.SingleFlight
import ChainBridge.Proofs.Cache.Agreement
import ChainBridge.Proofs.Cache.Abandonment
import ChainBridge.Proofs.Cache.Budget
import ChainBridge.Proofs.Cache.Offers
import ChainBridge.Proofs.Cache.History
import ChainBridge.Proofs.Cache.Vacancy
import ChainBridge.Proofs.Cache.Sweeping
import ChainBridge.Proofs.Cache.Truth
import ChainBridge.Proofs.Cache.Counters
import ChainBridge.Proofs.Cache.Conservation
import ChainBridge.Proofs.Cache.Thrift
import ChainBridge.Proofs.Rpc.Requests
import ChainBridge.Proofs.Repository.Keys
import ChainBridge.Proofs.Repository.Visits
import ChainBridge.Proofs.Repository.Facade
import ChainBridge.Proofs.Repository.Shapes
import ChainBridge.Proofs.Cache.Census
import ChainBridge.Proofs.Repository.Calls
import ChainBridge.Proofs.Cache.Series
import ChainBridge.Proofs.Cache.Recording
import ChainBridge.Proofs.Repository.Events
import ChainBridge.Proofs.Repository.Lending
import ChainBridge.Proofs.Repository.Probes
import ChainBridge.Proofs.Text.Utf8
import ChainBridge.Proofs.Json.Tokens
import ChainBridge.Proofs.Json.Documents
import ChainBridge.Proofs.Text.Hex
import ChainBridge.Proofs.Quantity.Amounts
import ChainBridge.Proofs.Rpc.Envelopes
import ChainBridge.Rpc.Client
import ChainBridge.Proofs.Rpc.Answers
import ChainBridge.Proofs.Rpc.Permits
import ChainBridge.Proofs.Rpc.Limit
import ChainBridge.Proofs.Cache.Evictions
import ChainBridge.Proofs.Config.Validity
import ChainBridge.Proofs.Bridge.Building
import ChainBridge.Proofs.Cache.Overruns
import ChainBridge.Proofs.Bridge.Limits
import ChainBridge.Proofs.Bridge.Shutdown
import ChainBridge.Proofs.Text.Bytes
import ChainBridge.Proofs.Quantity.Counts
import ChainBridge.Proofs.Quantity.Words
import ChainBridge.Proofs.Address.Texts
import ChainBridge.Proofs.Defi.Arrivals
import ChainBridge.Proofs.Rpc.Inquiries
import ChainBridge.Proofs.Cache.Expiry
import ChainBridge.Proofs.Defi.Places
import ChainBridge.Proofs.Defi.Drafts
import ChainBridge.Proofs.Rpc.Bodies
import ChainBridge.Proofs.Rpc.Outcomes
import ChainBridge.Proofs.Config.Logos
