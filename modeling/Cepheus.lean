import Cepheus.Infra.Run
import Cepheus.Infra.Table
import Cepheus.Infra.Time
import Cepheus.Argus.Series
import Cepheus.Argus.LeakyBucket
import Cepheus.Argus.Database
import Cepheus.Argus.PolicyEngine
import Cepheus.Argus.Run
import Cepheus.Argus.Properties.Call
import Cepheus.Argus.Properties.Alarm
import Cepheus.Argus.Properties.Sweep
import Cepheus.Argus.Properties.Order
import Cepheus.Argus.Properties.Success
import Cepheus.Argus.Properties.Score
import Cepheus.Argus.Properties.Copies
import Cepheus.Argus.Properties.Events
import Cepheus.Argus.Properties.Tracking
import Cepheus.Argus.Properties.Bookkeeping
import Cepheus.Argus.Properties.Restart
import Cepheus.Argus.Properties.Reference
import Cepheus.Argus.Registry
import Cepheus.Argus.Worker
import Cepheus.Argus.Properties.Cursor
import Cepheus.Argus.Pipeline
import Cepheus.Argus.Properties.Move
import Cepheus.Argus.Properties.Sequential
import Cepheus.Argus.Properties.Provenance
import Cepheus.Argus.Properties.Durable
import Cepheus.Argus.Properties.Resume
import Cepheus.Argus.Properties.Findings
import Cepheus.Argus.Properties.Keys
import Cepheus.Argus.Properties.Atomic
import Cepheus.Infra.Leak
import Cepheus.Argus.Properties.Drain
import Cepheus.Infra.Weights
import Cepheus.Infra.Root
import Cepheus.Argus.Ewma
import Cepheus.Argus.Properties.Ewma
import Cepheus.Infra.BetaBinomial
import Cepheus.Argus.BetaBinomial
import Cepheus.Stamp.Properties.Codec
import Cepheus.Stamp.Properties.Stream
import Cepheus.Stamp.Properties.Numbering
import Cepheus.Stamp.Properties.Matching
import Cepheus.Scamper.Reader
import Cepheus.Scamper.Wire
import Cepheus.Scamper.Properties.Framing
import Cepheus.Infra.Lag
import Cepheus.Scamper.Client
import Cepheus.Infra.Stations
import Cepheus.Scamper.Properties.Replies
import Cepheus.Scamper.Properties.Completion
import Cepheus.Agent.Domain
import Cepheus.Agent.Supervisor
import Cepheus.Agent.Properties.Goroutines
import Cepheus.Agent.Properties.Reconcile
import Cepheus.Agent.Properties.Enabled
import Cepheus.Agent.Properties.Revival
import Cepheus.Infra.Protobuf
import Cepheus.Infra.Json
import Cepheus.AgentV1
import Cepheus.Server.AgentConfig
import Cepheus.Agent.Config
import Cepheus.Agent.Properties.Config
import Cepheus.Infra.Journal
import Cepheus.Processor.Flusher
import Cepheus.Processor.Properties.Accounting
import Cepheus.Processor.Delivery
import Cepheus.Processor.Properties.Duplicates
import Cepheus.Argus.Properties.BetaBinomial
import Cepheus.Argus.Properties.Lgamma
import Cepheus.Infra.Words
import Cepheus.Processor.Stats
import Cepheus.Processor.Build
import Cepheus.Processor.Properties.TotalLoss
import Cepheus.Infra.Groups
import Cepheus.Infra.Slices
import Cepheus.Infra.Text
import Cepheus.TraceProcessor.ExtractLinks
import Cepheus.TraceProcessor.Properties.Links
import Cepheus.Infra.Sha256
import Cepheus.TraceProcessor.Fingerprint
import Cepheus.TraceProcessor.Properties.LinkHash
import Cepheus.Infra.Quantile
import Cepheus.Infra.Traverse
import Cepheus.Infra.Channel
import Cepheus.Infra.Uuid
import Cepheus.Processor.Properties.Quantiles
import Cepheus.Processor.Properties.Returns
import Cepheus.Agent.Properties.Tasks
import Cepheus.Agent.Properties.Typed
import Cepheus.Agent.Properties.Panics
import Cepheus.Agent.DataStream
import Cepheus.Agent.Properties.DataStream
import Cepheus.Infra.Netip
import Cepheus.TraceProcessor.Process
import Cepheus.TraceProcessor.Properties.AsnHash
import Cepheus.TraceProcessor.Properties.Enrichment
import Cepheus.TraceProcessor.Properties.Transaction
import Cepheus.TraceProcessor.Properties.Addresses
import Cepheus.Argus.Properties.UpperTail
import Cepheus.Infra.Fresh
import Cepheus.Dashboard.Properties.FreshIds
import Cepheus.Dashboard.Sessions
import Cepheus.Dashboard.Properties.UniqueIds
import Cepheus.Infra.Rescale
import Cepheus.Stamp.Properties.NtpRoundTrip
import Cepheus.Agent.Properties.Delays
import Cepheus.Agent.Properties.Calls
import Cepheus.Agent.Run
import Cepheus.ControlPlane.Properties.Agreement
import Cepheus.ControlPlane.Properties.Commands
import Cepheus.ControlPlane.Properties.Entries
import Cepheus.ControlPlane.Properties.Saving
import Cepheus.Infra.JsonRoundtrip
import Cepheus.Agent.Dispatcher
import Cepheus.Agent.Properties.Reports
import Cepheus.Argus.Messages
import Cepheus.DataPlane.Properties.Announced
import Cepheus.DataPlane.Properties.Sessions
import Cepheus.Agent.Executors
import Cepheus.Argus.Deployment
import Cepheus.Argus.Properties.Deployed
import Cepheus.Argus.Properties.Grounds
import Cepheus.Argus.Properties.Reading
import Cepheus.DataPlane.Properties.Progress
import Cepheus.Monitoring.Properties.Alarms
import Cepheus.Platform.Sessions
