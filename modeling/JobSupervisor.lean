import JobSupervisor.Text.Blank
import JobSupervisor.Text.Utf8
import JobSupervisor.Text.Prefix
import JobSupervisor.Text.Quoted
import JobSupervisor.NameMap
import JobSupervisor.Time
import JobSupervisor.Health.Record
import JobSupervisor.Health.Cell
import JobSupervisor.Health.Registry
import JobSupervisor.Health.Report
import JobSupervisor.Context.Identifier
import JobSupervisor.Context.Correlation
import JobSupervisor.Log.Event
import JobSupervisor.Metrics
import JobSupervisor.Job.Lease
import JobSupervisor.Shutdown
import JobSupervisor.Host.Error
import JobSupervisor.Job.Error
import JobSupervisor.Supervisor
import JobSupervisor.Job.Run
import JobSupervisor.Json.Value
import JobSupervisor.Json.Reader
import JobSupervisor.Toml.Text
import JobSupervisor.Config.Schema
import JobSupervisor.Config.Decode
import JobSupervisor.Net.SocketAddress
import JobSupervisor.Config.Validation
import JobSupervisor.Config.Load
import JobSupervisor.Log.Filter
import JobSupervisor.Host.Exit
import JobSupervisor.Host.Format
import JobSupervisor.Host.Shell.Syntax
import JobSupervisor.Host.Shell.Pattern
import JobSupervisor.Host.Shell.Token
import JobSupervisor.Host.Shell.Reader
import JobSupervisor.Host.Shell.Arithmetic
import JobSupervisor.Host.Shell.Machine
import JobSupervisor.Host.Shell.Builtin
import JobSupervisor.Host.Shell.Run
import JobSupervisor.Host.Program
import JobSupervisor.Job.Command
import JobSupervisor.Net.Percent
import JobSupervisor.Http.Message
import JobSupervisor.Http.Endpoint
import JobSupervisor.Job.Schedule
import JobSupervisor.Job.TriggerLoop
import JobSupervisor.Session.Action
import JobSupervisor.Session.Reply
import JobSupervisor.Session.State
import JobSupervisor.Session.Perform
import JobSupervisor.Session.Timeline
import JobSupervisor.Session.Play
import JobSupervisor.Net.Url
import JobSupervisor.Http.Status
import JobSupervisor.Arguments
import JobSupervisor.Client.Order
import JobSupervisor.Client.Answer
import JobSupervisor.Client.Exchange
import JobSupervisor.Host.File
import JobSupervisor.Host.Listener
import JobSupervisor.Daemon.Surroundings
import JobSupervisor.Daemon.Run
import JobSupervisor.Log.Line
import JobSupervisor.Main
import JobSupervisor.Proofs.RecordHistory
import JobSupervisor.Proofs.RecordLaw
import JobSupervisor.Proofs.RegistryHistory
import JobSupervisor.Proofs.RunOperations
import JobSupervisor.Proofs.SessionConduct
import JobSupervisor.Proofs.RunVerdict
import JobSupervisor.Proofs.LeaseSystem
import JobSupervisor.Proofs.LeaseExclusion
import JobSupervisor.Proofs.LeaseRequests
import JobSupervisor.Proofs.OverlappingRuns
import JobSupervisor.Proofs.LoopSystem
import JobSupervisor.Proofs.LoopShutdown
import JobSupervisor.Proofs.ShutdownSystem
import JobSupervisor.Proofs.ShutdownLatch
import JobSupervisor.Proofs.ConfigurationRules
import JobSupervisor.Proofs.RunFrame
import JobSupervisor.Proofs.DaemonStart
import JobSupervisor.Proofs.DaemonLoops
import JobSupervisor.Proofs.DaemonRun
import JobSupervisor.Proofs.FireSystem
import JobSupervisor.Proofs.FireLeases
import JobSupervisor.Proofs.FireOverlap
import JobSupervisor.Proofs.FireConduct
import JobSupervisor.Proofs.RecordSystem
import JobSupervisor.Proofs.RecordLinearization
import JobSupervisor.Proofs.IdentifierSupply
import JobSupervisor.Proofs.ThreadScopes
import JobSupervisor.Proofs.ScopeEpochs
import JobSupervisor.Proofs.NestedRuns
import JobSupervisor.Proofs.RunScopes
import JobSupervisor.Proofs.ByteOrder
import JobSupervisor.Proofs.RegistryListing
import JobSupervisor.Proofs.RegistrySystem
import JobSupervisor.Proofs.RegistryPermanence
import JobSupervisor.Proofs.Utf8Decoding
import JobSupervisor.Proofs.PercentCoding
import JobSupervisor.Proofs.NamesInPaths
import JobSupervisor.Proofs.HealthEndpoints
import JobSupervisor.Proofs.JsonTexts
import JobSupervisor.Proofs.ClientAddress
import JobSupervisor.Proofs.ClientLookup
import JobSupervisor.Proofs.RunSteps
import JobSupervisor.Proofs.RunLedger
import JobSupervisor.Proofs.RunCounts
import JobSupervisor.Proofs.ShownHealth
import JobSupervisor.Proofs.MetricsConservation
import JobSupervisor.Proofs.RunCrew
import JobSupervisor.Proofs.RunFootprints
import JobSupervisor.Proofs.CrewSchedules
import JobSupervisor.Proofs.RunIndependence
import JobSupervisor.Proofs.ViolationReport
import JobSupervisor.Proofs.ReportSystem
import JobSupervisor.Proofs.ReportUnderChange
import JobSupervisor.Proofs.LoopFlights
import JobSupervisor.Proofs.FleetExclusion
import JobSupervisor.Proofs.DaemonFleet
import JobSupervisor.Proofs.StopSystem
import JobSupervisor.Proofs.DaemonStop
import JobSupervisor.Proofs.TextPrefixes
import JobSupervisor.Proofs.BoundarySearch
import JobSupervisor.Proofs.TrimmedTexts
import JobSupervisor.Proofs.CommandReasons
import JobSupervisor.Proofs.SessionSpans
import JobSupervisor.Proofs.ExposedMetrics
import JobSupervisor.Proofs.RunViews
import JobSupervisor.Proofs.ClientExit
import JobSupervisor.Proofs.SchedulerCalls
import JobSupervisor.Proofs.RequestIdentifiers
import JobSupervisor.Proofs.DocumentKeys
import JobSupervisor.Proofs.SectionFields
import JobSupervisor.Proofs.ConfigurationFields
import JobSupervisor.Proofs.RestatedDocuments
