import ClusterReadiness.Number.Text
import ClusterReadiness.Document.Declaration
import ClusterReadiness.Document.Event
import ClusterReadiness.Text.UpperCase
import ClusterReadiness.Broker.InMemory
import ClusterReadiness.Broker.Cluster
import ClusterReadiness.Registry.InMemory
import ClusterReadiness.Registry.Http
import ClusterReadiness.Router
import ClusterReadiness.Reconciler
import ClusterReadiness.Signals
import ClusterReadiness.Sleeper
import ClusterReadiness.Json
import ClusterReadiness.Config.Load
import ClusterReadiness.Toml.Document
import ClusterReadiness.Bootstrap.Run
import ClusterReadiness.Document.Construction
import ClusterReadiness.Rehearsal.Stage
import ClusterReadiness.Document.Basic
import ClusterReadiness.Document.Reader
import ClusterReadiness.Proofs.Program.Runs
import ClusterReadiness.Proofs.Reconciler.Work
import ClusterReadiness.Proofs.Reconciler.Retries
import ClusterReadiness.Proofs.Reconciler.Steps
import ClusterReadiness.Proofs.Reconciler.Waits
import ClusterReadiness.Proofs.Reconciler.Stages
import ClusterReadiness.Proofs.Reconciler.PhaseOrder
import ClusterReadiness.Proofs.Reconciler.Schedules
import ClusterReadiness.Proofs.Reconciler.TopicBudget
import ClusterReadiness.Proofs.Router.Emission
import ClusterReadiness.Proofs.Router.Rules
import ClusterReadiness.Proofs.Router.FanOut
import ClusterReadiness.Proofs.Reconciler.Interrupts
import ClusterReadiness.Proofs.Reconciler.OrderlyEnd
import ClusterReadiness.Proofs.Router.Containment
import ClusterReadiness.Proofs.Reconciler.Announcements
import ClusterReadiness.Proofs.Reconciler.PhaseGraph
import ClusterReadiness.Proofs.Reconciler.EventLog
import ClusterReadiness.Proofs.Reconciler.Leave
import ClusterReadiness.Proofs.Reconciler.Shutdown
import ClusterReadiness.Proofs.Reconciler.Pacing
import ClusterReadiness.Proofs.Reconciler.Bounds
import ClusterReadiness.Proofs.Reconciler.Streaks
import ClusterReadiness.Proofs.Reconciler.FailureReasons
import ClusterReadiness.Proofs.Broker.Histories
import ClusterReadiness.Proofs.Router.Isolation
import ClusterReadiness.Proofs.Reconciler.Transparency
import ClusterReadiness.Proofs.Broker.Appearance
import ClusterReadiness.Proofs.Reconciler.RegistryBudget
import ClusterReadiness.Proofs.Reconciler.Collaborators
import ClusterReadiness.Proofs.Reconciler.ClosedForm
import ClusterReadiness.Proofs.Reconciler.Restarts
import ClusterReadiness.Proofs.Reconciler.SingleShot
import ClusterReadiness.Proofs.Config.Fields
import ClusterReadiness.Proofs.Config.Acceptance
import ClusterReadiness.Proofs.Router.Handings
import ClusterReadiness.Proofs.Reconciler.Attendance
import ClusterReadiness.Proofs.Reconciler.ReadinessLatch
import ClusterReadiness.Proofs.Reconciler.PhaseFilters
import ClusterReadiness.Proofs.Reconciler.Timetables
import ClusterReadiness.Proofs.Reconciler.Lockstep
import ClusterReadiness.Proofs.Reconciler.HealthyProbe
import ClusterReadiness.Proofs.Reconciler.DeclarationOrder
import ClusterReadiness.Proofs.Broker.Batches
import ClusterReadiness.Proofs.Reconciler.CreationAttempts
import ClusterReadiness.Proofs.Backoff.Execution
import ClusterReadiness.Proofs.Toml.Names
import ClusterReadiness.Proofs.Config.Overrides
import ClusterReadiness.Proofs.Config.Merging
import ClusterReadiness.Proofs.Config.TopicVariable
import ClusterReadiness.Proofs.Signals.Nesting
import ClusterReadiness.Proofs.Rehearsal.Arrivals
import ClusterReadiness.Proofs.Bootstrap.Cleanup
import ClusterReadiness.Proofs.Number.Rounding
import ClusterReadiness.Proofs.Number.Magnitude
import ClusterReadiness.Proofs.Number.Arithmetic
import ClusterReadiness.Proofs.Number.Powers
import ClusterReadiness.Proofs.Number.Growth
import ClusterReadiness.Proofs.Backoff.Delays
import ClusterReadiness.Proofs.Backoff.Turns
import ClusterReadiness.Proofs.Number.Factors
import ClusterReadiness.Proofs.Backoff.Intervals
