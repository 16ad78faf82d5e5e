import CheckpointRestore.Lib.Prog
import CheckpointRestore.Lib.Pool
import CheckpointRestore.Api.CheckpointPath
import CheckpointRestore.Lib.Json
import CheckpointRestore.Lib.Match
import CheckpointRestore.Archive
import CheckpointRestore.CriProxy
import CheckpointRestore.PodRestore.Render
import CheckpointRestore.Forensic.Chain
import CheckpointRestore.Forensic.Reconcile
import CheckpointRestore.Forensic.Sequential
import CheckpointRestore.Forensic.HashChain
import CheckpointRestore.Forensic.Termination
import CheckpointRestore.Forensic.CacheLag
import CheckpointRestore.FileSystem
import CheckpointRestore.Pinning.Marker
import CheckpointRestore.Pinning.Pin
import CheckpointRestore.Pinning.CrashSafe
import CheckpointRestore.Lib.Quantity
import CheckpointRestore.Retention.Ops
import CheckpointRestore.Retention.Protection
import CheckpointRestore.Retention.Level
import CheckpointRestore.Retention.Collector
import CheckpointRestore.Retention.Sequential
import CheckpointRestore.Retention.Scope
import CheckpointRestore.Retention.Lookup
import CheckpointRestore.Lib.QuantityOrder
import CheckpointRestore.Retention.Removals
import CheckpointRestore.Retention.Settled
import CheckpointRestore.Retention.Fixpoint
import CheckpointRestore.Retention.Immediate
import CheckpointRestore.Retention.Hierarchy
import CheckpointRestore.Archive.Namespace
import CheckpointRestore.Forensic.Faulty
import CheckpointRestore.Forensic.Evidence
import CheckpointRestore.Forensic.Integrity
import CheckpointRestore.Forensic.PhaseMachine
import CheckpointRestore.Forensic.LagIndices
import CheckpointRestore.Schedule.EventTrigger
import CheckpointRestore.Schedule.Disruptions
import CheckpointRestore.Archive.Identity
import CheckpointRestore.Api.NamespaceHint
import CheckpointRestore.CheckpointCreator
import CheckpointRestore.Schedule.AnnotationTrigger
import CheckpointRestore.Lib.Exclusive
import CheckpointRestore.Schedule.Lifecycle
import CheckpointRestore.PodRestore.Once
import CheckpointRestore.PodRestore.Release
import CheckpointRestore.PodRestore.BaseImage
import CheckpointRestore.PodRestore.Observe
import CheckpointRestore.PodRestore.Steady
import CheckpointRestore.Archive.Extraction
import CheckpointRestore.Lib.QuantityParse
import CheckpointRestore.PodRestore.Admission
import CheckpointRestore.Retention.Configuration
import CheckpointRestore.Lib.QuantityExact
import CheckpointRestore.Schedule.ResourceUsage
import CheckpointRestore.Schedule.ResourceTrigger
import CheckpointRestore.Schedule.Cooldown
import CheckpointRestore.Lib.ForkJoin
import CheckpointRestore.Retention.WriteFinished
import CheckpointRestore.Lib.Goroutines
import CheckpointRestore.Lib.Interp
import CheckpointRestore.Retention.Watcher
import CheckpointRestore.Retention.Restart
import CheckpointRestore.Retention.Charge
import CheckpointRestore.Retention.RestartProgress
import CheckpointRestore.Retention.Debounce
import CheckpointRestore.Forensic.Helper
import CheckpointRestore.Retention.Handlers
import CheckpointRestore.Retention.Order
import CheckpointRestore.Schedule.Interval
import CheckpointRestore.Schedule.Accounting
import CheckpointRestore.CheckpointCreator.Attempts
import CheckpointRestore.PodRestore.Ready
import CheckpointRestore.Retention.Newest
