import NancyMan.ControlPlane.Convergence
import NancyMan.Agent.AuthenticatedServer
import NancyMan.ControlPlane.Validations
import NancyMan.Explorer.Confidentiality
import NancyMan.Storage.RetentionRun
import NancyMan.Collector.Acknowledgement
import NancyMan.Alerts.AlertRate
import NancyMan.Alerts.ZaloLinks
import NancyMan.Collector.LogTailer
import NancyMan.Agent.ArtifactIndex
import NancyMan.Agent.ArtifactRecovery
import NancyMan.Agent.RuntimeLock
import NancyMan.Agent.SignedRequests
import NancyMan.ControlPlane.ApplyBlockClearing
import NancyMan.Agent.ApplyOnce
import NancyMan.Explorer.DeliverablePage
import NancyMan.SqlWorker.ProtocolServer
import NancyMan.Notifier.SchedulingComplete
import NancyMan.Auth.Lockout
import NancyMan.Processor.DeadLetters
import NancyMan.Processor.IssueAggregates
import NancyMan.Ingest.BatchIsolation
import NancyMan.Audit.OneChain
import NancyMan.Auth.LiveGrants
import NancyMan.Accounts.Enrollment
import NancyMan.Accounts.OwnerAuthority
import NancyMan.Explorer.RevealAudit
import NancyMan.Accounts.CutOff
import NancyMan.Ingest.RequestReplay
import NancyMan.SqlWorker.CommandReplay
import NancyMan.Auth.SessionLifetime
import NancyMan.SqlWorker.TargetHealth
import NancyMan.Storage.AppliedOnce
import NancyMan.Telemetry.CaptureOnce
import NancyMan.Explorer.GrantExecution
import NancyMan.Agent.Framing
import NancyMan.Collector.TransitionDiscipline
import NancyMan.Explorer.RowRefRoundTrip
import NancyMan.SqlWorker.ResultEncoding
import NancyMan.Explorer.PageParameters
import NancyMan.Agent.SourceReaders
import NancyMan.Agent.DisplayedValues
import NancyMan.Agent.CleanupRaces
import NancyMan.Agent.ChangeHistories
import NancyMan.SqlWorker.StructuralChecksum
import NancyMan.Collector.DiskCondition
import NancyMan.Telemetry.SanitizedTwice
import NancyMan.SqlWorker.ChunkedFrames
import NancyMan.Agent.Precedence
import NancyMan.Telemetry.ContextToken
import NancyMan.Telemetry.ServerSpool
import NancyMan.Explorer.SchemaViewAudits
import NancyMan.Releases.ObjectRaces
import NancyMan.Releases.SourceMapLookup
import NancyMan.SqlWorker.AuditedPreviews
import NancyMan.Processor.Fingerprint
import NancyMan.Auth.TotpSeeds
import NancyMan.SqlWorker.RiskPolicy
import NancyMan.SqlWorker.ReadExecution
