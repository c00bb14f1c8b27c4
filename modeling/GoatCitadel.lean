import GoatCitadel.Support.Runs
import GoatCitadel.Support.Text
import GoatCitadel.Support.FileTree
import GoatCitadel.Support.Keyset
import GoatCitadel.Support.Glob
import GoatCitadel.Support.StableSort
import GoatCitadel.Support.Separated
import GoatCitadel.Support.Holds
import GoatCitadel.Support.Table
import GoatCitadel.Mesh.Lease
import GoatCitadel.Mesh.LeaseTenure
import GoatCitadel.Mesh.LeaseExclusion
import GoatCitadel.Mesh.SessionOwner
import GoatCitadel.Mesh.Replication
import GoatCitadel.Mesh.JoinTokens
import GoatCitadel.Storage.MutationIdempotency
import GoatCitadel.Storage.AtMostOnceDispatch
import GoatCitadel.Storage.WorktreeLease
import GoatCitadel.Sandbox.PathJail
import GoatCitadel.Sandbox.WriteRootSafety
import GoatCitadel.Sandbox.Ipv6Text
import GoatCitadel.Sandbox.Ipv6Guard
import GoatCitadel.Sandbox.Ipv6Mapped
import GoatCitadel.Sandbox.Ipv6Verdict
import GoatCitadel.Sandbox.HostEgress
import GoatCitadel.Sandbox.AllowlistPatterns
import GoatCitadel.Policy.Patterns
import GoatCitadel.Policy.Request
import GoatCitadel.Policy.Resolver
import GoatCitadel.Policy.DenyWins
import GoatCitadel.Policy.Wards
import GoatCitadel.Policy.JsonText
import GoatCitadel.Policy.Store
import GoatCitadel.Policy.ApprovedRequests
import GoatCitadel.Policy.CanonicalJson
import GoatCitadel.Policy.JsonParse
import GoatCitadel.Policy.CanonicalText
import GoatCitadel.Policy.Paths
import GoatCitadel.Policy.Grants
import GoatCitadel.Policy.Access
import GoatCitadel.Policy.Evaluation
import GoatCitadel.Policy.HardGates
import GoatCitadel.Policy.Invocation
import GoatCitadel.Policy.Approvals
import GoatCitadel.Policy.DryRuns
import GoatCitadel.Policy.HourlyLimits
import GoatCitadel.Orchestration.Plan
import GoatCitadel.Orchestration.Coverage
import GoatCitadel.Orchestration.Engine
import GoatCitadel.Orchestration.Progress
import GoatCitadel.Orchestration.WaveCosts
import GoatCitadel.RemoteWorker.BudgetRecords
import GoatCitadel.RemoteWorker.Budget
import GoatCitadel.RemoteWorker.BudgetLimits
import GoatCitadel.RemoteWorker.RequestNonces
import GoatCitadel.RemoteWorker.NonceReplay
import GoatCitadel.Contracts.InlineReasoning
import GoatCitadel.Contracts.ReasoningSplit
import GoatCitadel.Storage.ImprovementOperations
import GoatCitadel.Storage.ImprovementSettlement
import GoatCitadel.Cron.Runs
import GoatCitadel.Cron.Schedule
import GoatCitadel.Cron.RunFencing
import GoatCitadel.Cron.Automation
import GoatCitadel.Cron.DueWindows
import GoatCitadel.Storage.RemoteActionTokens
import GoatCitadel.Storage.RemoteActionClaims
import GoatCitadel.Storage.ChannelDeliveryParts
import GoatCitadel.Storage.PartDispatch
import GoatCitadel.Storage.InboundRecords
import GoatCitadel.Storage.InboundEvents
import GoatCitadel.Storage.InboundLanes
import GoatCitadel.Storage.StartedCommands
import GoatCitadel.Gateway.SessionKey
import GoatCitadel.Gateway.SessionRoutes
import GoatCitadel.Storage.AuditFileLock
import GoatCitadel.Storage.RealtimeEvents
import GoatCitadel.Support.Reachability
import GoatCitadel.Storage.ChildWatchers
import GoatCitadel.Storage.ChildWatcherRelay
import GoatCitadel.Storage.ModelUsage
import GoatCitadel.Storage.UsageAccounting
import GoatCitadel.Support.HashChain
import GoatCitadel.RemoteWorker.TranscriptOutbox
import GoatCitadel.RemoteWorker.OutboxTexts
import GoatCitadel.RemoteWorker.OutboxDurability
import GoatCitadel.Support.Utf8
import GoatCitadel.Contracts.Utf8Truncation
import GoatCitadel.Storage.AuditTail
import GoatCitadel.Sandbox.Redirects
import GoatCitadel.Storage.ApprovalEffects
import GoatCitadel.Storage.EffectClaims
import GoatCitadel.Storage.ObservabilityChain
import GoatCitadel.MemoryCore.TokenEstimator
import GoatCitadel.Support.Words
import GoatCitadel.Sandbox.RiskPatterns
import GoatCitadel.Sandbox.ExecCommands
import GoatCitadel.Sandbox.WindowsShellRisk
import GoatCitadel.Sandbox.ShellRiskGate
import GoatCitadel.Policy.JsonQuotes
import GoatCitadel.Storage.TranscriptLog
import GoatCitadel.Storage.TranscriptOutbox
import GoatCitadel.Storage.TranscriptDelivery
import GoatCitadel.Skills.Dependencies
import GoatCitadel.Policy.ScheduledProfile
import GoatCitadel.Storage.TranscriptFiles
import GoatCitadel.Contracts.RunVariables
import GoatCitadel.Contracts.PlaceholderIds
import GoatCitadel.Contracts.LegacyTemplates
import GoatCitadel.Contracts.ModelUsage
import GoatCitadel.Policy.UntrustedWrites
import GoatCitadel.Support.Substrings
import GoatCitadel.Contracts.SecretRedaction
import GoatCitadel.Support.Alignment
import GoatCitadel.RemoteWorker.DiskLayout
import GoatCitadel.RemoteWorker.DiskChain
import GoatCitadel.Support.Repeats
import GoatCitadel.Sandbox.WrappedCommands
import GoatCitadel.RemoteWorker.LeaseIntents
import GoatCitadel.Cron.RunLinkage
import GoatCitadel.Storage.UsagePages
import GoatCitadel.Storage.InboundPayloads
import GoatCitadel.Support.RoundRobin
import GoatCitadel.Storage.ChildWatcherSweep
import GoatCitadel.Support.Int32
import GoatCitadel.Support.Sha256
import GoatCitadel.Contracts.CellDigest
import GoatCitadel.Contracts.PublicWebAddress
import GoatCitadel.Support.Retention
import GoatCitadel.Storage.CheckpointPruning
