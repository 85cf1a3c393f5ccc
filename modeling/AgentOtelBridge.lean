import AgentOtelBridge.Cli.HomePlan
import AgentOtelBridge.Cli.HomeUnwind
import AgentOtelBridge.Cli.HookLauncher
import AgentOtelBridge.Cli.HookSync
import AgentOtelBridge.Cli.LocalRollback
import AgentOtelBridge.Cli.OtlpAgreement
import AgentOtelBridge.Cli.PiExtension
import AgentOtelBridge.Cli.Scanner
import AgentOtelBridge.Client.HeaderArguments
import AgentOtelBridge.Client.NativeStreams
import AgentOtelBridge.Core.CommandSegments
import AgentOtelBridge.Core.DualDialect
import AgentOtelBridge.Core.GitHead
import AgentOtelBridge.Core.InputAuthority
import AgentOtelBridge.Core.JsonComplexity
import AgentOtelBridge.Core.PlatformLookup
import AgentOtelBridge.Core.ProviderAgreement
import AgentOtelBridge.Core.Traceparent
import AgentOtelBridge.Daemon.Baggage
import AgentOtelBridge.Daemon.BatchAccounting
import AgentOtelBridge.Daemon.Config
import AgentOtelBridge.Daemon.Conservation
import AgentOtelBridge.Daemon.ContextBound
import AgentOtelBridge.Daemon.ContextFreshness
import AgentOtelBridge.Daemon.ContextGauge
import AgentOtelBridge.Daemon.ConversationIsolation
import AgentOtelBridge.Daemon.Exporter
import AgentOtelBridge.Daemon.FrameConservation
import AgentOtelBridge.Daemon.MetricsSize
import AgentOtelBridge.Daemon.PiToolCalls
import AgentOtelBridge.Daemon.QuotaCountdown
import AgentOtelBridge.Daemon.QuotaGauges
import AgentOtelBridge.Daemon.ResourceMerge
import AgentOtelBridge.Daemon.SignalHeaders
import AgentOtelBridge.Daemon.SpanIdentity
import AgentOtelBridge.Daemon.SpanKeys
import AgentOtelBridge.Daemon.SpanOrder
import AgentOtelBridge.Daemon.WorkspacePrivacy
import AgentOtelBridge.Ipc.Admission
import AgentOtelBridge.Ipc.Envelope
import AgentOtelBridge.Ipc.ListenerExclusion
import AgentOtelBridge.Lib.F64
import AgentOtelBridge.Lib.Upsert
import AgentOtelBridge.Lib.Utf8Lossy
import AgentOtelBridge.Daemon.Fleet
import AgentOtelBridge.Daemon.ContextWhole
import AgentOtelBridge.Flow.Revocation
import AgentOtelBridge.Flow.Completion
import AgentOtelBridge.Flow.RunStore
