import AutoHarness.FallibleRun
import AutoHarness.IndexedList
import AutoHarness.Interleaving
import AutoHarness.Paging
import AutoHarness.Identifier
import AutoHarness.FreshIdentifier
import AutoHarness.Value
import AutoHarness.Tool
import AutoHarness.ToolPlan
import AutoHarness.Command
import AutoHarness.Event
import AutoHarness.Aggregate
import AutoHarness.AggregateDecide
import AutoHarness.AggregateApply
import AutoHarness.AggregateStep
import AutoHarness.AggregateInversion
import AutoHarness.AggregateProgress
import AutoHarness.AggregateLog
import AutoHarness.AggregateRepresentation
import AutoHarness.AggregateDecision
import AutoHarness.AggregateAgreement
import AutoHarness.AttemptSettlement
import AutoHarness.ContextBinding
import AutoHarness.ToolAuthorization
import AutoHarness.Engine
import AutoHarness.EngineReplay
import AutoHarness.EnginePrepare
import AutoHarness.EngineLive
import AutoHarness.EngineAgreement
import AutoHarness.ArchiveGuard
import AutoHarness.AttemptRelease
import AutoHarness.StorePort
import AutoHarness.Durable
import AutoHarness.ListStore
import AutoHarness.DurableRecovery
import AutoHarness.DurableCoherence
import AutoHarness.SortedMap
import AutoHarness.CompactionReader
import AutoHarness.CompactionAgreement
import AutoHarness.CompactionPrefix
import AutoHarness.CompactionFacts
import AutoHarness.KeyedTable
import AutoHarness.Memory
import AutoHarness.MemoryValidator
import AutoHarness.MemoryPlan
import AutoHarness.MemoryTables
import AutoHarness.MemoryStore
import AutoHarness.MemoryPlanned
import AutoHarness.MemoryFrame
import AutoHarness.MemoryWrites
import AutoHarness.MemoryAppend
import AutoHarness.MemoryLifecycle
import AutoHarness.MemoryRun
import AutoHarness.MemoryErasure
import AutoHarness.MemoryDeletion
import AutoHarness.MemoryLedger
import AutoHarness.MemoryProgress
import AutoHarness.MemoryReady
import AutoHarness.MemoryEncoding
import AutoHarness.MemoryAgreement
import AutoHarness.MemoryCommit
import AutoHarness.MemoryReader
import AutoHarness.MemoryReadable
import AutoHarness.MemoryReadableRun
import AutoHarness.MemoryInspection
import AutoHarness.SessionTables
import AutoHarness.SessionProjection
import AutoHarness.SqliteSessions
import AutoHarness.ContextTurns
import AutoHarness.SessionView
import AutoHarness.SessionSourced
import AutoHarness.SessionMirror
import AutoHarness.SessionWrites
import AutoHarness.SessionReplay
import AutoHarness.SessionEffect
import AutoHarness.SessionAdmission
import AutoHarness.SessionLive
import AutoHarness.SessionArrival
import AutoHarness.SessionAppend
import AutoHarness.SessionRemoval
import AutoHarness.SessionContext
import AutoHarness.SessionRebuild
import AutoHarness.Chunks
import AutoHarness.Credential
import AutoHarness.Vault
import AutoHarness.KeyringVault
import AutoHarness.KeyringWrites
import AutoHarness.KeyringState
import AutoHarness.KeyringFailures
import AutoHarness.KeyringMap
import AutoHarness.EffectProgram
import AutoHarness.Preferences
import AutoHarness.SettingsDocument
import AutoHarness.ProfileStore
import AutoHarness.ProfileManager
import AutoHarness.ProfileConsistency
import AutoHarness.ProfileSafety
import AutoHarness.ProfileCrash
import AutoHarness.ProfileRecovery
import AutoHarness.Serde
import AutoHarness.SettingsParser
import AutoHarness.JsonText
import AutoHarness.SettingsResolver
import AutoHarness.WorkspaceFilter
import AutoHarness.WorkspaceConfinement
import AutoHarness.ListSplice
import AutoHarness.ClientValue
import AutoHarness.ClientSnapshot
import AutoHarness.ClientDelta
import AutoHarness.GuiProjection
import AutoHarness.ClientStore
import AutoHarness.GuiDelta
import AutoHarness.StoreResync
import AutoHarness.BridgeActor
import AutoHarness.BridgeMoves
import AutoHarness.BridgePath
import AutoHarness.BridgeEvents
import AutoHarness.BridgeDelivery
import AutoHarness.BridgeSettlement
import AutoHarness.CodexLogin
import AutoHarness.FileTree
import AutoHarness.Capability
import AutoHarness.CapabilityConfinement
import AutoHarness.ToolPermission
import AutoHarness.ToolTarget
import AutoHarness.Sse
import AutoHarness.SseLines
import AutoHarness.SseFragmentation
import AutoHarness.Recovery
import AutoHarness.RecoverySettlement
import AutoHarness.RecoveryOutcome
import AutoHarness.RecoveryIdempotence
import AutoHarness.ChatRequest
import AutoHarness.RequestHistory
import AutoHarness.ToolCapture
import AutoHarness.RequestContinuation
import AutoHarness.CompactionGroups
import AutoHarness.ConversationHistory
import AutoHarness.EventJson
import AutoHarness.EventStrictness
import AutoHarness.ProviderTurns
import AutoHarness.MemoryProposals
import AutoHarness.KeyedRows
import AutoHarness.TranscriptExport
import AutoHarness.PrefixCode
import AutoHarness.StreamSearch
import AutoHarness.SecurityText
import AutoHarness.PermissionDisplay
import AutoHarness.SecretAccumulator
import AutoHarness.SlidingWindow
import AutoHarness.RateLimit
import AutoHarness.JsonString
import AutoHarness.JsonParser
import AutoHarness.ContextSource
import AutoHarness.ContextRank
import AutoHarness.ContextRender
import AutoHarness.ContextAdmission
import AutoHarness.GreedySelection
import AutoHarness.ContextBuilder
import AutoHarness.ContextBoundary
import AutoHarness.ContextLimits
import AutoHarness.ContextSelection
import AutoHarness.ContextBudget
import AutoHarness.ContextManifest
import AutoHarness.ContextSeal
import AutoHarness.SortedLists
import AutoHarness.ContextOrder
import AutoHarness.ManifestBinding
import AutoHarness.ContextRecord
import AutoHarness.ContextDecoder
import AutoHarness.CompactedHistory
import AutoHarness.ContextRoundTrip
import AutoHarness.CodexCredential
import AutoHarness.CodexReuse
import AutoHarness.UsageAccounting
import AutoHarness.ToolIngress
import AutoHarness.CaptureBounds
import AutoHarness.BudgetRun
import AutoHarness.PermissionDetails
import AutoHarness.DerivedTitle
import AutoHarness.MemoryAnalysis
import AutoHarness.DurableFacts
import AutoHarness.HistoryCompaction
import AutoHarness.FrozenContinuation
import AutoHarness.PromptRedaction
import AutoHarness.ContextSnapshot
import AutoHarness.OpenAiStream
import AutoHarness.OpenAiAssembly
import AutoHarness.OpenAiContract
import AutoHarness.SessionLedger
import AutoHarness.SessionRetry
import AutoHarness.SessionReads
import AutoHarness.SqliteEngine
import AutoHarness.ProjectionTold
import AutoHarness.ProjectionReads
import AutoHarness.SessionAgreement
