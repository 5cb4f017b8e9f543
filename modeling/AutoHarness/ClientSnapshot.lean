import AutoHarness.ClientValue
import Mathlib.Algebra.GroupWithZero.Nat

namespace AutoHarness.Client

section Memory

inductive MemoryStatus where
  | active
  | proposed
  | conflicting
  | superseded
  | rejected
  | retracted
  | expired
  | deleted
deriving DecidableEq

inductive MemoryScope where
  | user
  | workspace
  | session
  | agent
deriving DecidableEq

inductive MemoryTrust where
  | userApproved
  | verifiedObservation
  | imported
  | untrustedProposal
deriving DecidableEq

inductive MemoryOrigin where
  | explicitUser
  | verifiedTool
  | importedDocument
  | modelProposal
  | compaction
deriving DecidableEq

inductive MemorySensitivity where
  | public_
  | internal
  | sensitive
  | secret
deriving DecidableEq

inductive MemoryEvidenceAvailability where
  | retained
  | absent
  | erased
deriving DecidableEq

inductive MemoryRelationKind where
  | duplicateOf
  | contradicts
  | refines
  | supersedes
  | related
  | derivedFrom
deriving DecidableEq

inductive MemoryFindingKind where
  | duplicate
  | contradiction
  | secretDetected
  | unsupportedScope
  | malformedContent
  | policyConflict
  | injectionPattern
  | ungroundedEvidence
deriving DecidableEq

structure MemoryEvidence where
  label : MemoryText
  source : MemoryText
  excerpt : Option MemoryText
  availability : MemoryEvidenceAvailability
deriving DecidableEq

structure MemoryRelation where
  kind : MemoryRelationKind
  memoryId : MemoryId
deriving DecidableEq

structure MemoryFinding where
  kind : MemoryFindingKind
  relatedMemoryId : MemoryText
  summary : MemoryText
deriving DecidableEq

structure MemoryRevisionContext where
  expectedLastSequence : UInt64
  revisionId : MemoryId
  proposalRevisionId : Option MemoryId
  scopeIdentity : MemoryText
  origin : MemoryOrigin
  sensitivity : MemorySensitivity
  evidence : List MemoryEvidence
  relations : List MemoryRelation
  findings : List MemoryFinding
deriving DecidableEq

structure MemoryAdmissionContext where
  providerAttempt : MemoryText
  runTurn : UInt32
  epoch : MemoryText
  tokenCount : UInt32
  sourceRevision : MemoryText
  rendererVersion : MemoryText
  reasonFactors : List MemoryText
deriving DecidableEq

structure MemoryAdmission where
  session : MemoryText
  model : MemoryText
  reason : MemoryText
  admittedAtMs : Int64
  rank : UInt32
  context : Option MemoryAdmissionContext
deriving DecidableEq

structure MemoryDetail where
  revision : UInt32
  content : Option MemoryText
  source : MemoryText
  trust : MemoryTrust
  createdAtMs : Int64
  validUntilMs : Option Int64
  admissions : List MemoryAdmission
  revisionContext : Option MemoryRevisionContext
deriving DecidableEq

structure MemoryRow where
  memoryId : MemoryId
  preview : MemoryText
  status : MemoryStatus
  scope : MemoryScope
  updatedAtMs : Int64
  confidenceBps : Option UInt16
  admissionCount : UInt32
  detail : Option MemoryDetail
deriving DecidableEq

inductive MemoryLoadState where
  | ready
  | loading
  | failed (failure : SafeFailure)
deriving DecidableEq

structure MemoryProjection where
  viewGeneration : UInt64
  generation : UInt64
  state : MemoryLoadState
  rows : List MemoryRow
  total : UInt32
  stale : Bool
  nextCursor : Option MemoryText
deriving DecidableEq

/-- `Default for MemoryProjection`. -/
def MemoryProjection.default : MemoryProjection := ⟨0, 0, .ready, [], 0, false, none⟩

def MemoryDetail.validate (detail : MemoryDetail) : Except ValidationError Unit := do
  validateCount "memory_admissions" detail.admissions.length 64
  detail.admissions.forM fun admission => admission.context.forM fun context =>
    validateCount "memory_reason_factors" context.reasonFactors.length 16
  detail.revisionContext.forM fun context => do
    validateCount "memory_evidence" context.evidence.length 64
    validateCount "memory_relations" context.relations.length 64
    validateCount "memory_findings" context.findings.length 352

/-- The bound on the serialized page stands for the serialization. -/
def MemoryProjection.validate (pageBytes : MemoryProjection → Nat) (memory : MemoryProjection) :
    Except ValidationError Unit := do
  validateCount "memory_rows" memory.rows.length 100
  if ¬ (memory.rows.map (·.memoryId)).Nodup ∨ memory.total.toNat < memory.rows.length then
    .error (.inconsistent "memory_rows")
  else
    memory.rows.forM fun row => row.detail.forM MemoryDetail.validate
    if pageBytes memory > maxMemoryPageBytes then
      .error (.tooLong "memory_page" maxMemoryPageBytes (maxMemoryPageBytes + 1))

end Memory

section Transcript

structure UsageProjection where
  inputTokens : Option UInt64
  outputTokens : Option UInt64
  cachedInputTokens : Option UInt64
  reasoningTokens : Option UInt64
  toolTokens : Option UInt64
  totalTokens : Option UInt64
deriving DecidableEq

inductive AttemptState where
  | streaming
  | cancelling
  | completed
  | cancelled
  | failed (failure : SafeFailure)
deriving DecidableEq

inductive ToolCallState where
  | proposed
  | permissionPending
  | authorized
  | denying
  | running
  | completed
  | failed (failure : SafeFailure)
  | denied
  | cancelled
  | unknown
deriving DecidableEq

structure ToolCallProjection where
  toolCallId : ToolCallId
  toolName : String
  capability : String
  resource : String
  state : ToolCallState
  summary : Option String
deriving DecidableEq

inductive TranscriptItem where
  | user (inputId : InputId) (content : TranscriptContent)
  | assistant (attemptId : AttemptId) (content : TranscriptContent) (state : AttemptState)
      (usage : Option UsageProjection) (retryOf : Option AttemptId)
  | tool (call : ToolCallProjection)
deriving DecidableEq

structure PermissionDetail where
  label : String
  value : String
deriving DecidableEq

def PermissionDetail.validate (detail : PermissionDetail) : Except ValidationError Unit := do
  validateNonEmptySecurityText "permission_detail_label" detail.label maxLabelBytes
  validateSecurityText "permission_detail_value" detail.value maxPermissionDetailBytes

structure PermissionRequest where
  toolCallId : ToolCallId
  toolName : String
  capability : String
  resource : String
  details : List PermissionDetail
deriving DecidableEq

namespace PermissionRequest

def totalBytes (request : PermissionRequest) : Nat :=
  request.toolName.utf8ByteSize + request.capability.utf8ByteSize + request.resource.utf8ByteSize +
    (request.details.map fun detail => detail.label.utf8ByteSize + detail.value.utf8ByteSize).sum

def validate (request : PermissionRequest) : Except ValidationError Unit := do
  validateNonEmptySecurityText "permission_tool_name" request.toolName maxLabelBytes
  validateNonEmptySecurityText "permission_capability" request.capability maxLabelBytes
  validateNonEmptySecurityText "permission_resource" request.resource maxPermissionDetailBytes
  validateCount "permission_details" request.details.length maxPermissionDetails
  request.details.forM PermissionDetail.validate
  if request.totalBytes > maxPermissionTotalBytes then
    .error (.tooLong "permission_request" maxPermissionTotalBytes request.totalBytes)

end PermissionRequest

/-- Each request is valid and its tool call is not pending twice. -/
def checkPermissions (pending : List ToolCallId) : List PermissionRequest → Except ValidationError Unit
  | [] => .ok ()
  | request :: rest => do
    request.validate
    if request.toolCallId ∈ pending then .error (.inconsistent "permission_requests")
    else checkPermissions (request.toolCallId :: pending) rest

def checkSession (transcript : List TranscriptItem) (permissionRequests : List PermissionRequest) :
    Except ValidationError Unit := do
  validateCount "transcript" transcript.length maxTranscriptItems
  validateCount "permission_requests" permissionRequests.length maxPermissionRequests
  checkPermissions [] permissionRequests

/-- The active session, as its constructor admits it. -/
structure SessionProjection where
  sessionId : SessionId
  revision : UInt64
  selectedModel : Option ModelRef
  transcript : List TranscriptItem
  permissionRequests : List PermissionRequest
  checked : checkSession transcript permissionRequests = .ok ()
deriving DecidableEq

def SessionProjection.new (sessionId : SessionId) (revision : UInt64) (selectedModel : Option ModelRef)
    (transcript : List TranscriptItem) (permissionRequests : List PermissionRequest) :
    Except ValidationError SessionProjection :=
  match h : checkSession transcript permissionRequests with
  | .ok () => .ok ⟨sessionId, revision, selectedModel, transcript, permissionRequests, h⟩
  | .error error => .error error

structure SessionSummary where
  sessionId : SessionId
  title : SessionTitle
  revision : Option UInt64
  selectedModel : Option ModelRef
  updatedAtMs : Option Int64
  messageCount : Option UInt64
  archived : Bool
deriving DecidableEq

end Transcript

section Catalog

inductive CapabilitySupport where
  | supported
  | unsupported
  | unknown
deriving DecidableEq

structure ModelSummary where
  model : ModelRef
  displayName : String
  detail : String
  contextWindowTokens : Option UInt64
  selectable : Bool
  chat : CapabilitySupport
  streaming : CapabilitySupport
  thinking : CapabilitySupport
  toolCalling : CapabilitySupport
deriving DecidableEq

def ModelSummary.validate (model : ModelSummary) : Except ValidationError Unit := do
  validateNonEmptyText "model_display_name" model.displayName maxLabelBytes
  validateText "model_detail" model.detail maxDetailBytes

inductive CatalogProjection where
  | credentialRequired
  | loading
  | ready (generation : UInt64) (models : List ModelSummary) (stale : Bool)
  | failed (failure : SafeFailure)
deriving DecidableEq

def CatalogProjection.validate : CatalogProjection → Except ValidationError Unit
  | .ready _ models _ => do
    validateCount "catalog_models" models.length maxCatalogModels
    models.forM ModelSummary.validate
    if ¬ (models.map (·.model)).Nodup then .error (.inconsistent "catalog_models")
  | _ => .ok ()

inductive ProviderKind where
  | gemini
  | router
  | codexSubscription
deriving DecidableEq

structure ProviderConfiguration where
  kind : ProviderKind
  baseUrl : Option String
  project : Option String
  authHeader : Option String
deriving DecidableEq

def validateProfileField (field : String) (value : String) : Except ValidationError Unit := do
  validateText field value maxProfileFieldBytes
  if value.isEmpty || value.toList.any isControl then .error (.invalid field)

def ProviderConfiguration.validate (configuration : ProviderConfiguration) :
    Except ValidationError Unit :=
  match configuration.kind with
  | .router => do
    configuration.baseUrl.forM fun baseUrl => do
      validateNonEmptyText "provider_base_url" baseUrl maxRouterUrlBytes
      if baseUrl.toList.any isControl then .error (.invalid "provider_base_url")
    configuration.project.forM (validateProfileField "provider_project")
    configuration.authHeader.forM (validateProfileField "provider_auth_header")
  | .gemini | .codexSubscription =>
    if configuration.baseUrl.isSome || configuration.project.isSome ||
        configuration.authHeader.isSome then .error (.inconsistent "provider_configuration")
    else .ok ()

inductive ProviderProfileScope where
  | named
  | sessionDefault
deriving DecidableEq

inductive ProviderStatus where
  | disconnected
  | credentialRequired
  | untested
  | connecting
  | ready
  | offline
  | failed (failure : SafeFailure)
deriving DecidableEq

inductive CredentialSource where
  | none
  | environment
  | vault
  | sessionOnly
deriving DecidableEq

inductive ProviderCredentialState where
  | disconnected
  | stored
  | recoveryPending
deriving DecidableEq

inductive ReasoningEffort where
  | none
  | minimal
  | low
  | medium
  | high
  | xhigh
  | max
deriving DecidableEq

structure ProviderProjection where
  connectionId : ConnectionId
  providerId : ProviderId
  displayName : String
  configuration : ProviderConfiguration
  scope : ProviderProfileScope
  active : Bool
  status : ProviderStatus
  credentialSource : CredentialSource
  credentialState : ProviderCredentialState
  defaultModel : Option ModelRef
  defaultReasoningEffort : Option ReasoningEffort
deriving DecidableEq

def ProviderProjection.validate (provider : ProviderProjection) : Except ValidationError Unit := do
  validateNonEmptyText "provider_display_name" provider.displayName maxLabelBytes
  provider.configuration.validate
  if provider.credentialSource = .none ∧ provider.status = .ready then
    .error (.inconsistent "provider_status")
  else if provider.defaultModel.any fun model => model.providerId ≠ provider.providerId then
    .error (.inconsistent "provider_default_model")
  else if provider.defaultReasoningEffort.isSome ∧ provider.defaultModel.isNone then
    .error (.inconsistent "provider_default_reasoning_effort")
  else if provider.credentialSource = .vault ∧ provider.credentialState ≠ .stored then
    .error (.inconsistent "provider_credential_state")

end Catalog

section Settings

inductive PreferenceSource where
  | default
  | userFile
  | workspaceFile
  | environment
  | commandLine
deriving DecidableEq

structure EffectiveSetting (α : Type) where
  value : α
  source : PreferenceSource
  userOverride : Bool
deriving DecidableEq

structure ClientSettingsProjection where
  themePreset : EffectiveSetting ThemePreset
  colorMode : EffectiveSetting ColorMode
  zoomPercent : EffectiveSetting GuiZoomPercent
  fontSize : EffectiveSetting GuiFontSize
  density : EffectiveSetting Density
  reducedMotion : EffectiveSetting Bool
  timestampStyle : EffectiveSetting TimestampStyle
  composerSubmitBehavior : EffectiveSetting ComposerSubmitBehavior
deriving DecidableEq

end Settings

inductive ClientLifecycle where
  | starting
  | ready
  | offline
  | shuttingDown
  | failed (failure : SafeFailure)
deriving DecidableEq

def clientSchemaVersion : UInt16 := 4

/-- The complete baseline of a client. -/
structure ClientSnapshot where
  memory : MemoryProjection
  schemaVersion : UInt16
  lifecycle : ClientLifecycle
  activeSessionId : Option SessionId
  sessions : List SessionSummary
  activeSession : Option SessionProjection
  catalog : CatalogProjection
  providers : List ProviderProjection
  settings : ClientSettingsProjection
  providerRecoveryPending : UInt64
deriving DecidableEq

namespace ClientSnapshot

def withMemory (pageBytes : MemoryProjection → Nat) (snapshot : ClientSnapshot)
    (memory : MemoryProjection) : Except ValidationError ClientSnapshot := do
  memory.validate pageBytes
  .ok { snapshot with memory }

/-- The active session is named and listed, or there is none. -/
def checkActive (activeSessionId : Option SessionId) (sessions : List SessionSummary)
    (activeSession : Option SessionProjection) : Except ValidationError Unit :=
  match activeSessionId, activeSession with
  | none, none => .ok ()
  | some identity, some session =>
    if identity = session.sessionId ∧ identity ∈ sessions.map (·.sessionId) then .ok ()
    else .error (.inconsistent "active_session")
  | _, _ => .error (.inconsistent "active_session")

def check (activeSessionId : Option SessionId) (sessions : List SessionSummary)
    (activeSession : Option SessionProjection) (catalog : CatalogProjection)
    (providers : List ProviderProjection) : Except ValidationError Unit := do
  validateCount "sessions" sessions.length maxSessions
  validateCount "providers" providers.length maxProviders
  catalog.validate
  providers.forM ProviderProjection.validate
  if ¬ (sessions.map (·.sessionId)).Nodup then .error (.inconsistent "sessions")
  else if ¬ (providers.map (·.connectionId)).Nodup ∨ (providers.filter (·.active)).length > 1 then
    .error (.inconsistent "providers")
  else checkActive activeSessionId sessions activeSession

def new (lifecycle : ClientLifecycle) (activeSessionId : Option SessionId)
    (sessions : List SessionSummary) (activeSession : Option SessionProjection)
    (catalog : CatalogProjection) (providers : List ProviderProjection)
    (settings : ClientSettingsProjection) (providerRecoveryPending : UInt64) :
    Except ValidationError ClientSnapshot := do
  check activeSessionId sessions activeSession catalog providers
  .ok ⟨.default, clientSchemaVersion, lifecycle, activeSessionId, sessions, activeSession, catalog,
    providers, settings, providerRecoveryPending⟩

end ClientSnapshot

end AutoHarness.Client
