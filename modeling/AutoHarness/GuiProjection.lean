import AutoHarness.ClientDelta

namespace AutoHarness.Gui

open Client (ClientSnapshot ActiveSessionDelta TransportRevision SnapshotReason)

section Values

/-- `encodeURIComponent`: bytes outside the unreserved ones are escaped. -/
def encodeURIComponent (text : String) : String :=
  let hex (n : UInt8) : Char := "0123456789ABCDEF".toList.getD n.toNat '0'
  String.ofList (text.toUTF8.data.toList.flatMap fun byte =>
    let character := Char.ofNat byte.toNat
    if byte < 128 && (character.isAlphanum || "-_.!~*'()".toList.contains character) then [character]
    else ['%', hex (byte / 16), hex (byte % 16)])

def modelRefKey (model : Client.ModelRef) : String :=
  encodeURIComponent model.providerId.value ++ "::" ++ encodeURIComponent model.modelId.value

inductive AttemptProjection where
  | idle
  | streaming (id : String) (startedAt : String)
  | cancelling (id : String)
  | completed (id : String) (inputTokens outputTokens : Option UInt64)
  | cancelled (id : String)
  | failed (id code message : String) (retryable : Bool)
deriving DecidableEq

def AttemptProjection.kind : AttemptProjection → String
  | .idle => "idle"
  | .streaming .. => "streaming"
  | .cancelling _ => "cancelling"
  | .completed .. => "completed"
  | .cancelled _ => "cancelled"
  | .failed .. => "failed"

inductive MessageRole where
  | user
  | agent
deriving DecidableEq

inductive ToolStatus where
  | waiting
  | running
  | denying
  | succeeded
  | denied
  | failed
deriving DecidableEq

inductive TranscriptItem where
  | message (id : String) (role : MessageRole) (content : String) (streaming : Option Bool)
  | tool (id name summary resource : String) (status : ToolStatus) (detail : Option String)
      (failure : Option (String × String))
deriving DecidableEq

/-- A summary; the time is the instant that its text names. -/
structure SessionSummary where
  id : String
  title : String
  updatedAt : Option Int64
  messageCount : Option UInt64
  archived : Bool
deriving DecidableEq

structure ActiveSessionProjection where
  id : String
  revision : UInt64
  title : String
  selectedModelId : Option String
  workspaceLabel : String
  transcript : List TranscriptItem
  attempt : AttemptProjection
deriving DecidableEq

structure PermissionRequest where
  id : String
  sessionId : String
  toolName : String
  capability : String
  resource : String
  reason : String
  trustedFields : List Client.PermissionDetail
deriving DecidableEq

inductive ActivityStatus where
  | complete
  | active
  | waiting
  | warning
deriving DecidableEq

structure ActivityItem where
  id : String
  label : String
  detail : String
  status : ActivityStatus
deriving DecidableEq

/-- What the renderer shows. The fields that no delta touches are kept as the wire has them. -/
structure GuiSnapshot where
  transportRevision : TransportRevision
  lifecycle : Client.ClientLifecycle
  catalog : Client.CatalogProjection
  providers : List Client.ProviderProjection
  settings : Client.ClientSettingsProjection
  memory : Client.MemoryProjection
  providerRecoveryPending : UInt64
  activeSessionId : Option String
  sessions : List SessionSummary
  activeSession : Option ActiveSessionProjection
  pendingPermission : Option PermissionRequest
  activity : List ActivityItem
deriving DecidableEq

end Values

section FromWire

def retryable : Client.AttemptState → Bool
  | .failed failure => failure.retry ≠ .never
  | _ => false

def attemptFromWire (attemptId : Client.AttemptId) (state : Client.AttemptState)
    (usage : Option Client.UsageProjection) : AttemptProjection :=
  match state with
  | .streaming => .streaming attemptId.value ""
  | .cancelling => .cancelling attemptId.value
  | .completed => .completed attemptId.value (usage.bind (·.inputTokens)) (usage.bind (·.outputTokens))
  | .cancelled => .cancelled attemptId.value
  | .failed failure => .failed attemptId.value failure.code failure.message (retryable state)

def toolStatus : Client.ToolCallState → ToolStatus
  | .completed => .succeeded
  | .denied => .denied
  | .denying => .denying
  | .failed _ | .cancelled | .unknown => .failed
  | .running => .running
  | .proposed | .permissionPending | .authorized => .waiting

/-- The name of a state with its underscores replaced; a failed one has a failure instead. -/
def toolDetail : Client.ToolCallState → Option String
  | .proposed => some "proposed"
  | .permissionPending => some "permission pending"
  | .authorized => some "authorized"
  | .denying => some "denying"
  | .running => some "running"
  | .completed => some "completed"
  | .failed _ => none
  | .denied => some "denied"
  | .cancelled => some "cancelled"
  | .unknown => some "unknown"

def toolFailure : Client.ToolCallState → Option (String × String)
  | .failed failure => some (failure.code, failure.message)
  | _ => none

def toolFromWire (tool : Client.ToolCallProjection) : TranscriptItem :=
  .tool tool.toolCallId.value tool.toolName (tool.summary.getD tool.capability) tool.resource
    (toolStatus tool.state) (toolDetail tool.state) (toolFailure tool.state)

def transcriptItemFromWire : Client.TranscriptItem → TranscriptItem
  | .user inputId content => .message inputId.value .user content.value none
  | .assistant attemptId content state _ _ => .message attemptId.value .agent content.value
      (some (state = .streaming || state = .cancelling))
  | .tool call => toolFromWire call

/-- The attempt that a row of the transcript shows. -/
def attemptOfItem : Client.TranscriptItem → Option AttemptProjection
  | .assistant attemptId _ state usage _ => some (attemptFromWire attemptId state usage)
  | _ => none

/-- The attempt of the last row that has one. -/
def latestAttempt (items : List Client.TranscriptItem) : Option AttemptProjection :=
  (items.filterMap attemptOfItem).getLast?

/-- A time outside the range of dates has no text. -/
def unixMillisToIso (value : Int64) : Option Int64 :=
  if value.toInt ≤ 8640000000000000 ∧ -8640000000000000 ≤ value.toInt then some value else none

def sessionSummaryFromWire (session : Client.SessionSummary) : SessionSummary :=
  ⟨session.sessionId.value, session.title.value, session.updatedAtMs.bind unixMillisToIso,
    session.messageCount, session.archived⟩

def permissionRequestFromWire (permission : Client.PermissionRequest) (sessionId : Client.SessionId) :
    PermissionRequest :=
  ⟨permission.toolCallId.value, sessionId.value, permission.toolName, permission.capability,
    permission.resource,
    "The durable runtime requires your answer before this exact tool call can continue.",
    permission.details⟩

def activeSessionFromWire (sessions : List Client.SessionSummary) (session : Client.SessionProjection) :
    ActiveSessionProjection where
  id := session.sessionId.value
  revision := session.revision
  title := ((sessions.find? (·.sessionId = session.sessionId)).map (·.title.value)).getD
    "Untitled session"
  selectedModelId := session.selectedModel.map modelRefKey
  workspaceLabel := "Local workspace"
  transcript := session.transcript.map transcriptItemFromWire
  attempt := (latestAttempt session.transcript).getD .idle

def permissionFromWire (session : Client.SessionProjection) : Option PermissionRequest :=
  session.permissionRequests.head?.map fun permission =>
    permissionRequestFromWire permission session.sessionId

def activityStatus : AttemptProjection → ActivityStatus
  | .streaming .. | .cancelling _ => .active
  | .failed .. => .warning
  | _ => .complete

def activityRows (revision : UInt64) (attempt : AttemptProjection) : List ActivityItem :=
  [⟨"replay", "Session projection", "revision " ++ toString revision, .complete⟩,
    ⟨"attempt", "Provider turn", attempt.kind, activityStatus attempt⟩]

/-- The projection of a snapshot that passed the checks. -/
def GuiSnapshot.ofWire (snapshot : ClientSnapshot) (revision : TransportRevision) : GuiSnapshot :=
  let activeSession := snapshot.activeSession.map (activeSessionFromWire snapshot.sessions)
  { transportRevision := revision
    lifecycle := snapshot.lifecycle
    catalog := snapshot.catalog
    providers := snapshot.providers
    settings := snapshot.settings
    memory := snapshot.memory
    providerRecoveryPending := snapshot.providerRecoveryPending
    activeSessionId := snapshot.activeSessionId.map (·.value)
    sessions := snapshot.sessions.map sessionSummaryFromWire
    activeSession := activeSession
    pendingPermission := snapshot.activeSession.bind permissionFromWire
    activity := (activeSession.map fun active => activityRows active.revision active.attempt).getD [] }

/-- `snapshotFromWire`. The page check of the renderer reads the memory page alone. -/
def snapshotFromWire (validateMemory : Client.MemoryProjection → Except String Unit)
    (snapshot : ClientSnapshot) (revision : TransportRevision) : Except String GuiSnapshot :=
  if snapshot.schemaVersion ≠ Client.clientSchemaVersion then .error "Unsupported host snapshot schema"
  else do
    validateMemory snapshot.memory
    .ok (.ofWire snapshot revision)

/-- A frame as the store receives it. -/
structure DeltaFrame where
  revision : TransportRevision
  sessionId : String
  sessionRevision : UInt64
  summary : SessionSummary
  selectedModelId : Option String
  transcript : ListSplice TranscriptItem
  attempt : Option AttemptProjection
  pendingPermission : Option PermissionRequest

def activeSessionDeltaFromWire (delta : ActiveSessionDelta) (revision : TransportRevision) :
    Except String DeltaFrame :=
  if delta.transcript.start > 65536 ∨ delta.transcript.deleteCount > 65536 ∨
      delta.transcript.items.length > 65536 then
    .error "Host published an invalid transcript delta range"
  else .ok {
    revision := revision
    sessionId := delta.sessionId.value
    sessionRevision := delta.revision
    summary := sessionSummaryFromWire delta.summary
    selectedModelId := delta.selectedModel.map modelRefKey
    transcript := delta.transcript.map transcriptItemFromWire
    attempt := latestAttempt delta.transcript.items
    pendingPermission := delta.permissionRequests.head?.map fun permission =>
      permissionRequestFromWire permission delta.sessionId }

end FromWire

end AutoHarness.Gui
