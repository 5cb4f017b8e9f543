import AutoHarness.Event
import AutoHarness.JsonText
import AutoHarness.Serde
import AutoHarness.ToolCapture

namespace AutoHarness

def ResourceRef.check (value : String) : Bool :=
  !isBlank value && decide (value.utf8ByteSize ≤ maxResourceBytes) && !value.toList.any isControl

def RunLimits.new (maxTurns : UInt32) (maxTimeMs maxTokens maxOutputBytes : UInt64)
    (maxConcurrency : UInt32) : Except ValueError RunLimits :=
  if maxTurns = 0 ∨ maxTimeMs = 0 ∨ maxTokens = 0 ∨ maxOutputBytes = 0 ∨ maxConcurrency = 0 then
    .error .invalidRunLimits
  else .ok ⟨maxTurns, maxTimeMs, maxTokens, maxOutputBytes, maxConcurrency⟩

def maxMediaTypeBytes : Nat := 255

def ArtifactRef.new (artifactId : ArtifactId) (byteLen : UInt64) (mediaType : String) :
    Except ValueError ArtifactRef :=
  if byteLen = 0 ∨ mediaType.isEmpty ∨ mediaType.utf8ByteSize > maxMediaTypeBytes ∨
      mediaType.toList.any isControl then .error .invalidArtifact
  else .ok ⟨artifactId, byteLen, mediaType⟩

def PromptText.new (value : String) : Except ValueError PromptText :=
  if h : isBlank value = false then .ok ⟨value, h⟩ else .error .emptyPrompt

def ResponseText.new (value : String) : Except ValueError ResponseText :=
  if h : value.isEmpty = false then .ok ⟨value, h⟩ else .error .emptyResponseText

def PublicMessage.new (value : String) : Except ValueError PublicMessage :=
  if nonblank : isBlank value = false then
    if bounded : value.utf8ByteSize ≤ maxPublicMessageBytes then .ok ⟨value, nonblank, bounded⟩
    else .error .publicMessageTooLong
  else .error .emptyPublicMessage

def Sha256Digest.new (value : String) : Except ValueError Sha256Digest :=
  if hex : (value.length == 64 &&
      value.toList.all fun c => c.isDigit || ('a' ≤ c && c ≤ 'f')) = true then .ok ⟨value, hex⟩
  else .error .invalidSha256Digest

def maxArgumentBytes : Nat := 64 * 1024

/-- The map of a JSON object keeps its keys sorted, so the second check never fails. -/
def ToolArguments.new (floatBytes : UInt64 → Nat) (value : JsonValue) :
    Except ValueError ToolArguments :=
  match value with
  | .object fields =>
    if (JsonValue.object fields).encodedBytes floatBytes > maxArgumentBytes then
      .error .invalidToolArguments
    else if sorted : (fields.map Prod.fst).Pairwise (· < ·) then .ok ⟨fields, sorted⟩
    else .error .invalidToolArguments
  | _ => .error .invalidToolArguments

namespace Serde

/-- An object, whose unknown keys are ignored, or an array of the fields in order. -/
def openShape (needed count : Nat) : JsonValue → Bool
  | .object _ => true
  | .array items => needed ≤ items.length && items.length ≤ count
  | _ => false

/-- The data of a derived struct, by the names of its fields. -/
def fields (names : List String) (value : JsonValue) : Option (String → Option JsonValue) :=
  if openShape names.length names.length value then some fun name => member names name value
  else none

/-- The data of a struct variant, which is read from an object only. -/
def variantFields (content : Option JsonValue) : Option (String → Option JsonValue) :=
  match content with
  | some (.object entries) => some fun name => entries.lookup name
  | _ => none

/-- The name of a variant without data: a text, or an object that maps it to `null`. -/
def variantName : JsonValue → Option String
  | .string name => some name
  | .object [(name, .null)] => some name
  | _ => none

/-- The tag and the content of an adjacently tagged enumeration. -/
def tagged (tag content : String) : JsonValue → Option (JsonValue × Option JsonValue)
  | .object entries => (entries.lookup tag).map fun kind => (kind, entries.lookup content)
  | .array [kind, value] => some (kind, some value)
  | _ => none

/-- An unsigned integer of the given width. -/
def u64 : JsonValue → Option UInt64
  | .number (.posInt value) => some value
  | _ => none

def u32 : JsonValue → Option UInt32
  | .number (.posInt value) => if value.toNat < 2 ^ 32 then some value.toUInt32 else none
  | _ => none

def u16 : JsonValue → Option UInt16
  | .number (.posInt value) => if value.toNat < 2 ^ 16 then some value.toUInt16 else none
  | _ => none

def i64 : JsonValue → Option Int64
  | .number (.posInt value) => if value.toNat < 2 ^ 63 then some value.toInt64 else none
  | .number (.negInt value) => some value
  | _ => none

end Serde

namespace EventJson

variable (floatBytes : UInt64 → Nat)

def checked {α : Type} (new : String → Except ValueError α) (value : JsonValue) : Option α :=
  (Serde.string value).bind fun text => (new text).toOption

def identifier {kind : IdentifierKind} : JsonValue → Option (Identifier kind) :=
  checked Identifier.new

def sequence (value : JsonValue) : Option SessionSequence :=
  (Serde.u64 value).bind fun number => (SessionSequence.new number.toNat).toOption

def timestamp (value : JsonValue) : Option TimestampMillis :=
  (Serde.i64 value).map TimestampMillis.mk

def causation (value : JsonValue) : Option Causation := do
  let (kind, content) ← Serde.tagged "kind" "id" value
  match ← Serde.variantName kind with
  | "command" => Serde.required (fun id => (identifier id).map .command) content
  | "event" => Serde.required (fun id => (identifier id).map .event) content
  | _ => none

def modelRef (value : JsonValue) : Option ModelRef := do
  let field ← Serde.fields ["provider_id", "model_id"] value
  let providerId ← Serde.required identifier (field "provider_id")
  let modelId ← Serde.required identifier (field "model_id")
  some ⟨providerId, modelId⟩

def deliveryMode : JsonValue → Option DeliveryMode :=
  Serde.variant [("next_turn", .nextTurn)]

/-- The last three fields have defaults, also in an array. -/
def usageSnapshot (value : JsonValue) : Option UsageSnapshot := do
  let names := ["input_tokens", "output_tokens", "total_tokens", "cached_input_tokens",
    "reasoning_tokens", "tool_tokens"]
  let field ←
    if Serde.openShape 3 names.length value then some fun name => Serde.member names name value
    else none
  let inputTokens ← Serde.optional Serde.u64 (field "input_tokens")
  let outputTokens ← Serde.optional Serde.u64 (field "output_tokens")
  let totalTokens ← Serde.optional Serde.u64 (field "total_tokens")
  let cachedInputTokens ← Serde.optional Serde.u64 (field "cached_input_tokens")
  let reasoningTokens ← Serde.optional Serde.u64 (field "reasoning_tokens")
  let toolTokens ← Serde.optional Serde.u64 (field "tool_tokens")
  some ⟨inputTokens, outputTokens, totalTokens, cachedInputTokens, reasoningTokens, toolTokens⟩

def errorClass : JsonValue → Option ErrorClass :=
  Serde.variant [("validation", .validation), ("not_found", .notFound), ("conflict", .conflict),
    ("authentication", .authentication), ("permission_denied", .permissionDenied),
    ("rate_limited", .rateLimited), ("timeout", .timeout), ("unavailable", .unavailable),
    ("cancelled", .cancelled), ("protocol", .protocol), ("storage", .storage),
    ("internal", .internal)]

/-- An internally tagged enumeration: the other fields of the value belong to the variant. -/
def retryAdvice (value : JsonValue) : Option RetryAdvice := do
  let (kind, delay) ←
    match value with
    | .object entries => some (← entries.lookup "kind", entries.lookup "delay_ms")
    | .array (kind :: rest) => some (kind, if rest.length = 1 then rest.head? else none)
    | _ => none
  match ← Serde.string kind with
  | "never" => some .never
  | "immediate" => some .immediate
  | "backoff" => some .backoff
  | "after" => (Serde.required Serde.u64 delay).map .after
  | _ => none

def attemptFailure (value : JsonValue) : Option AttemptFailure := do
  let field ← Serde.fields ["class", "code", "message", "retry_advice"] value
  let errorClass ← Serde.required errorClass (field "class")
  let code ← Serde.required identifier (field "code")
  let message ← Serde.required (checked PublicMessage.new) (field "message")
  let retryAdvice ← Serde.required retryAdvice (field "retry_advice")
  some ⟨errorClass, code, message, retryAdvice⟩

def runLimitsFields : List String :=
  ["max_turns", "max_time_ms", "max_tokens", "max_output_bytes", "max_concurrency"]

/-- A derived deserialization, which leaves the checks of the constructor out. -/
def runLimits (value : JsonValue) : Option RunLimits := do
  let field ← Serde.fields runLimitsFields value
  let maxTurns ← Serde.required Serde.u32 (field "max_turns")
  let maxTimeMs ← Serde.required Serde.u64 (field "max_time_ms")
  let maxTokens ← Serde.required Serde.u64 (field "max_tokens")
  let maxOutputBytes ← Serde.required Serde.u64 (field "max_output_bytes")
  let maxConcurrency ← Serde.required Serde.u32 (field "max_concurrency")
  some ⟨maxTurns, maxTimeMs, maxTokens, maxOutputBytes, maxConcurrency⟩

def capabilityKind : JsonValue → Option CapabilityKind :=
  Serde.variant [("invalid_tool_call", .invalidToolCall), ("memory_proposal", .memoryProposal),
    ("filesystem_read", .filesystemRead), ("filesystem_write", .filesystemWrite),
    ("process_execute", .processExecute), ("http_request", .httpRequest)]

def capabilityFields : List String := ["kind", "resource"]

/-- The resource is a transparent text, read without the checks of its constructor. -/
def capabilityRequest (value : JsonValue) : Option CapabilityRequest := do
  let field ← Serde.fields capabilityFields value
  let kind ← Serde.required capabilityKind (field "kind")
  let resource ← Serde.required Serde.string (field "resource")
  some ⟨kind, ⟨resource⟩⟩

def toolArguments (value : JsonValue) : Option ToolArguments :=
  (ToolArguments.new floatBytes value).toOption

def toolCallFields : List String :=
  ["tool_call_id", "provider_call_id", "tool_name", "schema_version", "arguments", "capability"]

def toolCallSpec (value : JsonValue) : Option ToolCallSpec := do
  let field ← Serde.fields toolCallFields value
  let toolCallId ← Serde.required identifier (field "tool_call_id")
  let providerCallId ← Serde.required identifier (field "provider_call_id")
  let toolName ← Serde.required identifier (field "tool_name")
  let schemaVersion ← Serde.required Serde.u16 (field "schema_version")
  let arguments ← Serde.required (toolArguments floatBytes) (field "arguments")
  let capability ← Serde.required capabilityRequest (field "capability")
  some ⟨toolCallId, providerCallId, toolName, schemaVersion, arguments, capability⟩

def permissionOutcome : JsonValue → Option PermissionOutcome :=
  Serde.variant [("deny", .deny), ("ask", .ask), ("allow", .allow)]

def permissionAnswer : JsonValue → Option PermissionAnswer :=
  Serde.variant [("allow_once", .allowOnce), ("deny", .deny)]

def artifactFields : List String := ["artifact_id", "byte_len", "media_type"]

/-- A derived deserialization, which leaves the checks of the constructor out. -/
def artifactRef (value : JsonValue) : Option ArtifactRef := do
  let field ← Serde.fields artifactFields value
  let artifactId ← Serde.required identifier (field "artifact_id")
  let byteLen ← Serde.required Serde.u64 (field "byte_len")
  let mediaType ← Serde.required Serde.string (field "media_type")
  some ⟨artifactId, byteLen, mediaType⟩

def toolOutputFields : List String := ["content", "artifact", "original_bytes", "truncated"]

def toolOutput (value : JsonValue) : Option ToolOutput := do
  let field ← Serde.fields toolOutputFields value
  let content ← Serde.required Serde.string (field "content")
  let artifact ← Serde.optional artifactRef (field "artifact")
  let originalBytes ← Serde.required Serde.u64 (field "original_bytes")
  let truncated ← Serde.required Serde.bool (field "truncated")
  (ToolOutput.new content artifact originalBytes truncated).toOption

abbrev PayloadReader : Type := Option JsonValue → Option EventPayload

/-- A variant without data: its content is absent or `null`. -/
def unitEvent (payload : EventPayload) : PayloadReader
  | none | some .null => some payload
  | _ => none

/-- A variant whose only field is its attempt. -/
def attemptEvent (make : AttemptId → EventPayload) : PayloadReader := fun content => do
  let field ← Serde.variantFields content
  let attemptId ← Serde.required identifier (field "attempt_id")
  some (make attemptId)

/-- A variant whose only field is its tool call. -/
def toolCallEvent (make : ToolCallId → EventPayload) : PayloadReader := fun content => do
  let field ← Serde.variantFields content
  let toolCallId ← Serde.required identifier (field "tool_call_id")
  some (make toolCallId)

/-- A variant of an attempt and one further value. -/
def attemptEventWith {α : Type} (make : AttemptId → α → EventPayload) (name : String)
    (read : JsonValue → Option α) : PayloadReader := fun content => do
  let field ← Serde.variantFields content
  let attemptId ← Serde.required identifier (field "attempt_id")
  let value ← Serde.required read (field name)
  some (make attemptId value)

/-- A variant of a tool call and one further value. -/
def toolCallEventWith {α : Type} (make : ToolCallId → α → EventPayload) (name : String)
    (read : JsonValue → Option α) : PayloadReader := fun content => do
  let field ← Serde.variantFields content
  let toolCallId ← Serde.required identifier (field "tool_call_id")
  let value ← Serde.required read (field name)
  some (make toolCallId value)

def sessionRenamed : PayloadReader := fun content => do
  let field ← Serde.variantFields content
  let title ← Serde.required (checked SessionTitle.new) (field "title")
  some (.sessionRenamed title)

def modelSelected : PayloadReader := fun content => do
  let field ← Serde.variantFields content
  let model ← Serde.required modelRef (field "model")
  some (.modelSelected model)

def inputAdmitted : PayloadReader := fun content => do
  let field ← Serde.variantFields content
  let inputId ← Serde.required identifier (field "input_id")
  let prompt ← Serde.required (checked PromptText.new) (field "prompt")
  let deliveryMode ← Serde.required deliveryMode (field "delivery_mode")
  some (.inputAdmitted inputId prompt deliveryMode)

def attemptPrepared : PayloadReader := fun content => do
  let field ← Serde.variantFields content
  let attemptId ← Serde.required identifier (field "attempt_id")
  let inputId ← Serde.required identifier (field "input_id")
  let model ← Serde.required modelRef (field "model")
  let retryOf ← Serde.optional identifier (field "retry_of")
  some (.attemptPrepared attemptId inputId model retryOf)

def contextTurnBound : PayloadReader := fun content => do
  let field ← Serde.variantFields content
  let attemptId ← Serde.required identifier (field "attempt_id")
  let runTurn ← Serde.required Serde.u32 (field "run_turn")
  let contextTurnId ← Serde.required identifier (field "context_turn_id")
  let manifestHash ← Serde.required (checked Sha256Digest.new) (field "manifest_hash")
  some (.contextTurnBound attemptId runTurn contextTurnId manifestHash)

def toolPermissionRecorded : PayloadReader := fun content => do
  let field ← Serde.variantFields content
  let toolCallId ← Serde.required identifier (field "tool_call_id")
  let decisionId ← Serde.required identifier (field "decision_id")
  let outcome ← Serde.required permissionOutcome (field "outcome")
  some (.toolPermissionRecorded toolCallId decisionId outcome)

def toolPermissionAnswered : PayloadReader := fun content => do
  let field ← Serde.variantFields content
  let toolCallId ← Serde.required identifier (field "tool_call_id")
  let decisionId ← Serde.required identifier (field "decision_id")
  let answer ← Serde.required permissionAnswer (field "answer")
  some (.toolPermissionAnswered toolCallId decisionId answer)

def payloadReaders : List (String × PayloadReader) :=
  [("session_created", unitEvent .sessionCreated), ("session_renamed", sessionRenamed),
    ("session_archived", unitEvent .sessionArchived),
    ("session_unarchived", unitEvent .sessionUnarchived), ("model_selected", modelSelected),
    ("input_admitted", inputAdmitted), ("attempt_prepared", attemptPrepared),
    ("attempt_started", attemptEvent .attemptStarted),
    ("attempt_text_appended",
      attemptEventWith .attemptTextAppended "text" (checked ResponseText.new)),
    ("attempt_usage_recorded", attemptEventWith .attemptUsageRecorded "usage" usageSnapshot),
    ("attempt_cancellation_requested", attemptEvent .attemptCancellationRequested),
    ("attempt_completed", attemptEvent .attemptCompleted),
    ("attempt_failed", attemptEventWith .attemptFailed "failure" attemptFailure),
    ("attempt_cancelled", attemptEvent .attemptCancelled),
    ("attempt_marked_unknown", attemptEvent .attemptMarkedUnknown),
    ("run_budget_configured", attemptEventWith .runBudgetConfigured "limits" runLimits),
    ("context_turn_bound", contextTurnBound),
    ("run_turn_started", attemptEventWith .runTurnStarted "turn" Serde.u32),
    ("tool_call_proposed", attemptEventWith .toolCallProposed "call" (toolCallSpec floatBytes)),
    ("tool_permission_recorded", toolPermissionRecorded),
    ("tool_permission_answered", toolPermissionAnswered),
    ("tool_call_started", toolCallEvent .toolCallStarted),
    ("tool_call_completed", toolCallEventWith .toolCallCompleted "output" toolOutput),
    ("tool_call_failed", toolCallEventWith .toolCallFailed "failure" attemptFailure),
    ("tool_call_denied", toolCallEvent .toolCallDenied),
    ("tool_call_cancelled", toolCallEvent .toolCallCancelled),
    ("tool_call_marked_unknown", toolCallEvent .toolCallMarkedUnknown),
    ("attempt_paused_for_tools", attemptEvent .attemptPausedForTools),
    ("attempt_resumed_after_tools", attemptEvent .attemptResumedAfterTools)]

def eventPayload (value : JsonValue) : Option EventPayload := do
  let (kind, content) ← Serde.tagged "kind" "payload" value
  let name ← Serde.variantName kind
  let read ← (payloadReaders floatBytes).lookup name
  read content

def envelopeFields : List String :=
  ["schema_version", "event_id", "session_id", "sequence", "occurred_at", "causation",
    "correlation_id", "payload"]

def eventEnvelope (value : JsonValue) : Option EventEnvelope := do
  let field ← Serde.fields envelopeFields value
  let schemaVersion ← Serde.required Serde.u16 (field "schema_version")
  let eventId ← Serde.required identifier (field "event_id")
  let sessionId ← Serde.required identifier (field "session_id")
  let sequence ← Serde.required sequence (field "sequence")
  let occurredAt ← Serde.required timestamp (field "occurred_at")
  let causation ← Serde.required causation (field "causation")
  let correlationId ← Serde.required identifier (field "correlation_id")
  let payload ← Serde.required (eventPayload floatBytes) (field "payload")
  some ⟨schemaVersion, eventId, sessionId, sequence, occurredAt, causation, correlationId, payload⟩

end EventJson

end AutoHarness
