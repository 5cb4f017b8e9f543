import AutoHarness.AggregateLog
import AutoHarness.EventJson

namespace AutoHarness

open EventJson

/-- A domain value that has a validating constructor. -/
inductive DomainValue where
  | identifier {kind : IdentifierKind} (id : Identifier kind)
  | sequence (sequence : SessionSequence)
  | title (title : SessionTitle)
  | prompt (prompt : PromptText)
  | response (text : ResponseText)
  | message (message : PublicMessage)
  | digest (digest : Sha256Digest)
  | arguments (arguments : ToolArguments)
  | resource (resource : ResourceRef)
  | limits (limits : RunLimits)
  | artifact (artifact : ArtifactRef)
  | output (output : ToolOutput)

/-- The constructor returns the value for its own parts. -/
def DomainValue.Constructible (floatBytes : UInt64 → Nat) : DomainValue → Prop
  | .identifier id => Identifier.new id.value = .ok id
  | .sequence q => SessionSequence.new q.get = .ok q
  | .title t => SessionTitle.new t.value = .ok t
  | .prompt p => PromptText.new p.value = .ok p
  | .response text => ResponseText.new text.value = .ok text
  | .message m => PublicMessage.new m.value = .ok m
  | .digest d => Sha256Digest.new d.value = .ok d
  | .arguments a => ToolArguments.new floatBytes (.object a.fields) = .ok a
  | .resource r => ResourceRef.new r.value = .ok r
  | .limits l =>
    RunLimits.new l.maxTurns l.maxTimeMs l.maxTokens l.maxOutputBytes l.maxConcurrency = .ok l
  | .artifact a => ArtifactRef.new a.artifactId a.byteLen a.mediaType = .ok a
  | .output o => ToolOutput.new o.content o.artifact o.originalBytes o.truncated = .ok o

def ModelRef.embedded (model : ModelRef) : List DomainValue :=
  [.identifier model.providerId, .identifier model.modelId]

def AttemptFailure.embedded (failure : AttemptFailure) : List DomainValue :=
  [.identifier failure.code, .message failure.message]

def ToolCallSpec.embedded (call : ToolCallSpec) : List DomainValue :=
  [.identifier call.toolCallId, .identifier call.providerCallId, .identifier call.toolName,
    .arguments call.arguments, .resource call.capability.resource]

def ArtifactRef.embedded (artifact : ArtifactRef) : List DomainValue :=
  [.identifier artifact.artifactId, .artifact artifact]

def ToolOutput.embedded (output : ToolOutput) : List DomainValue :=
  .output output :: (output.artifact.map ArtifactRef.embedded).getD []

def EventPayload.embedded : EventPayload → List DomainValue
  | .sessionCreated | .sessionArchived | .sessionUnarchived => []
  | .sessionRenamed title => [.title title]
  | .modelSelected model => model.embedded
  | .inputAdmitted inputId prompt _ => [.identifier inputId, .prompt prompt]
  | .attemptPrepared attemptId inputId model retryOf =>
    [.identifier attemptId, .identifier inputId] ++ model.embedded ++
      (retryOf.map .identifier).toList
  | .attemptStarted attemptId | .attemptCancellationRequested attemptId
  | .attemptCompleted attemptId | .attemptCancelled attemptId | .attemptMarkedUnknown attemptId
  | .attemptPausedForTools attemptId | .attemptResumedAfterTools attemptId
  | .attemptUsageRecorded attemptId _ | .runTurnStarted attemptId _ => [.identifier attemptId]
  | .attemptTextAppended attemptId text => [.identifier attemptId, .response text]
  | .attemptFailed attemptId failure => .identifier attemptId :: failure.embedded
  | .runBudgetConfigured attemptId limits => [.identifier attemptId, .limits limits]
  | .contextTurnBound attemptId _ contextTurnId manifestHash =>
    [.identifier attemptId, .identifier contextTurnId, .digest manifestHash]
  | .toolCallProposed attemptId call => .identifier attemptId :: call.embedded
  | .toolPermissionRecorded toolCallId decisionId _
  | .toolPermissionAnswered toolCallId decisionId _ =>
    [.identifier toolCallId, .identifier decisionId]
  | .toolCallStarted toolCallId | .toolCallDenied toolCallId | .toolCallCancelled toolCallId
  | .toolCallMarkedUnknown toolCallId => [.identifier toolCallId]
  | .toolCallCompleted toolCallId output => .identifier toolCallId :: output.embedded
  | .toolCallFailed toolCallId failure => .identifier toolCallId :: failure.embedded

def Causation.embedded : Causation → List DomainValue
  | .command commandId => [.identifier commandId]
  | .event eventId => [.identifier eventId]

/-- Every value of an event that some constructor validates. -/
def EventEnvelope.embedded (event : EventEnvelope) : List DomainValue :=
  [.identifier event.eventId, .identifier event.sessionId, .sequence event.sequence] ++
    event.causation.embedded ++ .identifier event.correlationId :: event.payload.embedded

section Constructible

variable {floatBytes : UInt64 → Nat}

@[simp] theorem identifier_constructible {kind : IdentifierKind} (id : Identifier kind) :
    (DomainValue.identifier id).Constructible floatBytes := by
  show Identifier.new id.value = .ok id
  unfold Identifier.new
  split
  next => rfl
  next e h => cases id.valid.symm.trans h

@[simp] theorem sequence_constructible (sequence : SessionSequence) :
    (DomainValue.sequence sequence).Constructible floatBytes := by
  have positive := sequence.positive
  have nonzero : sequence.get ≠ 0 := by omega
  show SessionSequence.new sequence.get = .ok sequence
  simp [SessionSequence.new, sequence.bounded, nonzero]

@[simp] theorem prompt_constructible (prompt : PromptText) :
    (DomainValue.prompt prompt).Constructible floatBytes := by
  show PromptText.new prompt.value = .ok prompt
  simp [PromptText.new, prompt.nonblank]

@[simp] theorem response_constructible (text : ResponseText) :
    (DomainValue.response text).Constructible floatBytes := by
  show ResponseText.new text.value = .ok text
  unfold ResponseText.new
  rw [dif_pos text.nonempty]

@[simp] theorem message_constructible (message : PublicMessage) :
    (DomainValue.message message).Constructible floatBytes := by
  show PublicMessage.new message.value = .ok message
  simp [PublicMessage.new, message.nonblank, message.bounded]

@[simp] theorem digest_constructible (digest : Sha256Digest) :
    (DomainValue.digest digest).Constructible floatBytes := by
  show Sha256Digest.new digest.value = .ok digest
  unfold Sha256Digest.new
  rw [dif_pos digest.hex]

@[simp] theorem output_constructible (output : ToolOutput) :
    (DomainValue.output output).Constructible floatBytes := by
  show ToolOutput.new output.content output.artifact output.originalBytes output.truncated =
    .ok output
  unfold ToolOutput.new
  rw [dif_pos output.inlineBound, dif_pos output.originalBound, dif_pos output.retained]

theorem resource_constructible_iff {resource : ResourceRef} :
    (DomainValue.resource resource).Constructible floatBytes ↔
      ResourceRef.check resource.value = true := by
  show ResourceRef.new resource.value = .ok resource ↔ _
  unfold ResourceRef.new ResourceRef.check
  by_cases blank : isBlank resource.value = true
  · simp [blank]
  · by_cases long : resource.value.utf8ByteSize ≤ maxResourceBytes
    · simp [blank, long, Nat.not_lt.mpr long]
    · simp [blank, long, Nat.lt_of_not_le long]

theorem limits_constructible_iff {limits : RunLimits} :
    (DomainValue.limits limits).Constructible floatBytes ↔
      limits.maxTurns ≠ 0 ∧ limits.maxTimeMs ≠ 0 ∧ limits.maxTokens ≠ 0 ∧
        limits.maxOutputBytes ≠ 0 ∧ limits.maxConcurrency ≠ 0 := by
  show RunLimits.new limits.maxTurns limits.maxTimeMs limits.maxTokens limits.maxOutputBytes
    limits.maxConcurrency = .ok limits ↔ _
  unfold RunLimits.new
  split
  next zero =>
    simp only [reduceCtorEq, false_iff]
    rintro ⟨turns, time, tokens, bytes, concurrency⟩
    rcases zero with h | h | h | h | h <;> contradiction
  next nonzero =>
    push Not at nonzero
    simp only [true_iff]
    exact nonzero

/-- The checks of an artifact on the parts that its constructor is given. -/
def artifactChecked (byteLen : UInt64) (mediaType : String) : Prop :=
  byteLen ≠ 0 ∧ mediaType.isEmpty = false ∧ mediaType.utf8ByteSize ≤ maxMediaTypeBytes ∧
    mediaType.toList.any isControl = false

theorem artifact_constructible_iff {artifact : ArtifactRef} :
    (DomainValue.artifact artifact).Constructible floatBytes ↔
      artifactChecked artifact.byteLen artifact.mediaType := by
  show ArtifactRef.new artifact.artifactId artifact.byteLen artifact.mediaType = .ok artifact ↔ _
  unfold ArtifactRef.new artifactChecked
  split
  next bad =>
    simp only [reduceCtorEq, false_iff]
    rintro ⟨filled, named, short, plain⟩
    rcases bad with h | h | h | h
    · exact filled h
    · cases named.symm.trans h
    · omega
    · cases plain.symm.trans h
  next good =>
    push Not at good
    simp only [true_iff]
    exact ⟨good.1, Bool.eq_false_iff.mpr good.2.1, good.2.2.1, Bool.eq_false_iff.mpr good.2.2.2⟩

theorem title_of_new {text : String} {title : SessionTitle}
    (h : SessionTitle.new text = .ok title) : (DomainValue.title title).Constructible floatBytes := by
  have same : title.value = text := by
    unfold SessionTitle.new at h
    split at h
    next => cases h
    next =>
      split at h
      next => cases h
      next =>
        split at h
        next => cases h
        next =>
          cases h
          rfl
  show SessionTitle.new title.value = .ok title
  rwa [same]

theorem arguments_of_new {value : JsonValue} {arguments : ToolArguments}
    (h : ToolArguments.new floatBytes value = .ok arguments) :
    (DomainValue.arguments arguments).Constructible floatBytes := by
  have same : value = .object arguments.fields := by
    unfold ToolArguments.new at h
    split at h
    next =>
      split at h
      next => cases h
      next =>
        split at h
        next =>
          cases h
          rfl
        next => cases h
    next => cases h
  show ToolArguments.new floatBytes (.object arguments.fields) = .ok arguments
  rwa [← same]

end Constructible

/-- The resource text of a proposed call. -/
def resourceText (call : JsonValue) : Option String := do
  let capability ← Serde.member toolCallFields "capability" call
  let resource ← Serde.member capabilityFields "resource" capability
  Serde.string resource

def LimitsChecked (limits : JsonValue) : Prop :=
  ∀ name ∈ runLimitsFields,
    Serde.member runLimitsFields name limits ≠ some (.number (.posInt 0))

def ArtifactChecked (artifact : JsonValue) : Prop :=
  ∀ byteLen mediaType,
    Serde.member artifactFields "byte_len" artifact = some (.number (.posInt byteLen)) →
    Serde.member artifactFields "media_type" artifact = some (.string mediaType) →
    artifactChecked byteLen mediaType

/-- The content of a payload meets the checks that deserialization leaves out. -/
structure ContentChecked (name : String) (content : Option JsonValue) : Prop where
  resource : name = "tool_call_proposed" → ∀ call, content.bind (·.get? "call") = some call →
    ∀ text, resourceText call = some text → ResourceRef.check text = true
  limits : name = "run_budget_configured" →
    ∀ limits, content.bind (·.get? "limits") = some limits → LimitsChecked limits
  artifact : name = "tool_call_completed" →
    ∀ output, content.bind (·.get? "output") = some output →
      ∀ artifact, Serde.member toolOutputFields "artifact" output = some artifact →
        artifact ≠ .null → ArtifactChecked artifact

/-- The payload of a stored or imported event meets them. -/
def JsonChecked (value : JsonValue) : Prop :=
  ∀ payload kind content name, Serde.member envelopeFields "payload" value = some payload →
    Serde.tagged "kind" "payload" payload = some (kind, content) →
    Serde.variantName kind = some name → ContentChecked name content

section Readers

variable {floatBytes : UInt64 → Nat} {α : Type} {read : JsonValue → Option α}

theorem required_eq_some_iff {field : Option JsonValue} {x : α} :
    Serde.required read field = some x ↔ ∃ j, field = some j ∧ read j = some x := by
  cases field <;> simp [Serde.required]

theorem checked_eq_some_iff {new : String → Except ValueError α} {value : JsonValue} {x : α} :
    checked new value = some x ↔ ∃ text, value = .string text ∧ new text = .ok x := by
  unfold checked
  cases value with
  | string text => cases made : new text <;> simp [Serde.string, made, Except.toOption]
  | _ => simp [Serde.string]

theorem variantFields_eq_some {content : Option JsonValue} {field : String → Option JsonValue}
    (h : Serde.variantFields content = some field) (name : String) :
    content.bind (·.get? name) = field name := by
  unfold Serde.variantFields at h
  split at h
  next => cases h; rfl
  next => cases h

theorem fields_eq_some {names : List String} {value : JsonValue}
    {field : String → Option JsonValue} (h : Serde.fields names value = some field) (name : String) :
    field name = Serde.member names name value := by
  unfold Serde.fields at h
  split at h
  next => cases h; rfl
  next => cases h

theorem u64_eq_some_iff {value : JsonValue} {n : UInt64} :
    Serde.u64 value = some n ↔ value = .number (.posInt n) := by
  unfold Serde.u64
  split <;> simp_all

theorem u32_zero_iff {value : JsonValue} {n : UInt32} (h : Serde.u32 value = some n) :
    n = 0 ↔ value = .number (.posInt 0) := by
  unfold Serde.u32 at h
  split at h
  next wide =>
    split at h
    next narrow =>
      cases h
      rw [JsonValue.number.injEq, JsonNumber.posInt.injEq, ← UInt32.toNat_inj, ← UInt64.toNat_inj]
      have fits : wide.toUInt32.toNat = wide.toNat := by
        rw [UInt64.toNat_toUInt32, Nat.mod_eq_of_lt narrow]
      rw [fits]
      rfl
    next => cases h
  next => cases h

theorem runLimits_checked {value : JsonValue} {limits : RunLimits}
    (h : runLimits value = some limits) :
    (DomainValue.limits limits).Constructible floatBytes ↔ LimitsChecked value := by
  unfold runLimits at h
  obtain ⟨field, named, h⟩ := Option.bind_eq_some_iff.mp h
  obtain ⟨maxTurns, turns, h⟩ := Option.bind_eq_some_iff.mp h
  obtain ⟨maxTimeMs, time, h⟩ := Option.bind_eq_some_iff.mp h
  obtain ⟨maxTokens, tokens, h⟩ := Option.bind_eq_some_iff.mp h
  obtain ⟨maxOutputBytes, bytes, h⟩ := Option.bind_eq_some_iff.mp h
  obtain ⟨maxConcurrency, concurrency, h⟩ := Option.bind_eq_some_iff.mp h
  cases h
  obtain ⟨turnsJson, turnsField, turns⟩ := required_eq_some_iff.mp turns
  obtain ⟨timeJson, timeField, time⟩ := required_eq_some_iff.mp time
  obtain ⟨tokensJson, tokensField, tokens⟩ := required_eq_some_iff.mp tokens
  obtain ⟨bytesJson, bytesField, bytes⟩ := required_eq_some_iff.mp bytes
  obtain ⟨concurrencyJson, concurrencyField, concurrency⟩ := required_eq_some_iff.mp concurrency
  rw [fields_eq_some named] at turnsField timeField tokensField bytesField concurrencyField
  have wide : ∀ {json n}, Serde.u64 json = some n → (n = 0 ↔ json = .number (.posInt 0)) := by
    intro json n read
    rw [u64_eq_some_iff.mp read]
    simp
  rw [limits_constructible_iff]
  simp only [LimitsChecked, runLimitsFields, List.forall_mem_cons, ne_eq]
  simp only [runLimitsFields] at turnsField timeField tokensField bytesField concurrencyField
  rw [turnsField, timeField, tokensField, bytesField, concurrencyField, u32_zero_iff turns,
    wide time, wide tokens, wide bytes, u32_zero_iff concurrency]
  simp

theorem capabilityRequest_resource {value : JsonValue} {request : CapabilityRequest}
    (h : capabilityRequest value = some request) :
    Serde.member capabilityFields "resource" value = some (.string request.resource.value) := by
  unfold capabilityRequest at h
  obtain ⟨field, named, h⟩ := Option.bind_eq_some_iff.mp h
  obtain ⟨kind, -, h⟩ := Option.bind_eq_some_iff.mp h
  obtain ⟨resource, text, h⟩ := Option.bind_eq_some_iff.mp h
  cases h
  obtain ⟨json, there, text⟩ := required_eq_some_iff.mp text
  rw [fields_eq_some named] at there
  cases json with
  | string content =>
    cases text
    exact there
  | _ => cases text

theorem toolCallSpec_checked {value : JsonValue} {call : ToolCallSpec}
    (h : toolCallSpec floatBytes value = some call) :
    (∀ d ∈ call.embedded, d.Constructible floatBytes) ↔
      ∀ text, resourceText value = some text → ResourceRef.check text = true := by
  unfold toolCallSpec at h
  obtain ⟨field, named, h⟩ := Option.bind_eq_some_iff.mp h
  obtain ⟨toolCallId, -, h⟩ := Option.bind_eq_some_iff.mp h
  obtain ⟨providerCallId, -, h⟩ := Option.bind_eq_some_iff.mp h
  obtain ⟨toolName, -, h⟩ := Option.bind_eq_some_iff.mp h
  obtain ⟨schemaVersion, -, h⟩ := Option.bind_eq_some_iff.mp h
  obtain ⟨arguments, given, h⟩ := Option.bind_eq_some_iff.mp h
  obtain ⟨capability, granted, h⟩ := Option.bind_eq_some_iff.mp h
  cases h
  obtain ⟨argumentsJson, -, given⟩ := required_eq_some_iff.mp given
  obtain ⟨capabilityJson, there, granted⟩ := required_eq_some_iff.mp granted
  rw [fields_eq_some named] at there
  have bounded : (DomainValue.arguments arguments).Constructible floatBytes := by
    unfold toolArguments at given
    cases made : ToolArguments.new floatBytes argumentsJson with
    | error e => simp [made, Except.toOption] at given
    | ok read =>
      simp only [made, Except.toOption, Option.some.injEq] at given
      cases given
      exact arguments_of_new made
  have text : resourceText value = some capability.resource.value := by
    unfold resourceText
    rw [there]
    show (Serde.member capabilityFields "resource" capabilityJson >>= Serde.string) = _
    rw [capabilityRequest_resource granted]
    rfl
  simp [ToolCallSpec.embedded, bounded, resource_constructible_iff, text]

theorem artifactRef_checked {value : JsonValue} {artifact : ArtifactRef}
    (h : artifactRef value = some artifact) :
    (DomainValue.artifact artifact).Constructible floatBytes ↔ ArtifactChecked value := by
  unfold artifactRef at h
  obtain ⟨field, named, h⟩ := Option.bind_eq_some_iff.mp h
  obtain ⟨artifactId, -, h⟩ := Option.bind_eq_some_iff.mp h
  obtain ⟨byteLen, length, h⟩ := Option.bind_eq_some_iff.mp h
  obtain ⟨mediaType, media, h⟩ := Option.bind_eq_some_iff.mp h
  cases h
  obtain ⟨lengthJson, lengthField, length⟩ := required_eq_some_iff.mp length
  obtain ⟨mediaJson, mediaField, media⟩ := required_eq_some_iff.mp media
  rw [fields_eq_some named] at lengthField mediaField
  rw [u64_eq_some_iff.mp length] at lengthField
  cases mediaJson with
  | string text =>
    cases media
    rw [artifact_constructible_iff]
    simp [ArtifactChecked, lengthField, mediaField]
  | _ => cases media

theorem optional_of_ne_null {json : JsonValue} (h : json ≠ .null) :
    Serde.optional read (some json) = (read json).map some := by
  cases json with
  | null => exact absurd rfl h
  | _ => rfl

theorem toolOutput_checked {value : JsonValue} {output : ToolOutput}
    (h : toolOutput value = some output) :
    (∀ d ∈ output.embedded, d.Constructible floatBytes) ↔
      ∀ artifact, Serde.member toolOutputFields "artifact" value = some artifact →
        artifact ≠ .null → ArtifactChecked artifact := by
  unfold toolOutput at h
  obtain ⟨field, named, h⟩ := Option.bind_eq_some_iff.mp h
  obtain ⟨content, -, h⟩ := Option.bind_eq_some_iff.mp h
  obtain ⟨artifact, linked, h⟩ := Option.bind_eq_some_iff.mp h
  obtain ⟨originalBytes, -, h⟩ := Option.bind_eq_some_iff.mp h
  obtain ⟨truncated, -, h⟩ := Option.bind_eq_some_iff.mp h
  have kept : output.artifact = artifact := by
    cases made : ToolOutput.new content artifact originalBytes truncated with
    | error e => simp [made, Except.toOption] at h
    | ok read =>
      simp only [made, Except.toOption, Option.some.injEq] at h
      cases h
      exact (toolOutput_new_fields made).2.1
  rw [fields_eq_some named] at linked
  simp only [ToolOutput.embedded, kept, List.forall_mem_cons, output_constructible, true_and]
  cases there : Serde.member toolOutputFields "artifact" value with
  | none =>
    rw [there] at linked
    cases linked
    simp
  | some json =>
    rw [there] at linked
    by_cases absent : json = .null
    · cases absent
      cases linked
      simp
    · rw [optional_of_ne_null absent] at linked
      obtain ⟨a, found, same⟩ := Option.map_eq_some_iff.mp linked
      cases same
      simp [ArtifactRef.embedded, artifactRef_checked found, absent]

/-- A reader succeeds with valid values exactly when the content meets the missing checks. -/
def Strict (floatBytes : UInt64 → Nat) (name : String) (reader : PayloadReader) : Prop :=
  ∀ content payload, reader content = some payload →
    ((∀ d ∈ payload.embedded, d.Constructible floatBytes) ↔ ContentChecked name content)

theorem strict_of_valid {name : String} {reader : PayloadReader}
    (other : name ∉ ["tool_call_proposed", "run_budget_configured", "tool_call_completed"])
    (valid : ∀ content payload, reader content = some payload →
      ∀ d ∈ payload.embedded, d.Constructible floatBytes) : Strict floatBytes name reader := by
  intro content payload h
  simp only [List.mem_cons, List.not_mem_nil, or_false, not_or] at other
  refine iff_of_true (valid content payload h) ⟨?_, ?_, ?_⟩
  · exact fun same => absurd same other.1
  · exact fun same => absurd same other.2.1
  · exact fun same => absurd same other.2.2

theorem unitEvent_valid {payload : EventPayload} (empty : payload.embedded = []) :
    ∀ content read, unitEvent payload content = some read →
      ∀ d ∈ read.embedded, d.Constructible floatBytes := by
  intro content read h
  unfold unitEvent at h
  split at h
  next =>
    cases h
    simp [empty]
  next =>
    cases h
    simp [empty]
  next => cases h

theorem attemptEvent_valid {make : AttemptId → EventPayload}
    (only : ∀ id, (make id).embedded = [.identifier id]) :
    ∀ content payload, attemptEvent make content = some payload →
      ∀ d ∈ payload.embedded, d.Constructible floatBytes := by
  intro content payload h
  obtain ⟨field, -, h⟩ := Option.bind_eq_some_iff.mp h
  obtain ⟨id, -, h⟩ := Option.bind_eq_some_iff.mp h
  cases h
  simp [only]

theorem toolCallEvent_valid {make : ToolCallId → EventPayload}
    (only : ∀ id, (make id).embedded = [.identifier id]) :
    ∀ content payload, toolCallEvent make content = some payload →
      ∀ d ∈ payload.embedded, d.Constructible floatBytes := by
  intro content payload h
  obtain ⟨field, -, h⟩ := Option.bind_eq_some_iff.mp h
  obtain ⟨id, -, h⟩ := Option.bind_eq_some_iff.mp h
  cases h
  simp [only]

theorem attemptEventWith_eq_some {make : AttemptId → α → EventPayload} {name : String}
    {content : Option JsonValue} {payload : EventPayload}
    (h : attemptEventWith make name read content = some payload) :
    ∃ id value json, payload = make id value ∧ content.bind (·.get? name) = some json ∧
      read json = some value := by
  obtain ⟨field, named, h⟩ := Option.bind_eq_some_iff.mp h
  obtain ⟨id, -, h⟩ := Option.bind_eq_some_iff.mp h
  obtain ⟨value, given, h⟩ := Option.bind_eq_some_iff.mp h
  cases h
  obtain ⟨json, there, given⟩ := required_eq_some_iff.mp given
  exact ⟨id, value, json, rfl, (variantFields_eq_some named name).trans there, given⟩

theorem toolCallEventWith_eq_some {make : ToolCallId → α → EventPayload} {name : String}
    {content : Option JsonValue} {payload : EventPayload}
    (h : toolCallEventWith make name read content = some payload) :
    ∃ id value json, payload = make id value ∧ content.bind (·.get? name) = some json ∧
      read json = some value := by
  obtain ⟨field, named, h⟩ := Option.bind_eq_some_iff.mp h
  obtain ⟨id, -, h⟩ := Option.bind_eq_some_iff.mp h
  obtain ⟨value, given, h⟩ := Option.bind_eq_some_iff.mp h
  cases h
  obtain ⟨json, there, given⟩ := required_eq_some_iff.mp given
  exact ⟨id, value, json, rfl, (variantFields_eq_some named name).trans there, given⟩

theorem attemptEventWith_valid {make : AttemptId → α → EventPayload} {name : String}
    (valid : ∀ id json value, read json = some value →
      ∀ d ∈ (make id value).embedded, d.Constructible floatBytes) :
    ∀ content payload, attemptEventWith make name read content = some payload →
      ∀ d ∈ payload.embedded, d.Constructible floatBytes := by
  intro content payload h
  obtain ⟨id, value, json, rfl, -, given⟩ := attemptEventWith_eq_some h
  exact valid id json value given

theorem toolCallEventWith_valid {make : ToolCallId → α → EventPayload} {name : String}
    (valid : ∀ id value, ∀ d ∈ (make id value).embedded, d.Constructible floatBytes) :
    ∀ content payload, toolCallEventWith make name read content = some payload →
      ∀ d ∈ payload.embedded, d.Constructible floatBytes := by
  intro content payload h
  obtain ⟨id, value, json, rfl, -, given⟩ := toolCallEventWith_eq_some h
  exact valid id value

theorem sessionRenamed_valid (content : Option JsonValue) (payload : EventPayload)
    (h : sessionRenamed content = some payload) :
    ∀ d ∈ payload.embedded, d.Constructible floatBytes := by
  obtain ⟨field, -, h⟩ := Option.bind_eq_some_iff.mp h
  obtain ⟨title, given, h⟩ := Option.bind_eq_some_iff.mp h
  cases h
  obtain ⟨json, -, given⟩ := required_eq_some_iff.mp given
  obtain ⟨text, -, made⟩ := checked_eq_some_iff.mp given
  show ∀ d ∈ [DomainValue.title title], d.Constructible floatBytes
  simp [title_of_new made]

theorem modelSelected_valid (content : Option JsonValue) (payload : EventPayload)
    (h : modelSelected content = some payload) :
    ∀ d ∈ payload.embedded, d.Constructible floatBytes := by
  obtain ⟨field, -, h⟩ := Option.bind_eq_some_iff.mp h
  obtain ⟨model, -, h⟩ := Option.bind_eq_some_iff.mp h
  cases h
  show ∀ d ∈ model.embedded, d.Constructible floatBytes
  simp [ModelRef.embedded]

theorem inputAdmitted_valid (content : Option JsonValue) (payload : EventPayload)
    (h : inputAdmitted content = some payload) :
    ∀ d ∈ payload.embedded, d.Constructible floatBytes := by
  obtain ⟨field, -, h⟩ := Option.bind_eq_some_iff.mp h
  obtain ⟨inputId, -, h⟩ := Option.bind_eq_some_iff.mp h
  obtain ⟨prompt, -, h⟩ := Option.bind_eq_some_iff.mp h
  obtain ⟨deliveryMode, -, h⟩ := Option.bind_eq_some_iff.mp h
  cases h
  show ∀ d ∈ [DomainValue.identifier inputId, .prompt prompt], d.Constructible floatBytes
  simp

theorem attemptPrepared_valid (content : Option JsonValue) (payload : EventPayload)
    (h : attemptPrepared content = some payload) :
    ∀ d ∈ payload.embedded, d.Constructible floatBytes := by
  obtain ⟨field, -, h⟩ := Option.bind_eq_some_iff.mp h
  obtain ⟨attemptId, -, h⟩ := Option.bind_eq_some_iff.mp h
  obtain ⟨inputId, -, h⟩ := Option.bind_eq_some_iff.mp h
  obtain ⟨model, -, h⟩ := Option.bind_eq_some_iff.mp h
  obtain ⟨retryOf, -, h⟩ := Option.bind_eq_some_iff.mp h
  cases h
  show ∀ d ∈ [DomainValue.identifier attemptId, .identifier inputId] ++ model.embedded ++
    (retryOf.map .identifier).toList, d.Constructible floatBytes
  cases retryOf <;> simp [ModelRef.embedded]

theorem contextTurnBound_valid (content : Option JsonValue) (payload : EventPayload)
    (h : contextTurnBound content = some payload) :
    ∀ d ∈ payload.embedded, d.Constructible floatBytes := by
  obtain ⟨field, -, h⟩ := Option.bind_eq_some_iff.mp h
  obtain ⟨attemptId, -, h⟩ := Option.bind_eq_some_iff.mp h
  obtain ⟨runTurn, -, h⟩ := Option.bind_eq_some_iff.mp h
  obtain ⟨contextTurnId, -, h⟩ := Option.bind_eq_some_iff.mp h
  obtain ⟨manifestHash, -, h⟩ := Option.bind_eq_some_iff.mp h
  cases h
  show ∀ d ∈ [DomainValue.identifier attemptId, .identifier contextTurnId, .digest manifestHash],
    d.Constructible floatBytes
  simp

theorem toolPermissionRecorded_valid (content : Option JsonValue) (payload : EventPayload)
    (h : toolPermissionRecorded content = some payload) :
    ∀ d ∈ payload.embedded, d.Constructible floatBytes := by
  obtain ⟨field, -, h⟩ := Option.bind_eq_some_iff.mp h
  obtain ⟨toolCallId, -, h⟩ := Option.bind_eq_some_iff.mp h
  obtain ⟨decisionId, -, h⟩ := Option.bind_eq_some_iff.mp h
  obtain ⟨outcome, -, h⟩ := Option.bind_eq_some_iff.mp h
  cases h
  show ∀ d ∈ [DomainValue.identifier toolCallId, .identifier decisionId], d.Constructible floatBytes
  simp

theorem toolPermissionAnswered_valid (content : Option JsonValue) (payload : EventPayload)
    (h : toolPermissionAnswered content = some payload) :
    ∀ d ∈ payload.embedded, d.Constructible floatBytes := by
  obtain ⟨field, -, h⟩ := Option.bind_eq_some_iff.mp h
  obtain ⟨toolCallId, -, h⟩ := Option.bind_eq_some_iff.mp h
  obtain ⟨decisionId, -, h⟩ := Option.bind_eq_some_iff.mp h
  obtain ⟨answer, -, h⟩ := Option.bind_eq_some_iff.mp h
  cases h
  show ∀ d ∈ [DomainValue.identifier toolCallId, .identifier decisionId], d.Constructible floatBytes
  simp

theorem runBudgetConfigured_strict : Strict floatBytes "run_budget_configured"
    (attemptEventWith .runBudgetConfigured "limits" runLimits) := by
  intro content payload h
  obtain ⟨id, limits, json, rfl, there, given⟩ := attemptEventWith_eq_some h
  have checked : (DomainValue.limits limits).Constructible floatBytes ↔ LimitsChecked json :=
    runLimits_checked given
  have opened : (EventPayload.runBudgetConfigured id limits).embedded =
    [.identifier id, .limits limits] := rfl
  simp only [opened, List.forall_mem_cons, identifier_constructible, true_and,
    checked]
  constructor
  · intro good
    refine ⟨fun same => absurd same (by decide), ?_, fun same => absurd same (by decide)⟩
    intro _ found read
    rw [there] at read
    cases read
    exact good.1
  · intro content
    exact ⟨content.limits rfl json there, by simp⟩

theorem toolCallProposed_strict : Strict floatBytes "tool_call_proposed"
    (attemptEventWith .toolCallProposed "call" (toolCallSpec floatBytes)) := by
  intro content payload h
  obtain ⟨id, call, json, rfl, there, given⟩ := attemptEventWith_eq_some h
  have opened : (EventPayload.toolCallProposed id call).embedded = .identifier id :: call.embedded := rfl
  simp only [opened, List.forall_mem_cons, identifier_constructible, true_and,
    toolCallSpec_checked given]
  constructor
  · intro good
    refine ⟨?_, fun same => absurd same (by decide), fun same => absurd same (by decide)⟩
    intro _ found read
    rw [there] at read
    cases read
    exact good
  · intro content
    exact content.resource rfl json there

theorem toolCallCompleted_strict : Strict floatBytes "tool_call_completed"
    (toolCallEventWith .toolCallCompleted "output" toolOutput) := by
  intro content payload h
  obtain ⟨id, output, json, rfl, there, given⟩ := toolCallEventWith_eq_some h
  have opened : (EventPayload.toolCallCompleted id output).embedded =
    .identifier id :: output.embedded := rfl
  simp only [opened, List.forall_mem_cons, identifier_constructible, true_and,
    toolOutput_checked given]
  constructor
  · intro good
    refine ⟨fun same => absurd same (by decide), fun same => absurd same (by decide), ?_⟩
    intro _ found read
    rw [there] at read
    cases read
    exact good
  · intro content
    exact content.artifact rfl json there

theorem attemptFailed_valid (content : Option JsonValue) (payload : EventPayload)
    (h : attemptEventWith .attemptFailed "failure" attemptFailure content = some payload) :
    ∀ d ∈ payload.embedded, d.Constructible floatBytes :=
  attemptEventWith_valid (by simp [EventPayload.embedded, AttemptFailure.embedded]) _ _ h

/-- Each variant of the payload is read as its name demands. -/
theorem payloadReaders_strict :
    ∀ entry ∈ payloadReaders floatBytes, Strict floatBytes entry.1 entry.2 := by
  have unit : ∀ {name payload}, name ∉ ["tool_call_proposed", "run_budget_configured",
      "tool_call_completed"] → EventPayload.embedded payload = [] →
      Strict floatBytes name (unitEvent payload) :=
    fun other empty => strict_of_valid other (unitEvent_valid empty)
  have attempt : ∀ {name} {make : AttemptId → EventPayload}, name ∉ ["tool_call_proposed",
      "run_budget_configured", "tool_call_completed"] →
      (∀ id, (make id).embedded = [.identifier id]) → Strict floatBytes name (attemptEvent make) :=
    fun other only => strict_of_valid other (attemptEvent_valid only)
  have toolCall : ∀ {name} {make : ToolCallId → EventPayload}, name ∉ ["tool_call_proposed",
      "run_budget_configured", "tool_call_completed"] →
      (∀ id, (make id).embedded = [.identifier id]) → Strict floatBytes name (toolCallEvent make) :=
    fun other only => strict_of_valid other (toolCallEvent_valid only)
  simp only [payloadReaders, List.forall_mem_cons]
  refine ⟨unit (by decide) rfl, strict_of_valid (by decide) sessionRenamed_valid,
    unit (by decide) rfl, unit (by decide) rfl, strict_of_valid (by decide) modelSelected_valid,
    strict_of_valid (by decide) inputAdmitted_valid,
    strict_of_valid (by decide) attemptPrepared_valid, attempt (by decide) fun _ => rfl,
    strict_of_valid (by decide) (attemptEventWith_valid (by simp [EventPayload.embedded])),
    strict_of_valid (by decide) (attemptEventWith_valid (by simp [EventPayload.embedded])),
    attempt (by decide) fun _ => rfl, attempt (by decide) fun _ => rfl,
    strict_of_valid (by decide) attemptFailed_valid, attempt (by decide) fun _ => rfl,
    attempt (by decide) fun _ => rfl, runBudgetConfigured_strict,
    strict_of_valid (by decide) contextTurnBound_valid,
    strict_of_valid (by decide) (attemptEventWith_valid (by simp [EventPayload.embedded])),
    toolCallProposed_strict, strict_of_valid (by decide) toolPermissionRecorded_valid,
    strict_of_valid (by decide) toolPermissionAnswered_valid, toolCall (by decide) fun _ => rfl,
    toolCallCompleted_strict,
    strict_of_valid (by decide) (toolCallEventWith_valid
      (by simp [EventPayload.embedded, AttemptFailure.embedded])),
    toolCall (by decide) fun _ => rfl, toolCall (by decide) fun _ => rfl,
    toolCall (by decide) fun _ => rfl, attempt (by decide) fun _ => rfl,
    attempt (by decide) fun _ => rfl, by simp⟩

theorem lookup_mem_of_eq_some {entries : List (String × α)} {name : String} {x : α}
    (h : entries.lookup name = some x) : (name, x) ∈ entries := by
  obtain ⟨before, after, same, -⟩ := List.lookup_eq_some_iff.mp h
  rw [same]
  simp

theorem Causation.constructible (causation : Causation) :
    ∀ d ∈ causation.embedded, d.Constructible floatBytes := by
  cases causation <;> simp [Causation.embedded]

end Readers

/-- An event that deserializes holds only values of the constructors exactly when its payload
meets the checks of the resource, the run limits and the artifact. -/
theorem deserialized_constructible_iff (floatBytes : UInt64 → Nat) {value : JsonValue}
    {event : EventEnvelope} (h : eventEnvelope floatBytes value = some event) :
    (∀ d ∈ event.embedded, d.Constructible floatBytes) ↔ JsonChecked value := by
  obtain ⟨field, named, h⟩ := Option.bind_eq_some_iff.mp h
  obtain ⟨schemaVersion, -, h⟩ := Option.bind_eq_some_iff.mp h
  obtain ⟨eventId, -, h⟩ := Option.bind_eq_some_iff.mp h
  obtain ⟨sessionId, -, h⟩ := Option.bind_eq_some_iff.mp h
  obtain ⟨sequence, -, h⟩ := Option.bind_eq_some_iff.mp h
  obtain ⟨occurredAt, -, h⟩ := Option.bind_eq_some_iff.mp h
  obtain ⟨causation, -, h⟩ := Option.bind_eq_some_iff.mp h
  obtain ⟨correlationId, -, h⟩ := Option.bind_eq_some_iff.mp h
  obtain ⟨payload, told, h⟩ := Option.bind_eq_some_iff.mp h
  cases h
  obtain ⟨json, there, told⟩ := required_eq_some_iff.mp told
  rw [fields_eq_some named] at there
  obtain ⟨⟨kind, content⟩, tagged, told⟩ := Option.bind_eq_some_iff.mp told
  obtain ⟨name, spelled, told⟩ := Option.bind_eq_some_iff.mp told
  obtain ⟨reader, listed, told⟩ := Option.bind_eq_some_iff.mp told
  have strict := payloadReaders_strict _ (lookup_mem_of_eq_some listed) content payload told
  have outer : (∀ d ∈ EventEnvelope.embedded ⟨schemaVersion, eventId, sessionId, sequence,
      occurredAt, causation, correlationId, payload⟩, d.Constructible floatBytes) ↔
      ∀ d ∈ payload.embedded, d.Constructible floatBytes := by
    simp only [EventEnvelope.embedded, List.forall_mem_append, List.forall_mem_cons,
      identifier_constructible, sequence_constructible, true_and]
    exact ⟨fun all => all.2, fun all => ⟨⟨by simp, causation.constructible⟩, all⟩⟩
  rw [outer, strict]
  constructor
  · intro good payload' kind' content' name' there' tagged' spelled'
    cases Option.some.inj (there.symm.trans there')
    cases Option.some.inj (tagged.symm.trans tagged')
    cases Option.some.inj (spelled.symm.trans spelled')
    exact good
  · intro good
    exact good json kind content name there tagged spelled

section Sample

def sampleLimitsJson (maxTurns : UInt64) : JsonValue :=
  .object [("max_concurrency", .number (.posInt 2)), ("max_output_bytes", .number (.posInt 1024)),
    ("max_time_ms", .number (.posInt 1000)), ("max_tokens", .number (.posInt 100)),
    ("max_turns", .number (.posInt maxTurns))]

def sampleEventJson (maxTurns : UInt64) : JsonValue :=
  .object [("causation", .object [("id", .string "command-1"), ("kind", .string "command")]),
    ("correlation_id", .string "correlation-1"), ("event_id", .string "event-1"),
    ("occurred_at", .number (.posInt 0)),
    ("payload", .object [("kind", .string "run_budget_configured"),
      ("payload", .object [("attempt_id", .string "attempt-1"),
        ("limits", sampleLimitsJson maxTurns)])]),
    ("schema_version", .number (.posInt 1)), ("sequence", .number (.posInt 1)),
    ("session_id", .string "session-1")]

theorem sampleEventJson_checked : JsonChecked (sampleEventJson 8) := by
  intro payload kind content name there tagged spelled
  cases there
  cases tagged
  cases spelled
  refine ⟨fun same => absurd same (by decide), ?_, fun same => absurd same (by decide)⟩
  intro _ limits read
  cases read
  unfold LimitsChecked
  decide

theorem deserialized_constructible_iff_budget :
    ∃ event, eventEnvelope (fun _ => 0) (sampleEventJson 8) = some event ∧
      ∀ d ∈ event.embedded, d.Constructible fun _ => 0 := by
  obtain ⟨event, read⟩ : ∃ event, eventEnvelope (fun _ => 0) (sampleEventJson 8) = some event :=
    ⟨_, rfl⟩
  exact ⟨event, read, (deserialized_constructible_iff _ read).mpr sampleEventJson_checked⟩

/-- A stored run budget without turns, which the constructor of the limits refuses. -/
theorem unbounded_budget_deserialized :
    ∃ event attemptId limits, eventEnvelope (fun _ => 0) (sampleEventJson 0) = some event ∧
      event.payload = .runBudgetConfigured attemptId limits ∧
      RunLimits.new limits.maxTurns limits.maxTimeMs limits.maxTokens limits.maxOutputBytes
        limits.maxConcurrency = .error .invalidRunLimits ∧
      ¬ ∀ d ∈ event.embedded, d.Constructible fun _ => 0 := by
  obtain ⟨event, attemptId, read, told⟩ : ∃ event attemptId,
      eventEnvelope (fun _ => 0) (sampleEventJson 0) = some event ∧
        event.payload = .runBudgetConfigured attemptId ⟨0, 1000, 100, 1024, 2⟩ :=
    ⟨_, _, rfl, rfl⟩
  refine ⟨event, attemptId, _, read, told, rfl, ?_⟩
  intro all
  have zero : (DomainValue.limits ⟨0, 1000, 100, 1024, 2⟩).Constructible fun _ => 0 := by
    refine all _ ?_
    simp [EventEnvelope.embedded, told, EventPayload.embedded]
  exact (limits_constructible_iff.mp zero).1 rfl

end Sample

end AutoHarness
