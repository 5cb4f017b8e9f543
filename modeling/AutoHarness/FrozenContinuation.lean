import AutoHarness.ChatRequest
import AutoHarness.Durable
import AutoHarness.ManifestBinding

namespace AutoHarness

section Values

/-- Version identities of the deterministic context algorithms. -/
structure ContextEpochVersions where
  builderVersion : UInt16
  registryVersion : UInt16
  rankerVersion : UInt16
  rendererVersion : UInt16
  sizerVersion : UInt16
deriving DecidableEq

/-- The hashes of everything that an epoch was started under. -/
structure ContextEpochHashes where
  configHash : Sha256Digest
  catalogHash : Sha256Digest
  modelCapabilityHash : Sha256Digest
  toolRegistryHash : Sha256Digest
deriving DecidableEq

/-- What a continuation reads of the epoch that it belongs to. -/
structure ContextEpochManifest where
  epochId : ContextEpochId
  sessionId : SessionId
  memoryGeneration : MemoryGeneration
  versions : ContextEpochVersions
  hashes : ContextEpochHashes
  tokenBudget : ContextTokenBudget
deriving DecidableEq

/-- Frozen epoch compatibility inputs derived from provider-neutral state. -/
structure EpochCompatibility where
  hashes : ContextEpochHashes
  tokenBudget : ContextTokenBudget
  durableMemoryLimit : EstimatedTokens
deriving DecidableEq

/-- Bounded provider-visible context bytes. -/
structure RenderedContextText where
  value : String
  filled : value.isEmpty = false
  bounded : value.utf8ByteSize ≤ maxRenderedContextBytes

theorem RenderedContextText.value_inj {left right : RenderedContextText} :
    left.value = right.value ↔ left = right := by
  cases left
  cases right
  simp

instance : DecidableEq RenderedContextText := fun _ _ => decidable_of_iff _ RenderedContextText.value_inj

structure ContextAdmissionContent where
  admissionId : ContextAdmissionId
  rendered : RenderedContextText
deriving DecidableEq

/-- All erasable provider-visible bytes accompanying one context manifest. -/
structure ContextTurnContent where
  prelude : Option RenderedContextText
  admissions : List ContextAdmissionContent
deriving DecidableEq

/-- The failures of preparing a context turn. -/
inductive PrepareError where
  | fileSystem
  | store (source : StoreError)
  | engine (source : DurableEngineError)
  | provider (source : ProviderError)
  | memory (source : ContextError)
  | credentialRedactionUnavailable
  | memoryCommand
  | configuration
deriving DecidableEq

/-- Provider request paired with the exact durable context commit that authorizes dispatch. -/
structure PreparedContextTurn where
  request : ChatRequest
  epoch : Option ContextEpochManifest
  manifest : ContextTurnManifest
  content : ContextTurnContent

/-- Immutable inputs for a continuation that must reuse its epoch baseline. -/
structure FrozenContinuationInput where
  request : ChatRequest
  expectedSessionSequence : SessionSequence
  runTurn : UInt32
  committedAt : TimestampMillis
  epoch : ContextEpochManifest
  baselineTurn : ContextTurnManifest
  baselineContent : ContextTurnContent
  compatibility : EpochCompatibility

/-- The JSON texts of the parts of a request. -/
structure RequestCodec extends ManifestCodec where
  messagesJson : List ChatMessage → List UInt8
  toolStateJson : List ProviderToolDefinition → List ChatMessage → List UInt8
  requestJson : ChatRequest → List UInt8

end Values

section Identities

variable (codec : FactCodec)

/-- SHA-256 over fields that are each preceded by their length. -/
def digestFields (fields : List (List UInt8)) : Sha256Digest :=
  codec.sha256 (fields.flatMap fun field => toBeBytes (UInt64.ofNat field.length) ++ field)

/-- `u32::to_be_bytes`. -/
def toBeBytes32 (value : UInt32) : List UInt8 := (toBeBytes value.toUInt64).drop 4

theorem contextTurnId_valid (digest : Sha256Digest) :
    validateIdentifier ("context-turn:" ++ digest.value) = .ok () :=
  taggedDigest_valid (by simp [isSafeIdentifierCharacter]) (by decide) digest

def contextTurnId (attemptId : AttemptId) (runTurn : UInt32) : ContextTurnId :=
  let digest := digestFields codec [utf8Bytes "autoharness-context-turn-v1",
    utf8Bytes attemptId.value, toBeBytes32 runTurn]
  ⟨"context-turn:" ++ digest.value, contextTurnId_valid digest⟩

theorem contextAdmissionId_valid (digest : Sha256Digest) :
    validateIdentifier ("context-admission:" ++ digest.value) = .ok () :=
  taggedDigest_valid (by simp [isSafeIdentifierCharacter]) (by decide) digest

def contextAdmissionId (contextTurnId : ContextTurnId) (rank : Nat) : ContextAdmissionId :=
  let digest := digestFields codec [utf8Bytes "autoharness-context-admission-v1",
    utf8Bytes contextTurnId.value, toBeBytes (UInt64.ofNat rank)]
  ⟨"context-admission:" ++ digest.value, contextAdmissionId_valid digest⟩

end Identities

section Snapshots

variable (codec : RequestCodec)

theorem auditSnapshot_valid (sourceRevision valueHash : Sha256Digest) :
    observationValid .available .auditOnly (some sourceRevision) (some valueHash) = true := rfl

def dynamicAuditSnapshot (sourceKey : ContextSourceKey) (exactState : List UInt8)
    (observedAt : TimestampMillis) : ContextSourceSnapshot :=
  let sourceRevision := codec.sha256 exactState
  let valueHash := digestFields codec.toFactCodec [utf8Bytes "autoharness-context-audit-value-v1",
    utf8Bytes sourceKey.value, exactState]
  ⟨sourceKey, .available, .auditOnly, some sourceRevision, some valueHash, observedAt,
    auditSnapshot_valid sourceRevision valueHash⟩

theorem providerHistoryAudit_valid : validateIdentifier "session:provider-history:v1" = .ok () := rfl

theorem providerToolStateAudit_valid : validateIdentifier "session:provider-tool-state:v1" = .ok () := rfl

def providerHistoryAuditSourceKey : ContextSourceKey :=
  ⟨"session:provider-history:v1", providerHistoryAudit_valid⟩

def providerToolStateAuditSourceKey : ContextSourceKey :=
  ⟨"session:provider-tool-state:v1", providerToolStateAudit_valid⟩

def ChatMessage.isTool : ChatMessage → Bool
  | .text _ _ => false
  | .toolCall _ => true
  | .toolResult _ _ _ => true

def dynamicRequestSnapshots (request : ChatRequest) (observedAt : TimestampMillis) :
    List ContextSourceSnapshot :=
  sortSnapshots
    [dynamicAuditSnapshot codec providerHistoryAuditSourceKey (codec.messagesJson request.messages)
      observedAt,
    dynamicAuditSnapshot codec providerToolStateAuditSourceKey
      (codec.toolStateJson request.tools (request.messages.filter ChatMessage.isTool)) observedAt]

theorem sortSnapshots_audits {history toolState : ContextSourceSnapshot}
    (first : history.sourceKey = providerHistoryAuditSourceKey)
    (second : toolState.sourceKey = providerToolStateAuditSourceKey) :
    sortSnapshots [history, toolState] = [history, toolState] := by
  have ordered : providerHistoryAuditSourceKey ≤ providerToolStateAuditSourceKey := by decide
  refine List.mergeSort_of_pairwise (List.pairwise_pair.mpr ?_)
  rw [first, second]
  exact decide_eq_true ordered

/-- The two audits are always of two sources and in order. -/
theorem dynamicRequestSnapshots_eq (request : ChatRequest) (observedAt : TimestampMillis) :
    ∃ history toolState, dynamicRequestSnapshots codec request observedAt = [history, toolState] ∧
      history.sourceKey = providerHistoryAuditSourceKey ∧
      toolState.sourceKey = providerToolStateAuditSourceKey :=
  ⟨_, _, sortSnapshots_audits rfl rfl, rfl, rfl⟩

end Snapshots

section Prepare

def contextVersions : ContextEpochVersions := ⟨1, 1, 1, 1, 1⟩

variable (codec : RequestCodec)

theorem prelude_checked {value : String}
    (h : ¬ (isBlank value = true ∨ maxContextPreludeBytes < value.utf8ByteSize)) :
    isBlank value = false ∧ value.utf8ByteSize ≤ maxContextPreludeBytes :=
  ⟨Bool.eq_false_iff.mpr fun blank => h (.inl blank), Nat.not_lt.mp fun long => h (.inr long)⟩

def ContextPrelude.new (value : String) : Except ProviderError ContextPrelude :=
  if h : isBlank value = true ∨ maxContextPreludeBytes < value.utf8ByteSize then
    .error invalidRequestError
  else .ok ⟨value, (prelude_checked h).1, (prelude_checked h).2⟩

def ChatRequest.withContext (request : ChatRequest) (context : ContextPrelude) : ChatRequest :=
  { request with context := some context }

/-- The request under its prelude, when there is one. -/
def framedRequest (request : ChatRequest) : Option RenderedContextText → Except PrepareError ChatRequest
  | none => .ok request
  | some prelude => do
    let context ← (ContextPrelude.new prelude.value).mapError .provider
    .ok (request.withContext context)

def estimatedRequestBytes (request : ChatRequest) : Except PrepareError EstimatedTokens :=
  (EstimatedTokens.new (codec.requestJson request).length).mapError fun _ => .configuration

def providerRequestHash (request : ChatRequest) : Sha256Digest :=
  codec.sha256 (codec.requestJson request)

def verifyRenderedContextHash (rendered : String) (expected : Sha256Digest) : Bool :=
  renderedContextHash codec.toFactCodec rendered = expected

/-- The input does not belong to the epoch, or its baseline is not what was committed. -/
def continuationRefused (input : FrozenContinuationInput) : Bool :=
  let baseline := input.baselineTurn.material
  input.runTurn ≤ 1 || input.request.context.isSome || input.runTurn ≤ baseline.runTurn ||
    baseline.epochId ≠ input.epoch.epochId || baseline.sessionId ≠ input.epoch.sessionId ||
    baseline.memoryGeneration ≠ input.epoch.memoryGeneration ||
    baseline.model.modelId ≠ input.request.modelId || input.epoch.versions ≠ contextVersions ||
    input.epoch.hashes ≠ input.compatibility.hashes ||
    input.epoch.tokenBudget ≠ input.compatibility.tokenBudget ||
    !verifyContextManifestHash codec.toManifestCodec input.baselineTurn ||
    baseline.admissions.length ≠ input.baselineContent.admissions.length ||
    (baseline.admissions.zip input.baselineContent.admissions).any fun pair =>
      pair.1.admissionId ≠ pair.2.admissionId

/-- The prelude is missing or superfluous, or it is not the one that was hashed. -/
def preludeRefused (baseline : ManifestHashMaterial) (prelude : Option RenderedContextText) : Bool :=
  baseline.admissions.isEmpty ≠ prelude.isNone ||
    !verifyRenderedContextHash codec (prelude.elim "" RenderedContextText.value) baseline.renderedHash

/-- The failures of the constructor of an admission. -/
inductive AdmissionError where
  | zeroVersion
  | zeroContextOrdinal
  | invalidContextManifest
deriving DecidableEq, Repr

def ContextAdmission.new (admissionId : ContextAdmissionId) (contextTurnId : ContextTurnId)
    (target : ContextSection) (sourceKey : ContextSourceKey) (sourceRevision : Sha256Digest)
    (memoryRevisionId : Option MemoryRevisionId) (rendererVersion : Nat) (renderedHash : Sha256Digest)
    (rank : Nat) (rankScore : Int) (tokenCount : EstimatedTokens) (admittedAt : TimestampMillis)
    (reasons : List ContextAdmissionReason) : Except AdmissionError ContextAdmission :=
  if hv : rendererVersion = 0 then .error .zeroVersion
  else if hr : rank = 0 then .error .zeroContextOrdinal
  else if hs : reasonsValid reasons = true then
    .ok ⟨admissionId, contextTurnId, target, sourceKey, sourceRevision, memoryRevisionId,
      rendererVersion, renderedHash, rank, rankScore, tokenCount, admittedAt, reasons, hv, hr, hs⟩
  else .error .invalidContextManifest

/-- The admission of the baseline under the identities and the time of the continuation. -/
def reboundAdmission (contextTurnId : ContextTurnId) (committedAt : TimestampMillis)
    (entry : ContextAdmission × Nat) : Except PrepareError ContextAdmission :=
  let baseline := entry.1
  (ContextAdmission.new (contextAdmissionId codec.toFactCodec contextTurnId (entry.2 + 1)) contextTurnId
    baseline.target baseline.sourceKey baseline.sourceRevision baseline.memoryRevisionId
    baseline.rendererVersion baseline.renderedHash baseline.rank baseline.rankScore
    baseline.tokenCount committedAt baseline.reasons).mapError fun _ => .configuration

theorem placeholder_hex : ("0000000000000000000000000000000000000000000000000000000000000000".length ==
    64 && "0000000000000000000000000000000000000000000000000000000000000000".toList.all fun c =>
      c.isDigit || ('a' ≤ c && c ≤ 'f')) = true := rfl

/-- What stands for the hash of a manifest while it is computed. -/
def placeholderDigest : Sha256Digest :=
  ⟨"0000000000000000000000000000000000000000000000000000000000000000", placeholder_hex⟩

/-- The fields of the manifest of a continuation, most of them those of its baseline. -/
def continuationMaterial (input : FrozenContinuationInput) (request : ChatRequest)
    (budget : ContextBudgetAllocation) (sources : List ContextSourceSnapshot)
    (admissions : List ContextAdmission) : ManifestHashMaterial where
  contextTurnId := contextTurnId codec.toFactCodec input.baselineTurn.material.attemptId input.runTurn
  epochId := input.epoch.epochId
  sessionId := input.baselineTurn.material.sessionId
  attemptId := input.baselineTurn.material.attemptId
  runTurn := input.runTurn
  expectedSessionSequence := input.expectedSessionSequence
  memoryGeneration := input.epoch.memoryGeneration
  model := input.baselineTurn.material.model
  requestHash := providerRequestHash codec request
  renderedHash := input.baselineTurn.material.renderedHash
  eligibility := input.baselineTurn.material.eligibility
  budget := budget
  renderedTokenCount := input.baselineTurn.material.renderedTokenCount
  committedAt := input.committedAt
  snapshots := sources
  admissions := admissions

/-- The sources of the baseline that may be rendered, with the audit of the request. -/
def continuationSources (input : FrozenContinuationInput) : List ContextSourceSnapshot :=
  sortSnapshots (input.baselineTurn.material.snapshots.filter (fun snapshot =>
    snapshot.visibility = .preludeEligible) ++
      dynamicRequestSnapshots codec input.request input.committedAt)

/-- Rebinds the exact durable epoch baseline into a later provider request. -/
def prepareFrozenContinuation (input : FrozenContinuationInput) :
    Except PrepareError PreparedContextTurn :=
  let baseline := input.baselineTurn.material
  let prelude := input.baselineContent.prelude
  if continuationRefused codec input = true then .error .configuration
  else if preludeRefused codec baseline prelude = true then .error .configuration
  else do
    let sources := continuationSources codec input
    (refuseDuplicate (sources.map ContextSourceSnapshot.sourceKey)).mapError fun _ => .configuration
    let request ← framedRequest input.request prelude
    let reservedTokens ← estimatedRequestBytes codec input.request
    let budget ← (ContextBudgetAllocation.new input.epoch.tokenBudget reservedTokens
      baseline.budget.durableMemoryLimit).mapError fun _ => .configuration
    if baseline.renderedTokenCount.get > budget.renderedLimit then .error .configuration
    else
      let turnId := contextTurnId codec.toFactCodec baseline.attemptId input.runTurn
      let admissions ← baseline.admissions.zipIdx.mapM
        (reboundAdmission codec turnId input.committedAt)
      let contents := (admissions.zip input.baselineContent.admissions).map fun pair =>
        (⟨pair.1.admissionId, pair.2.rendered⟩ : ContextAdmissionContent)
      let material := continuationMaterial codec input request budget sources admissions
      let buildManifest (manifestHash : Sha256Digest) : Except PrepareError ContextTurnManifest :=
        (ContextTurnManifest.new material manifestHash).mapError fun _ => .configuration
      let draft ← buildManifest placeholderDigest
      let manifest ← buildManifest (contextManifestHash codec.toManifestCodec draft)
      .ok ⟨request, none, manifest, ⟨prelude, contents⟩⟩

end Prepare

section Frozen

open FallibleRun

variable {codec : RequestCodec}

/-- The parts of an admission that a continuation takes over. -/
structure FrozenAdmission where
  target : ContextSection
  sourceKey : ContextSourceKey
  sourceRevision : Sha256Digest
  memoryRevisionId : Option MemoryRevisionId
  rendererVersion : Nat
  renderedHash : Sha256Digest
  rank : Nat
  rankScore : Int
  tokenCount : EstimatedTokens
  reasons : List ContextAdmissionReason

/-- All of an admission but its identity, its turn and its time. -/
def ContextAdmission.frozen (admission : ContextAdmission) : FrozenAdmission :=
  ⟨admission.target, admission.sourceKey, admission.sourceRevision, admission.memoryRevisionId,
    admission.rendererVersion, admission.renderedHash, admission.rank, admission.rankScore,
    admission.tokenCount, admission.reasons⟩

/-- What a turn has in common with the one that it continues. -/
structure SameContext (manifest manifest' : ContextTurnManifest) (content content' : ContextTurnContent) :
    Prop where
  prelude : content'.prelude = content.prelude
  renderedHash : manifest'.material.renderedHash = manifest.material.renderedHash
  admissions : manifest'.material.admissions.map ContextAdmission.frozen =
    manifest.material.admissions.map ContextAdmission.frozen
  rendered : content'.admissions.map ContextAdmissionContent.rendered =
    content.admissions.map ContextAdmissionContent.rendered
  tokens : manifest'.material.renderedTokenCount = manifest.material.renderedTokenCount
  identity : manifest'.material.sessionId = manifest.material.sessionId ∧
    manifest'.material.attemptId = manifest.material.attemptId ∧
    manifest'.material.epochId = manifest.material.epochId ∧
    manifest'.material.memoryGeneration = manifest.material.memoryGeneration ∧
    manifest'.material.model = manifest.material.model ∧
    manifest'.material.eligibility = manifest.material.eligibility

theorem SameContext.refl (manifest : ContextTurnManifest) (content : ContextTurnContent) :
    SameContext manifest manifest content content :=
  ⟨rfl, rfl, rfl, rfl, rfl, rfl, rfl, rfl, rfl, rfl, rfl⟩

theorem SameContext.trans {m m' m'' : ContextTurnManifest} {c c' c'' : ContextTurnContent}
    (h : SameContext m m' c c') (h' : SameContext m' m'' c' c'') : SameContext m m'' c c'' where
  prelude := h'.prelude.trans h.prelude
  renderedHash := h'.renderedHash.trans h.renderedHash
  admissions := h'.admissions.trans h.admissions
  rendered := h'.rendered.trans h.rendered
  tokens := h'.tokens.trans h.tokens
  identity := by
    obtain ⟨h1, h2, h3, h4, h5, h6⟩ := h.identity
    obtain ⟨g1, g2, g3, g4, g5, g6⟩ := h'.identity
    exact ⟨g1.trans h1, g2.trans h2, g3.trans h3, g4.trans h4, g5.trans h5, g6.trans h6⟩

theorem continuationSources_of_nil {input : FrozenContinuationInput}
    (none : input.baselineTurn.material.snapshots = []) :
    ∃ history toolState, continuationSources codec input = [history, toolState] ∧
      history.sourceKey = providerHistoryAuditSourceKey ∧
      toolState.sourceKey = providerToolStateAuditSourceKey := by
  obtain ⟨history, toolState, dynamic, first, second⟩ :=
    dynamicRequestSnapshots_eq codec input.request input.committedAt
  refine ⟨history, toolState, ?_, first, second⟩
  rw [continuationSources, none, dynamic]
  exact sortSnapshots_audits first second

/-- A baseline without snapshots leaves the audits, which differ. -/
theorem continuationSources_distinct {input : FrozenContinuationInput}
    (none : input.baselineTurn.material.snapshots = []) :
    refuseDuplicate ((continuationSources codec input).map ContextSourceSnapshot.sourceKey) =
      .ok () := by
  obtain ⟨history, toolState, sources, first, second⟩ := continuationSources_of_nil none
  rw [sources, List.map_cons, List.map_cons, first, second]
  decide

end Frozen

section Sample

def sampleRequestCodec : RequestCodec where
  sha256 _ := sampleHash
  callJson _ := []
  eligibilityJson _ := []
  snapshotsJson _ := []
  admissionsJson _ := []
  messagesJson _ := []
  toolStateJson _ _ := []
  requestJson _ := []

theorem sampleBaseline_valid : checkManifest (sampleMaterial 1) = .ok () :=
  sampleMaterial_valid 1 (by decide)

def sampleContinuation : FrozenContinuationInput where
  request := ⟨sampleModel.modelId, [], none, []⟩
  expectedSessionSequence := .first
  runTurn := 2
  committedAt := ⟨1⟩
  epoch := ⟨sampleId _ 1, sampleSession, ⟨0, sampleGeneration_bounded⟩, contextVersions,
    ⟨sampleHash, sampleHash, sampleHash, sampleHash⟩, sampleBudget⟩
  baselineTurn := ⟨sampleMaterial 1, sampleHash, sampleBaseline_valid⟩
  baselineContent := ⟨none, []⟩
  compatibility := ⟨⟨sampleHash, sampleHash, sampleHash, sampleHash⟩, sampleBudget, sampleDurable⟩

end Sample

end AutoHarness
