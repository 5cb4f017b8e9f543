import AutoHarness.ContextBuilder

namespace AutoHarness

section Values

/-- Exact scope authority and sensitivity ceiling frozen for one provider turn. -/
structure ContextEligibility where
  userId : UserId
  workspaceId : WorkspaceId
  sessionId : SessionId
  agentId : Option AgentId
  sensitivityCeiling : Sensitivity
deriving DecidableEq

/-- The failures of the constructors of a manifest. -/
inductive ManifestError where
  | zeroContextRunTurn
  | collectionTooLarge
  | invalidContextManifest
deriving DecidableEq, Repr

/-- Explicit allocation of the fixed provider-turn context budget. -/
structure ContextBudgetAllocation where
  tokenBudget : ContextTokenBudget
  reservedTokens : EstimatedTokens
  durableMemoryLimit : EstimatedTokens
  within : reservedTokens.get ≤ tokenBudget.get ∧
    durableMemoryLimit.get ≤ tokenBudget.get - reservedTokens.get
deriving DecidableEq

theorem allocation_checked {total reserved durable : Nat}
    (h : ¬ (reserved > total ∨ durable > total - reserved)) :
    reserved ≤ total ∧ durable ≤ total - reserved :=
  ⟨Nat.not_lt.mp fun exceeds => h (.inl exceeds), Nat.not_lt.mp fun exceeds => h (.inr exceeds)⟩

def ContextBudgetAllocation.new (tokenBudget : ContextTokenBudget)
    (reservedTokens durableMemoryLimit : EstimatedTokens) :
    Except ManifestError ContextBudgetAllocation :=
  if h : reservedTokens.get > tokenBudget.get ∨
      durableMemoryLimit.get > tokenBudget.get - reservedTokens.get then
    .error .invalidContextManifest
  else .ok ⟨tokenBudget, reservedTokens, durableMemoryLimit, allocation_checked h⟩

/-- What remains for all rendered prelude sections. -/
def ContextBudgetAllocation.renderedLimit (budget : ContextBudgetAllocation) : Nat :=
  budget.tokenBudget.get - budget.reservedTokens.get

/-- All parts of a manifest but its own hash. -/
structure ManifestHashMaterial where
  contextTurnId : ContextTurnId
  epochId : ContextEpochId
  sessionId : SessionId
  attemptId : AttemptId
  runTurn : UInt32
  expectedSessionSequence : SessionSequence
  memoryGeneration : MemoryGeneration
  model : ModelRef
  requestHash : Sha256Digest
  renderedHash : Sha256Digest
  eligibility : ContextEligibility
  budget : ContextBudgetAllocation
  renderedTokenCount : EstimatedTokens
  committedAt : TimestampMillis
  snapshots : List ContextSourceSnapshot
  admissions : List ContextAdmission
deriving DecidableEq

end Values

section Checks

def maxContextSources : Nat := 256

def maxContextAdmissions : Nat := 256

/-- `u64::checked_add` over a list. -/
def checkedTotal (tokens : List Nat) : Option Nat :=
  tokens.foldlM (fun total token =>
    if total + token ≤ 18446744073709551615 then some (total + token) else none) 0

/-- A total within the bound; an overflow is not. -/
def totalWithin (tokens : List Nat) (bound : Nat) : Bool :=
  match checkedTotal tokens with
  | none => false
  | some total => total ≤ bound

def admissionTokens (admissions : List ContextAdmission) : List Nat :=
  admissions.map fun admission => admission.tokenCount.get

def durableAdmissions (admissions : List ContextAdmission) : List ContextAdmission :=
  admissions.filter fun admission => admission.target = .durableMemory

def strictlyOrdered : List ContextSourceKey → Bool
  | first :: second :: rest => first < second && strictlyOrdered (second :: rest)
  | _ => true

def admissionsInPlace (contextTurnId : ContextTurnId) (admissions : List ContextAdmission) : Bool :=
  (admissions.zipIdx 1).all fun entry =>
    entry.1.contextTurnId = contextTurnId && entry.1.rank = entry.2

def checkManifest (material : ManifestHashMaterial) : Except ManifestError Unit :=
  if material.runTurn = 0 then .error .zeroContextRunTurn
  else if material.snapshots.length > maxContextSources ∨
      material.admissions.length > maxContextAdmissions then .error .collectionTooLarge
  else if material.eligibility.sessionId ≠ material.sessionId ∨
      material.renderedTokenCount.get > material.budget.renderedLimit ∨
      totalWithin (admissionTokens material.admissions) material.renderedTokenCount.get = false ∨
      totalWithin (admissionTokens (durableAdmissions material.admissions))
        material.budget.durableMemoryLimit.get = false ∨
      strictlyOrdered (material.snapshots.map ContextSourceSnapshot.sourceKey) = false ∨
      admissionsInPlace material.contextTurnId material.admissions = false then
    .error .invalidContextManifest
  else .ok ()

/-- The exact committed context identity for one provider call. -/
structure ContextTurnManifest where
  material : ManifestHashMaterial
  manifestHash : Sha256Digest
  valid : checkManifest material = .ok ()
deriving DecidableEq

def ContextTurnManifest.new (material : ManifestHashMaterial) (manifestHash : Sha256Digest) :
    Except ManifestError ContextTurnManifest :=
  match h : checkManifest material with
  | .ok () => .ok ⟨material, manifestHash, h⟩
  | .error e => .error e

end Checks

section Hash

/-- The JSON texts of the parts of a manifest that are hashed as JSON. -/
structure ManifestCodec extends FactCodec where
  eligibilityJson : ContextEligibility → List UInt8
  snapshotsJson : List ContextSourceSnapshot → List UInt8
  admissionsJson : List ContextAdmission → List UInt8

variable (codec : ManifestCodec)

def contextBuilderVersion : UInt64 := 1

def integerBytes (value : Nat) : List UInt8 := toBeBytes (UInt64.ofNat value)

/-- The named fields of the material, in the order in which they are hashed. -/
def manifestFields (material : ManifestHashMaterial) : List (String × List UInt8) :=
  [("manifest_schema", toBeBytes contextBuilderVersion),
    ("context_turn_id", utf8Bytes material.contextTurnId.value),
    ("epoch_id", utf8Bytes material.epochId.value),
    ("session_id", utf8Bytes material.sessionId.value),
    ("attempt_id", utf8Bytes material.attemptId.value),
    ("run_turn", toBeBytes material.runTurn.toUInt64),
    ("expected_session_sequence", integerBytes material.expectedSessionSequence.get),
    ("memory_generation", integerBytes material.memoryGeneration.get),
    ("provider_id", utf8Bytes material.model.providerId.value),
    ("model_id", utf8Bytes material.model.modelId.value),
    ("request_hash", utf8Bytes material.requestHash.value),
    ("rendered_hash", utf8Bytes material.renderedHash.value),
    ("eligibility", codec.eligibilityJson material.eligibility),
    ("token_budget", integerBytes material.budget.tokenBudget.get),
    ("reserved_tokens", integerBytes material.budget.reservedTokens.get),
    ("durable_memory_limit", integerBytes material.budget.durableMemoryLimit.get),
    ("rendered_token_count", integerBytes material.renderedTokenCount.get),
    ("committed_at", toBeBytes material.committedAt.value.toUInt64),
    ("sources", codec.snapshotsJson material.snapshots),
    ("admissions", codec.admissionsJson material.admissions)]

def encodeFields (encoder : CanonicalEncoder) (fields : List (String × List UInt8)) :
    CanonicalEncoder :=
  fields.foldl (fun encoder field => encoder.field field.1 field.2) encoder

def hashManifestMaterial (material : ManifestHashMaterial) : Sha256Digest :=
  (encodeFields CanonicalEncoder.new (manifestFields codec material)).finish codec.toFactCodec

def contextManifestHash (manifest : ContextTurnManifest) : Sha256Digest :=
  hashManifestMaterial codec manifest.material

/-- Verifies persisted manifest integrity without consulting mutable state. -/
def verifyContextManifestHash (manifest : ContextTurnManifest) : Bool :=
  contextManifestHash codec manifest = manifest.manifestHash

end Hash

section Seal

variable (codec : ManifestCodec)

def sealMaterial (request : ContextBuildRequest) (built : BuiltContext)
    (budget : ContextBudgetAllocation) (requestHash : Sha256Digest) : ManifestHashMaterial where
  contextTurnId := request.contextTurnId
  epochId := request.epochId
  sessionId := request.sessionId
  attemptId := request.attemptId
  runTurn := request.runTurn
  expectedSessionSequence := request.expectedSessionSequence
  memoryGeneration := request.memoryGeneration
  model := request.model
  requestHash := requestHash
  renderedHash := built.renderedHash
  eligibility := ⟨request.retrievalScope.userId, request.retrievalScope.workspaceId,
    request.retrievalScope.sessionId, request.retrievalScope.agentId,
    request.retrievalScope.sensitivityCeiling⟩
  budget := budget
  renderedTokenCount := built.renderedTokenCount
  committedAt := request.committedAt
  snapshots := built.snapshots
  admissions := built.admissions

/-- Seals the draft with the exact final provider-neutral request hash. -/
def BuiltContext.seal (built : BuiltContext) (requestHash : Sha256Digest) :
    Except ContextError ContextTurnManifest := do
  let request := built.request
  let budget ← (ContextBudgetAllocation.new request.tokenBudget request.reservedTokens
    request.durableMemoryLimit).mapError fun _ => .invalidDomainValue
  let material := sealMaterial request built budget requestHash
  (ContextTurnManifest.new material (hashManifestMaterial codec material)).mapError fun _ =>
    .invalidDomainValue

end Seal

end AutoHarness
