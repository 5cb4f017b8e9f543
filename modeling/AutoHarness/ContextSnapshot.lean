import AutoHarness.CompactedHistory
import AutoHarness.FrozenContinuation

namespace AutoHarness

section Turn

/-- Whether one provider turn starts or reuses an immutable context epoch. -/
inductive ContextEpochMode where
  | newAttempt (explicitRetry : Bool)
  | existing (epoch : ContextEpochManifest)
  | compaction (epochId predecessorEpochId : ContextEpochId)

/-- Immutable inputs sampled before constructing a provider turn. -/
structure ContextPreparationInput where
  sessionId : SessionId
  attemptId : AttemptId
  runTurn : UInt32
  expectedSessionSequence : SessionSequence
  memoryGeneration : MemoryGeneration
  model : ModelRef
  request : ChatRequest
  retrievalScope : RetrievalScope
  compatibility : EpochCompatibility
  epoch : ContextEpochMode
  observedSources : List ObservedContextSource
  memoryCandidates : List MemoryCandidate
  committedAt : TimestampMillis

variable (codec : RequestCodec)

theorem contextEpochId_valid (digest : Sha256Digest) :
    validateIdentifier ("context-epoch:" ++ digest.value) = .ok () :=
  taggedDigest_valid (by simp [isSafeIdentifierCharacter]) (by decide) digest

def contextEpochId (attemptId : AttemptId) : ContextEpochId :=
  let digest := digestFields codec.toFactCodec [utf8Bytes "autoharness-context-epoch-v1",
    utf8Bytes attemptId.value]
  ⟨"context-epoch:" ++ digest.value, contextEpochId_valid digest⟩

def compactionEpochId (attemptId : AttemptId) (runTurn : UInt32) (predecessorEpochId : ContextEpochId)
    (cutoff : SessionSequence) : ContextEpochId :=
  let digest := digestFields codec.toFactCodec [utf8Bytes "autoharness-context-compaction-epoch-v1",
    utf8Bytes attemptId.value, toBeBytes32 runTurn, utf8Bytes predecessorEpochId.value,
    toBeBytes (UInt64.ofNat cutoff.get)]
  ⟨"context-epoch:" ++ digest.value, contextEpochId_valid digest⟩

def ContextPreparationInput.epochId (input : ContextPreparationInput) : ContextEpochId :=
  match input.epoch with
  | .newAttempt _ => contextEpochId codec input.attemptId
  | .existing epoch => epoch.epochId
  | .compaction epochId _ => epochId

/-- The epoch that starts with the turn; an existing one must be compatible and starts none. -/
def prepareEpoch (input : ContextPreparationInput) (epochId : ContextEpochId) :
    Except PrepareError (Option ContextEpochManifest) :=
  let epoch : ContextEpochManifest := ⟨epochId, input.sessionId, input.memoryGeneration,
    contextVersions, input.compatibility.hashes, input.compatibility.tokenBudget⟩
  match input.epoch with
  | .existing existing =>
    if input.runTurn ≤ 1 ∨ existing ≠ epoch then .error .configuration else .ok none
  | .newAttempt _ => if input.runTurn ≠ 1 then .error .configuration else .ok (some epoch)
  | .compaction _ predecessorEpochId =>
    if predecessorEpochId = epochId then .error .configuration else .ok (some epoch)

theorem rendered_checked {value : String}
    (h : ¬ (value.isEmpty = true ∨ maxRenderedContextBytes < value.utf8ByteSize)) :
    value.isEmpty = false ∧ value.utf8ByteSize ≤ maxRenderedContextBytes :=
  ⟨Bool.eq_false_iff.mpr fun empty => h (.inl empty), Nat.not_lt.mp fun long => h (.inr long)⟩

def RenderedContextText.new (value : String) : Except PrepareError RenderedContextText :=
  if h : value.isEmpty = true ∨ maxRenderedContextBytes < value.utf8ByteSize then
    .error (.store .limitExceeded)
  else .ok ⟨value, (rendered_checked h).1, (rendered_checked h).2⟩

/-- What the builder is asked for. -/
def ContextPreparationInput.buildRequest (input : ContextPreparationInput)
    (reservedTokens : EstimatedTokens) : ContextBuildRequest where
  contextTurnId := contextTurnId codec.toFactCodec input.attemptId input.runTurn
  epochId := input.epochId codec
  sessionId := input.sessionId
  attemptId := input.attemptId
  runTurn := input.runTurn
  expectedSessionSequence := input.expectedSessionSequence
  memoryGeneration := input.memoryGeneration
  model := input.model
  tokenBudget := input.compatibility.tokenBudget
  reservedTokens := reservedTokens
  durableMemoryLimit := input.compatibility.durableMemoryLimit
  committedAt := input.committedAt
  retrievalScope := input.retrievalScope
  observedSources := input.observedSources
  auditSnapshots := dynamicRequestSnapshots codec input.request input.committedAt
  memoryCandidates := input.memoryCandidates

def ContextPreparationInput.refused (input : ContextPreparationInput) : Bool :=
  input.runTurn = 0 || input.model.modelId ≠ input.request.modelId ||
    input.retrievalScope.sessionId ≠ input.sessionId

/-- The request under the prelude of a draft. -/
def preludeRequest (request : ChatRequest) : Option String → Except PrepareError ChatRequest
  | none => .ok request
  | some prelude => do
    let context ← (ContextPrelude.new prelude).mapError .provider
    .ok (request.withContext context)

/-- The records of the admissions, in their order, and the whole prelude. -/
def turnContent (built : BuiltContext) (manifest : ContextTurnManifest) :
    Except PrepareError ContextTurnContent := do
  let renderedItems := built.selectedSources.map RenderedSource.rendered ++
    built.selectedMemories.map RenderedMemory.rendered
  let contents ← (manifest.material.admissions.zip renderedItems).mapM fun entry =>
    (RenderedContextText.new entry.2).map fun rendered =>
      (⟨entry.1.admissionId, rendered⟩ : ContextAdmissionContent)
  if contents.length ≠ manifest.material.admissions.length then .error .configuration
  else
    match built.prelude with
    | none => .ok ⟨none, contents⟩
    | some prelude => (RenderedContextText.new prelude).map fun prelude => ⟨some prelude, contents⟩

/-- Builds and seals one provider turn without observing mutable external state. -/
def prepareContextTurn (input : ContextPreparationInput) : Except PrepareError PreparedContextTurn :=
  if input.refused = true then .error .configuration
  else do
    let reservedTokens ← estimatedRequestBytes codec input.request
    let built ← (build codec.toFactCodec (input.buildRequest codec reservedTokens)).mapError .memory
    let request ← preludeRequest input.request built.prelude
    let manifest ← (built.seal codec.toManifestCodec (providerRequestHash codec request)).mapError .memory
    let content ← turnContent built manifest
    let epoch ← prepareEpoch input (input.epochId codec)
    .ok ⟨request, epoch, manifest, content⟩

end Turn

section Snapshot

/-- What is read for a new epoch at one time. -/
structure EpochReads where
  retrievalScope : RetrievalScope
  memoryGeneration : MemoryGeneration
  memoryCandidates : List MemoryCandidate
  observedSources : List ObservedContextSource

/-- Everything outside the preparation that it asks. -/
structure ContextPorts where
  /-- The memory search and the observation of the sources, with a history to observe. -/
  readEpoch : Option CompactedHistoryV1 → TimestampMillis → Except PrepareError EpochReads
  /-- The scope of a baseline, as it was when its epoch started; nothing without a workspace. -/
  baselineScope : Option RetrievalScope
  /-- The hashes of what an epoch depends on. -/
  epochHashes : ChatRequest → RetrievalScope → ContextTokenBudget → EstimatedTokens → ContextEpochHashes

/-- The exact durable baseline of a continuation. -/
structure FrozenContextBaseline where
  epoch : ContextEpochManifest
  turn : ContextTurnManifest
  content : ContextTurnContent

/-- What is read of the session at one possible cutoff. -/
structure CutoffReads where
  cutoff : SessionSequence
  request : Except PrepareError ChatRequest
  predecessorEpochId : Except PrepareError (Option ContextEpochId)
  groups : Except PrepareError (List CompactedHistoryGroup)

/-- The attempt whose next turn is prepared. -/
structure SnapshotInput where
  sessionId : SessionId
  attemptId : AttemptId
  runTurn : UInt32
  model : ModelRef
  explicitRetry : Bool
  expectedSessionSequence : SessionSequence
  inputTokenLimit : Option UInt64
  retainedHistory : Option CompactedHistoryV1
  request : ChatRequest
  frozen : Option FrozenContextBaseline
  cutoffs : List CutoffReads
  now : TimestampMillis

structure CompactionCandidate where
  history : CompactedHistoryV1
  request : ChatRequest
  predecessorEpochId : ContextEpochId
  epochId : ContextEpochId

def defaultContextTokenBudget : UInt64 := 65536

def contextSizerBytesPerToken : Nat := 4

/-- The budget of the model in bytes, kept within `u64`. -/
def contextTokenBudget (inputTokenLimit : Option UInt64) : Except PrepareError ContextTokenBudget :=
  let value := min ((inputTokenLimit.getD defaultContextTokenBudget).toNat * contextSizerBytesPerToken)
    18446744073709551615
  if h : 0 < value ∧ value ≤ maxEstimatedTokens then .ok ⟨value, h.1, h.2⟩ else .error .configuration

variable (codec : RequestCodec) (json : HistoryJson) (omittedHash : OmittedHash) (ports : ContextPorts)

def exactRequestFits (request : ChatRequest) (tokenBudget : ContextTokenBudget) : Bool :=
  (codec.requestJson request).length ≤ tokenBudget.get

/-- The preparation of a new epoch from what was read for it. -/
def newEpochInput (input : SnapshotInput) (request : ChatRequest) (tokenBudget : ContextTokenBudget)
    (durableMemoryLimit : EstimatedTokens) (epoch : ContextEpochMode) (committedAt : TimestampMillis)
    (reads : EpochReads) : ContextPreparationInput where
  sessionId := input.sessionId
  attemptId := input.attemptId
  runTurn := input.runTurn
  expectedSessionSequence := input.expectedSessionSequence
  memoryGeneration := reads.memoryGeneration
  model := input.model
  request := request
  retrievalScope := reads.retrievalScope
  compatibility := ⟨ports.epochHashes request reads.retrievalScope tokenBudget durableMemoryLimit,
    tokenBudget, durableMemoryLimit⟩
  epoch := epoch
  observedSources := reads.observedSources
  memoryCandidates := reads.memoryCandidates
  committedAt := committedAt

def prepareNewContextEpoch (input : SnapshotInput) (request : ChatRequest)
    (tokenBudget : ContextTokenBudget) (durableMemoryLimit : EstimatedTokens) (epoch : ContextEpochMode)
    (compactedHistory : Option CompactedHistoryV1) (committedAt : TimestampMillis) :
    Except PrepareError PreparedContextTurn := do
  let reads ← ports.readEpoch compactedHistory committedAt
  prepareContextTurn codec (newEpochInput ports input request tokenBudget durableMemoryLimit epoch
    committedAt reads)

def maxCompactedHistoryBytes : Nat := min 16384 maxContextSourceValueBytes

/-- The first cutoff whose history and request make a turn that fits. -/
def selectCompactionCandidate (input : SnapshotInput) (tokenBudget : ContextTokenBudget)
    (durableMemoryLimit : EstimatedTokens) :
    List CutoffReads → Except PrepareError (Option CompactionCandidate)
  | [] => .ok none
  | reads :: rest => do
    let request ← reads.request
    match ← reads.predecessorEpochId with
    | none => selectCompactionCandidate input tokenBudget durableMemoryLimit rest
    | some predecessorEpochId =>
      let groups ← reads.groups
      match compactHistory json omittedHash input.sessionId reads.cutoff input.retainedHistory groups
          maxCompactedHistoryBytes with
      | .error _ => selectCompactionCandidate input tokenBudget durableMemoryLimit rest
      | .ok history =>
        let epochId := compactionEpochId codec input.attemptId input.runTurn predecessorEpochId reads.cutoff
        match prepareNewContextEpoch codec ports input request tokenBudget durableMemoryLimit
            (.compaction epochId predecessorEpochId) (some history) input.now with
        | .ok turn =>
          if exactRequestFits codec turn.request tokenBudget = true then
            .ok (some ⟨history, request, predecessorEpochId, epochId⟩)
          else selectCompactionCandidate input tokenBudget durableMemoryLimit rest
        | .error (.memory .budgetExceeded) =>
          selectCompactionCandidate input tokenBudget durableMemoryLimit rest
        | .error e => .error e

/-- The continuation of a baseline under the scope that its epoch had. -/
def continuationInput (input : SnapshotInput) (tokenBudget : ContextTokenBudget)
    (durableMemoryLimit : EstimatedTokens) (baseline : FrozenContextBaseline) (scope : RetrievalScope) :
    FrozenContinuationInput where
  request := input.request
  expectedSessionSequence := input.expectedSessionSequence
  runTurn := input.runTurn
  committedAt := input.now
  epoch := baseline.epoch
  baselineTurn := baseline.turn
  baselineContent := baseline.content
  compatibility := ⟨ports.epochHashes input.request scope tokenBudget durableMemoryLimit, tokenBudget,
    durableMemoryLimit⟩

/-- The context without a compaction; nothing when the request alone is too large. -/
def ordinaryContext (input : SnapshotInput) (tokenBudget : ContextTokenBudget)
    (durableMemoryLimit : EstimatedTokens) : Option (Except PrepareError PreparedContextTurn) :=
  if exactRequestFits codec input.request tokenBudget = false then none
  else
    match input.frozen with
    | some baseline => some do
      let scope ← ports.baselineScope.elim (.error .configuration) .ok
      prepareFrozenContinuation codec
        (continuationInput ports input tokenBudget durableMemoryLimit baseline scope)
    | none => some (prepareNewContextEpoch codec ports input input.request tokenBudget durableMemoryLimit
        (.newAttempt input.explicitRetry) input.retainedHistory input.now)

/-- What the ordinary context leads to. -/
inductive OrdinaryOutcome where
  | prepared (turn : PreparedContextTurn)
  | compaction
  | failed (error : PrepareError)

def ordinaryOutcome (input : SnapshotInput) (tokenBudget : ContextTokenBudget)
    (durableMemoryLimit : EstimatedTokens) : OrdinaryOutcome :=
  match ordinaryContext codec ports input tokenBudget durableMemoryLimit with
  | some (.ok turn) =>
    if exactRequestFits codec turn.request tokenBudget = true then .prepared turn else .compaction
  | none | some (.error (.memory .budgetExceeded)) => .compaction
  | some (.error e) => .failed e

def durableLimit (tokenBudget : ContextTokenBudget) : Except PrepareError EstimatedTokens :=
  (EstimatedTokens.new (tokenBudget.get / 4)).mapError fun _ => .configuration

/-- The budget and the limit of durable memory that a turn is prepared under. -/
def snapshotLimits (input : SnapshotInput) : Except PrepareError (ContextTokenBudget × EstimatedTokens) := do
  let tokenBudget ← input.frozen.elim (contextTokenBudget input.inputTokenLimit) fun baseline =>
    .ok baseline.epoch.tokenBudget
  let durableMemoryLimit ← input.frozen.elim (durableLimit tokenBudget) fun baseline =>
    .ok baseline.turn.material.budget.durableMemoryLimit
  .ok (tokenBudget, durableMemoryLimit)

/-- The proposal that is recorded for a candidate and the facts that are checked for its turn. -/
structure CompactionPorts where
  ensureProposal : CompactionCandidate → Except PrepareError Unit
  checkFacts : PreparedContextTurn → CompactionCandidate → Except PrepareError Unit
  committedAt : TimestampMillis

def prepareContextSnapshot (compaction : CompactionPorts) (input : SnapshotInput) :
    Except PrepareError PreparedContextTurn := do
  let (tokenBudget, durableMemoryLimit) ← snapshotLimits input
  match ordinaryOutcome codec ports input tokenBudget durableMemoryLimit with
  | .prepared turn => .ok turn
  | .failed e => .error e
  | .compaction =>
    match ← selectCompactionCandidate codec json omittedHash ports input tokenBudget durableMemoryLimit
        input.cutoffs with
    | none => .error (.memory .budgetExceeded)
    | some candidate => do
      compaction.ensureProposal candidate
      let turn ← prepareNewContextEpoch codec ports input candidate.request tokenBudget durableMemoryLimit
        (.compaction candidate.epochId candidate.predecessorEpochId) (some candidate.history)
        compaction.committedAt
      if exactRequestFits codec turn.request tokenBudget = false then .error (.memory .budgetExceeded)
      else do
        compaction.checkFacts turn candidate
        .ok turn

end Snapshot

section Shortfall

open FallibleRun

variable {codec : RequestCodec} {ports : ContextPorts} {input : SnapshotInput}
  {tokenBudget : ContextTokenBudget} {durableMemoryLimit : EstimatedTokens}

/-- The preparation of the first turn of an attempt. -/
def firstTurn (ports : ContextPorts) (input : SnapshotInput) (tokenBudget : ContextTokenBudget)
    (durableMemoryLimit : EstimatedTokens) (reads : EpochReads) : ContextPreparationInput :=
  newEpochInput ports input input.request tokenBudget durableMemoryLimit
    (.newAttempt input.explicitRetry) input.now reads

/-- The first turn of an epoch of which everything can be built, but the request does not leave free what
is set aside for durable memory. -/
structure AllocationShort (codec : RequestCodec) (ports : ContextPorts) (input : SnapshotInput)
    (tokenBudget : ContextTokenBudget) (durableMemoryLimit : EstimatedTokens) : Prop where
  new : input.frozen = none
  built : ∃ reads reservedTokens built request,
    ports.readEpoch input.retainedHistory input.now = .ok reads ∧
      (firstTurn ports input tokenBudget durableMemoryLimit reads).refused = false ∧
      estimatedRequestBytes codec input.request = .ok reservedTokens ∧
      build codec.toFactCodec ((firstTurn ports input tokenBudget durableMemoryLimit reads).buildRequest
        codec reservedTokens) = .ok built ∧
      preludeRequest input.request built.prelude = .ok request ∧
      tokenBudget.get < reservedTokens.get + durableMemoryLimit.get

/-- The first turn of an epoch of which a required part does not fit. -/
structure BuilderShort (codec : RequestCodec) (ports : ContextPorts) (input : SnapshotInput)
    (tokenBudget : ContextTokenBudget) (durableMemoryLimit : EstimatedTokens) : Prop where
  new : input.frozen = none
  exceeded : ∃ reads reservedTokens,
    ports.readEpoch input.retainedHistory input.now = .ok reads ∧
      (firstTurn ports input tokenBudget durableMemoryLimit reads).refused = false ∧
      estimatedRequestBytes codec input.request = .ok reservedTokens ∧
      build codec.toFactCodec ((firstTurn ports input tokenBudget durableMemoryLimit reads).buildRequest
        codec reservedTokens) = .error .budgetExceeded

/-- A continuation whose request does not leave free what its baseline takes; all else is in order. -/
structure ContinuationShort (codec : RequestCodec) (ports : ContextPorts) (input : SnapshotInput)
    (tokenBudget : ContextTokenBudget) (durableMemoryLimit : EstimatedTokens) : Prop where
  short : ∃ baseline scope request reservedTokens,
    input.frozen = some baseline ∧ ports.baselineScope = some scope ∧
      continuationRefused codec (continuationInput ports input tokenBudget durableMemoryLimit baseline
        scope) = false ∧
      preludeRefused codec baseline.turn.material baseline.content.prelude = false ∧
      refuseDuplicate ((continuationSources codec (continuationInput ports input tokenBudget
        durableMemoryLimit baseline scope)).map ContextSourceSnapshot.sourceKey) = .ok () ∧
      framedRequest input.request baseline.content.prelude = .ok request ∧
      estimatedRequestBytes codec input.request = .ok reservedTokens ∧
      (baseline.epoch.tokenBudget.get <
          reservedTokens.get + baseline.turn.material.budget.durableMemoryLimit.get ∨
        baseline.epoch.tokenBudget.get <
          reservedTokens.get + baseline.turn.material.renderedTokenCount.get)

/-- The ordinary context cannot be had because request and context exceed the budget. -/
inductive Shortfall (codec : RequestCodec) (ports : ContextPorts) (input : SnapshotInput)
    (tokenBudget : ContextTokenBudget) (durableMemoryLimit : EstimatedTokens) : Prop where
  | request (large : exactRequestFits codec input.request tokenBudget = false)
  | turn (turn : PreparedContextTurn)
    (made : ordinaryContext codec ports input tokenBudget durableMemoryLimit = some (.ok turn))
    (large : exactRequestFits codec turn.request tokenBudget = false)
  | builder (short : BuilderShort codec ports input tokenBudget durableMemoryLimit)
  | allocation (short : AllocationShort codec ports input tokenBudget durableMemoryLimit)
  | continuation (short : ContinuationShort codec ports input tokenBudget durableMemoryLimit)

theorem prepareContextTurn_exceeded {prepared : ContextPreparationInput}
    {reservedTokens : EstimatedTokens} (accepted : prepared.refused = false)
    (estimated : estimatedRequestBytes codec prepared.request = .ok reservedTokens)
    (exceeded : build codec.toFactCodec (prepared.buildRequest codec reservedTokens) =
      .error .budgetExceeded) :
    prepareContextTurn codec prepared = .error (.memory .budgetExceeded) := by
  unfold prepareContextTurn
  rw [accepted, if_neg Bool.false_ne_true, estimated, ok_bind, exceeded]
  rfl

theorem allocation_refused {reservedTokens : EstimatedTokens}
    (short : tokenBudget.get < reservedTokens.get + durableMemoryLimit.get) :
    ContextBudgetAllocation.new tokenBudget reservedTokens durableMemoryLimit =
      .error .invalidContextManifest := by
  have refused : reservedTokens.get > tokenBudget.get ∨
      durableMemoryLimit.get > tokenBudget.get - reservedTokens.get := by omega
  exact dif_pos refused

/-- A draft is not sealed when its budget cannot be allocated. -/
theorem prepareContextTurn_allocation {prepared : ContextPreparationInput}
    {reservedTokens : EstimatedTokens} {built : BuiltContext} {request : ChatRequest}
    (accepted : prepared.refused = false)
    (estimated : estimatedRequestBytes codec prepared.request = .ok reservedTokens)
    (made : build codec.toFactCodec (prepared.buildRequest codec reservedTokens) = .ok built)
    (framed : preludeRequest prepared.request built.prelude = .ok request)
    (refused : ContextBudgetAllocation.new prepared.compatibility.tokenBudget reservedTokens
      prepared.compatibility.durableMemoryLimit = .error .invalidContextManifest) :
    prepareContextTurn codec prepared = .error (.memory .invalidDomainValue) := by
  obtain ⟨same, -⟩ := build_draft made
  have unsealed : built.seal codec.toManifestCodec (providerRequestHash codec request) =
      .error .invalidDomainValue := by
    unfold BuiltContext.seal
    rw [same]
    show ((ContextBudgetAllocation.new prepared.compatibility.tokenBudget reservedTokens
      prepared.compatibility.durableMemoryLimit).mapError _ >>= _) = _
    rw [refused]
    rfl
  unfold prepareContextTurn
  rw [accepted, if_neg Bool.false_ne_true, estimated, ok_bind, made]
  show (preludeRequest prepared.request built.prelude >>= _) = _
  rw [framed, ok_bind, unsealed]
  rfl

/-- A continuation that finds no room reports a wrong configuration. -/
theorem prepareFrozenContinuation_short {continued : FrozenContinuationInput} {request : ChatRequest}
    {reservedTokens : EstimatedTokens} (accepted : continuationRefused codec continued = false)
    (rendered : preludeRefused codec continued.baselineTurn.material
      continued.baselineContent.prelude = false)
    (distinct : refuseDuplicate ((continuationSources codec continued).map
      ContextSourceSnapshot.sourceKey) = .ok ())
    (framed : framedRequest continued.request continued.baselineContent.prelude = .ok request)
    (estimated : estimatedRequestBytes codec continued.request = .ok reservedTokens)
    (short : continued.epoch.tokenBudget.get <
        reservedTokens.get + continued.baselineTurn.material.budget.durableMemoryLimit.get ∨
      continued.epoch.tokenBudget.get <
        reservedTokens.get + continued.baselineTurn.material.renderedTokenCount.get) :
    prepareFrozenContinuation codec continued = .error .configuration := by
  unfold prepareFrozenContinuation
  dsimp only
  rw [accepted, rendered, if_neg Bool.false_ne_true, if_neg Bool.false_ne_true, distinct, framed,
    estimated]
  simp only [Except.mapError, ok_bind]
  cases allocated : ContextBudgetAllocation.new continued.epoch.tokenBudget reservedTokens
      continued.baselineTurn.material.budget.durableMemoryLimit with
  | error e => rfl
  | ok budget =>
    obtain ⟨total, reserved, -⟩ := allocation_eq allocated
    have room := allocation_ok_iff.mp ⟨budget, allocated⟩
    have beyond : continued.baselineTurn.material.renderedTokenCount.get > budget.renderedLimit := by
      rw [ContextBudgetAllocation.renderedLimit, total, reserved]
      omega
    exact if_pos beyond

variable (codec ports input tokenBudget durableMemoryLimit) in
/-- The request fits, and what does not fit beside it is only seen when the context is sealed or
continued. -/
def Unreported : Prop :=
  exactRequestFits codec input.request tokenBudget = true ∧
    (AllocationShort codec ports input tokenBudget durableMemoryLimit ∨
      ContinuationShort codec ports input tokenBudget durableMemoryLimit)

theorem ordinaryContext_none (large : exactRequestFits codec input.request tokenBudget = false) :
    ordinaryContext codec ports input tokenBudget durableMemoryLimit = none := if_pos large

theorem ordinaryContext_first (fits : exactRequestFits codec input.request tokenBudget = true)
    (new : input.frozen = none) {reads : EpochReads}
    (read : ports.readEpoch input.retainedHistory input.now = .ok reads) :
    ordinaryContext codec ports input tokenBudget durableMemoryLimit =
      some (prepareContextTurn codec (firstTurn ports input tokenBudget durableMemoryLimit reads)) := by
  unfold ordinaryContext prepareNewContextEpoch
  rw [fits, if_neg (by decide), new, read]
  rfl

theorem ordinaryContext_continued (fits : exactRequestFits codec input.request tokenBudget = true)
    {baseline : FrozenContextBaseline} (frozen : input.frozen = some baseline) {scope : RetrievalScope}
    (found : ports.baselineScope = some scope) :
    ordinaryContext codec ports input tokenBudget durableMemoryLimit =
      some (prepareFrozenContinuation codec
        (continuationInput ports input tokenBudget durableMemoryLimit baseline scope)) := by
  unfold ordinaryContext
  rw [fits, if_neg (by decide), frozen, found]
  rfl

/-- What is only seen when the context is sealed or continued fails the preparation. -/
theorem ordinaryOutcome_unreported (h : Unreported codec ports input tokenBudget durableMemoryLimit) :
    ∃ e, ordinaryOutcome codec ports input tokenBudget durableMemoryLimit = .failed e := by
  obtain ⟨fits, short | short⟩ := h
  · obtain ⟨reads, reservedTokens, built, request, read, accepted, estimated, made, framed, less⟩ :=
      short.built
    have failed := prepareContextTurn_allocation accepted estimated made framed (allocation_refused less)
    refine ⟨.memory .invalidDomainValue, ?_⟩
    rw [ordinaryOutcome, ordinaryContext_first fits short.new read, failed]
  · obtain ⟨baseline, scope, request, reservedTokens, frozen, found, accepted, rendered, distinct, framed,
      estimated, less⟩ := short.short
    have failed := prepareFrozenContinuation_short accepted rendered distinct framed estimated less
    refine ⟨.configuration, ?_⟩
    rw [ordinaryOutcome, ordinaryContext_continued fits frozen found, failed]

theorem ordinaryOutcome_large (large : exactRequestFits codec input.request tokenBudget = false) :
    ordinaryOutcome codec ports input tokenBudget durableMemoryLimit = .compaction := by
  rw [ordinaryOutcome, ordinaryContext_none large]

/-- A shortfall leads to a compaction unless it is only seen when the context is sealed or continued. -/
theorem shortfall_compacts_iff (short : Shortfall codec ports input tokenBudget durableMemoryLimit) :
    ordinaryOutcome codec ports input tokenBudget durableMemoryLimit = .compaction ↔
      ¬ Unreported codec ports input tokenBudget durableMemoryLimit := by
  constructor
  · intro compacts unreported
    obtain ⟨e, failed⟩ := ordinaryOutcome_unreported unreported
    rw [failed] at compacts
    cases compacts
  · intro reported
    have alone (kind : AllocationShort codec ports input tokenBudget durableMemoryLimit ∨
        ContinuationShort codec ports input tokenBudget durableMemoryLimit) :
        ordinaryOutcome codec ports input tokenBudget durableMemoryLimit = .compaction :=
      ordinaryOutcome_large (Bool.eq_false_iff.mpr fun fits => reported ⟨fits, kind⟩)
    cases short with
    | request large => exact ordinaryOutcome_large large
    | turn turn made large =>
      rw [ordinaryOutcome, made]
      exact if_neg (by rw [large]; exact Bool.false_ne_true)
    | builder short =>
      cases fits : exactRequestFits codec input.request tokenBudget with
      | false => exact ordinaryOutcome_large fits
      | true =>
        obtain ⟨reads, reservedTokens, read, accepted, estimated, exceeded⟩ := short.exceeded
        have failed := prepareContextTurn_exceeded accepted estimated exceeded
        rw [ordinaryOutcome, ordinaryContext_first fits short.new read, failed]
    | allocation short => exact alone (.inl short)
    | continuation short => exact alone (.inr short)

variable {json : HistoryJson} {omittedHash : OmittedHash} {compaction : CompactionPorts}

/-- A turn that is prepared fits the budget that it was prepared under. -/
theorem prepareContextSnapshot_fits {turn : PreparedContextTurn}
    (h : prepareContextSnapshot codec json omittedHash ports compaction input = .ok turn) :
    ∃ limits, snapshotLimits input = .ok limits ∧ exactRequestFits codec turn.request limits.1 = true := by
  obtain ⟨limits, limited, h⟩ := bind_eq_ok_iff.mp h
  refine ⟨limits, limited, ?_⟩
  dsimp only at h
  split at h
  · rename_i prepared outcome
    cases h
    unfold ordinaryOutcome at outcome
    split at outcome
    · split at outcome
      · rename_i fits
        cases outcome
        exact fits
      · cases outcome
    all_goals cases outcome
  · cases h
  · obtain ⟨selected, -, h⟩ := bind_eq_ok_iff.mp h
    split at h
    · cases h
    · obtain ⟨-, -, h⟩ := bind_eq_ok_iff.mp h
      obtain ⟨last, -, h⟩ := bind_eq_ok_iff.mp h
      split at h
      · cases h
      · rename_i fits
        obtain ⟨-, -, h⟩ := bind_eq_ok_iff.mp h
        cases h
        simpa using fits

/-- What is only seen when the context is sealed or continued is a shortfall all the same. -/
theorem unreported_shortfall (h : Unreported codec ports input tokenBudget durableMemoryLimit) :
    Shortfall codec ports input tokenBudget durableMemoryLimit :=
  h.2.elim .allocation .continuation

/-- Every shortfall leads to a compaction unless the request fits and only the seal of a first turn or
the continuation of a baseline finds no room; whatever is prepared fits the budget. -/
theorem shortfall_reaches_compaction (codec : RequestCodec) (json : HistoryJson)
    (omittedHash : OmittedHash) (ports : ContextPorts) (compaction : CompactionPorts)
    (input : SnapshotInput) :
    (∀ tokenBudget durableMemoryLimit,
      ((Shortfall codec ports input tokenBudget durableMemoryLimit →
          ordinaryOutcome codec ports input tokenBudget durableMemoryLimit = .compaction) ↔
        ¬ Unreported codec ports input tokenBudget durableMemoryLimit)) ∧
    ∀ turn, prepareContextSnapshot codec json omittedHash ports compaction input = .ok turn →
      ∃ limits, snapshotLimits input = .ok limits ∧
        exactRequestFits codec turn.request limits.1 = true := by
  refine ⟨fun tokenBudget durableMemoryLimit => ⟨fun reaches unreported => ?_, fun reported short => ?_⟩,
    fun turn prepared => prepareContextSnapshot_fits prepared⟩
  · have short := unreported_shortfall unreported
    exact (shortfall_compacts_iff short).mp (reaches short) unreported
  · exact (shortfall_compacts_iff short).mpr reported

end Shortfall

section Sample

/-- A request of 3900 bytes. -/
def sampleLargeCodec : RequestCodec :=
  { sampleRequestCodec with requestJson := fun _ => List.replicate 3900 32 }

def samplePorts : ContextPorts where
  readEpoch _ _ := .error .configuration
  baselineScope := some ⟨sampleId _ 1, sampleId _ 1, sampleSession, none, ⟨1⟩, .internal⟩
  epochHashes _ _ _ _ := ⟨sampleHash, sampleHash, sampleHash, sampleHash⟩

/-- The second turn of an attempt under a budget of 4000 bytes, of which 1000 are set aside. -/
def sampleSnapshotInput : SnapshotInput where
  sessionId := sampleSession
  attemptId := sampleAttempt
  runTurn := 2
  model := sampleModel
  explicitRetry := false
  expectedSessionSequence := .first
  inputTokenLimit := none
  retainedHistory := none
  request := sampleContinuation.request
  frozen := some ⟨sampleContinuation.epoch, sampleContinuation.baselineTurn,
    sampleContinuation.baselineContent⟩
  cutoffs := []
  now := ⟨1⟩

theorem sampleRequest_bounded : 3900 ≤ maxEstimatedTokens := by decide

theorem sampleRequest_length (request : ChatRequest) :
    (sampleLargeCodec.requestJson request).length = 3900 := List.length_replicate

theorem sampleRequest_estimated (request : ChatRequest) :
    estimatedRequestBytes sampleLargeCodec request = .ok ⟨3900, sampleRequest_bounded⟩ := by
  have same (n : Nat) (h : n = 3900) :
      ((EstimatedTokens.new n).mapError fun _ => PrepareError.configuration) =
        .ok ⟨3900, sampleRequest_bounded⟩ := by
    subst h
    rfl
  exact same _ (sampleRequest_length request)

theorem sampleSnapshot_unreported :
    Unreported sampleLargeCodec samplePorts sampleSnapshotInput sampleBudget sampleDurable := by
  have fits : exactRequestFits sampleLargeCodec sampleSnapshotInput.request sampleBudget = true := by
    rw [exactRequestFits, sampleRequest_length]
    decide
  refine ⟨fits, .inr ⟨⟨_, _, _, ⟨3900, sampleRequest_bounded⟩, rfl, rfl, ?_, ?_, ?_, rfl,
    sampleRequest_estimated _, .inl ?_⟩⟩⟩
  · decide
  · decide
  · exact continuationSources_distinct rfl
  · decide

/-- A continuation whose request fits but leaves no room beside it fails the attempt. -/
theorem continuation_fails_attempt :
    snapshotLimits sampleSnapshotInput = .ok (sampleBudget, sampleDurable) ∧
    Shortfall sampleLargeCodec samplePorts sampleSnapshotInput sampleBudget sampleDurable ∧
    ordinaryOutcome sampleLargeCodec samplePorts sampleSnapshotInput sampleBudget sampleDurable ≠
      .compaction := by
  refine ⟨rfl, unreported_shortfall sampleSnapshot_unreported, fun compacts => ?_⟩
  obtain ⟨e, failed⟩ := ordinaryOutcome_unreported sampleSnapshot_unreported
  rw [failed] at compacts
  cases compacts

end Sample

end AutoHarness
