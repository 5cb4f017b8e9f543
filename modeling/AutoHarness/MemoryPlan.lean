import AutoHarness.FallibleRun
import AutoHarness.MemoryValidator

namespace AutoHarness

open FallibleRun

structure MemoryEvidenceContent where
  evidenceId : MemoryEvidenceId
  excerpt : MemoryEvidenceExcerpt
deriving DecidableEq

/-- The erasable content of one revision and of its evidence. -/
structure MemoryRevisionContent where
  revisionId : MemoryRevisionId
  content : MemoryContent
  evidence : List MemoryEvidenceContent
deriving DecidableEq

structure MemoryAppendOperation where
  operation : MemoryOperationEnvelope
  content : Option MemoryRevisionContent
deriving DecidableEq

structure MemoryAppendBatchRequest where
  expectedLastSequence : Nat
  operations : List MemoryAppendOperation
deriving DecidableEq

inductive MemoryCommandError where
  | versionConflict
  | invalidTransition
  | validationRejected
  | unsupportedCommand
  | policy (error : MemoryError)
deriving DecidableEq

/-- One trusted command translated into one atomic store batch. -/
structure MemoryCommandPlan where
  batch : MemoryAppendBatchRequest
  validation : Option MemoryValidationResult

/-- The consecutive pairs of a list, `windows(2)`. -/
def windows {α : Type} (xs : List α) : List (α × α) :=
  xs.zip xs.tail

/-- `u64::saturating_add(1)` on values within the signed range never saturates. -/
def validateSnapshot (command : MemoryCommandEnvelope) (operations : List MemoryOperationEnvelope)
    (revisions : List MemoryRevision) (actualSequence : Nat) : Except MemoryCommandError Unit :=
  if (operations.any fun operation => operation.memoryId ≠ command.memoryId) ||
      !((windows operations).all fun pair => pair.2.sequence.get = pair.1.sequence.get + 1) ||
      ((windows revisions).any fun pair => pair.2.revision.get ≠ pair.1.revision.get + 1) then
    .error .invalidTransition
  else if command.payload.createsItem then
    if command.expectedSequence = none ∧ actualSequence = 0 then .ok ()
    else .error .versionConflict
  else
    match command.expectedSequence with
    | some expected =>
      if expected.get = actualSequence ∧ actualSequence > 0 then .ok () else .error .versionConflict
    | none => .error .versionConflict

def itemScopeKind : List MemoryOperationEnvelope → Except MemoryCommandError (MemoryScope × MemoryKind)
  | [] => .error .invalidTransition
  | first :: _ =>
    match first.payload with
    | .memoryCreated scope memoryKind _ => .ok (scope, memoryKind)
    | _ => .error .invalidTransition

def validateRevision (codec : FactCodec) (scope : MemoryScope) (kind : MemoryKind)
    (revision : MemoryRevisionDraft) (existing : List ExistingMemory)
    (excludeMemoryId : Option MemoryId) : Except MemoryCommandError MemoryValidationResult :=
  let filtered := existing.filter fun candidate => excludeMemoryId ≠ some candidate.memoryId
  (analyze codec ⟨[scope], .sensitive⟩ scope kind revision filtered).mapError .policy

def requireSubject (revisions : List MemoryRevision) (priorRevisionId : MemoryRevisionId)
    (candidate : MemoryRevisionDraft) : Except MemoryCommandError Unit :=
  match revisions.find? fun revision => revision.revisionId = priorRevisionId with
  | some prior => if prior.subjectKey = candidate.subjectKey then .ok () else .error .invalidTransition
  | none => .error .invalidTransition

def isExplicitAccepted (revision : MemoryRevisionDraft) (validation : MemoryValidationResult) : Bool :=
  revision.origin = .explicitUser && revision.trustClass = .userApproved &&
    validation.status = .accepted

def requireRevision (revisions : List MemoryRevision) (revisionId : MemoryRevisionId)
    (states : List MemoryRevisionStatus) : Except MemoryCommandError MemoryRevision :=
  match revisions.find? fun revision => revision.revisionId = revisionId with
  | some revision => if revision.status ∈ states then .ok revision else .error .invalidTransition
  | none => .error .invalidTransition

/-- An approval replaces the active revision, or the proposal itself when it replaces none. -/
def requireSuperseded (revisions : List MemoryRevision)
    (supersededRevisionId proposalRevisionId : MemoryRevisionId) : Except MemoryCommandError Unit :=
  if supersededRevisionId ≠ proposalRevisionId then do
    let _ ← requireRevision revisions supersededRevisionId [.active]
    .ok ()
  else .ok ()

def requireNextRevision (current : List MemoryRevision) (candidate : MemoryRevisionDraft) :
    Except MemoryCommandError Unit :=
  let expected := (current.getLast?.map fun revision => revision.revision.get + 1).getD 1
  if candidate.revision.get = expected ∧
      ∀ revision ∈ current, revision.revisionId ≠ candidate.revisionId then .ok ()
  else .error .invalidTransition

/-- The step of a command that an operation identity is derived from. -/
inductive MemoryStage where
  | create
  | propose
  | revise
  | approve
  | validate
  | activate
  | supersede
  | reject
  | retract
  | delete
deriving DecidableEq

def MemoryStage.text : MemoryStage → String
  | .create => "create"
  | .propose => "propose"
  | .revise => "revise"
  | .approve => "approve"
  | .validate => "validate"
  | .activate => "activate"
  | .supersede => "supersede"
  | .reject => "reject"
  | .retract => "retract"
  | .delete => "delete"

def hashField (bytes : List UInt8) (field : String) : List UInt8 :=
  appendLength bytes (utf8Bytes field).length ++ utf8Bytes field

theorem hexDigit_isSafe {c : Char} (h : (c.isDigit || ('a' ≤ c && c ≤ 'f')) = true) :
    isSafeIdentifierCharacter c = true := by
  have alphanumeric : c.isAlphanum = true := by
    simp only [Bool.or_eq_true, Bool.and_eq_true, decide_eq_true_eq] at h
    rcases h with digit | ⟨low, high⟩
    · simp [Char.isAlphanum, digit]
    · have upper : c ≤ 'z' := Char.le_trans high (by decide)
      have lower : c.isLower = true := by
        delta Char.isLower
        exact Bool.and_eq_true_iff.mpr ⟨decide_eq_true low, decide_eq_true upper⟩
      delta Char.isAlphanum Char.isAlpha
      rw [lower, Bool.or_true, Bool.true_or]
  simp [isSafeIdentifierCharacter, alphanumeric]

/-- A short tag of safe characters in front of a digest makes an identifier. -/
theorem taggedDigest_valid {tag : String} (safe : ∀ c ∈ tag.toList, isSafeIdentifierCharacter c = true)
    (short : tag.length ≤ 448) (digest : Sha256Digest) :
    validateIdentifier (tag ++ digest.value) = .ok () := by
  have hex := digest.hex
  simp only [Bool.and_eq_true, beq_iff_eq, List.all_eq_true] at hex
  obtain ⟨length, digits⟩ := hex
  have spelled : tag ++ digest.value = String.ofList (tag.toList ++ digest.value.toList) := by
    rw [String.ofList_append, String.ofList_toList, String.ofList_toList]
  have size : (tag.toList ++ digest.value.toList).length = tag.length + 64 := by
    rw [List.length_append, String.length_toList, String.length_toList, length]
  rw [spelled]
  refine validateIdentifier_of_isSafe ?_ ?_ fun c hc => ?_
  · refine List.ne_nil_of_length_pos ?_
    omega
  · rw [maxIdentifierBytes]
    omega
  · rcases List.mem_append.mp hc with hc | hc
    · exact safe c hc
    · exact hexDigit_isSafe (digits c hc)

theorem memoryOperationId_valid (digest : Sha256Digest) :
    validateIdentifier ("memory-operation:" ++ digest.value) = .ok () :=
  taggedDigest_valid (by simp [isSafeIdentifierCharacter]) (by decide) digest

def operationId (codec : FactCodec) (command : MemoryCommandEnvelope) (stage : MemoryStage) :
    MemoryOperationId :=
  let digest := codec.sha256 (hashField (hashField (hashField [] command.commandId.value)
    command.memoryId.value) stage.text)
  ⟨"memory-operation:" ++ digest.value, memoryOperationId_valid digest⟩

def revisionSidecar (revision : MemoryRevisionDraft) : MemoryRevisionContent where
  revisionId := revision.revisionId
  content := revision.content
  evidence := revision.evidence.filterMap fun evidence =>
    evidence.excerpt.map fun excerpt => ⟨evidence.evidenceId, excerpt⟩

def maxMemoryCommandOperations : Nat := 4

structure BatchBuilder where
  command : MemoryCommandEnvelope
  occurredAt : TimestampMillis
  baseSequence : Nat
  operations : List MemoryAppendOperation
  previousOperationId : Option MemoryOperationId

def BatchBuilder.new (command : MemoryCommandEnvelope) (occurredAt : TimestampMillis)
    (baseSequence : Nat) : BatchBuilder :=
  ⟨command, occurredAt, baseSequence, [], none⟩

section Plan

variable (codec : FactCodec)

def BatchBuilder.push (batch : BatchBuilder) (stage : MemoryStage) (payload : MemoryOperationPayload)
    (content : Option MemoryRevisionContent) : Except MemoryCommandError BatchBuilder :=
  if batch.operations.length ≥ maxMemoryCommandOperations then .error .invalidTransition
  else
    match MemorySequence.new (batch.baseSequence + batch.operations.length + 1) with
    | none => .error .invalidTransition
    | some sequence =>
      let id := operationId codec batch.command stage
      let causation := match batch.previousOperationId with
        | none => .command batch.command.commandId
        | some prior => .operation prior
      let operation := .newV1 id batch.command.memoryId sequence batch.occurredAt causation
        batch.command.correlationId payload
      .ok { batch with
        operations := batch.operations ++ [⟨operation, content⟩]
        previousOperationId := some id }

def BatchBuilder.introduce (batch : BatchBuilder) (stage : MemoryStage)
    (payload : MemoryOperationPayload) (revision : MemoryRevisionDraft) :
    Except MemoryCommandError BatchBuilder :=
  batch.push codec stage payload (some (revisionSidecar revision))

def BatchBuilder.validation (batch : BatchBuilder) (revisionId : MemoryRevisionId)
    (validation : MemoryValidationResult) : Except MemoryCommandError BatchBuilder :=
  batch.push codec .validate (.revisionValidated revisionId validation) none

def BatchBuilder.activate (batch : BatchBuilder) (revisionId : MemoryRevisionId) :
    Except MemoryCommandError BatchBuilder :=
  batch.push codec .activate (.revisionActivated revisionId) none

def BatchBuilder.supersede (batch : BatchBuilder)
    (revisionId supersededByRevisionId : MemoryRevisionId) : Except MemoryCommandError BatchBuilder :=
  batch.push codec .supersede (.revisionSuperseded revisionId supersededByRevisionId) none

def BatchBuilder.finish (batch : BatchBuilder) (validation : Option MemoryValidationResult) :
    MemoryCommandPlan :=
  ⟨⟨batch.baseSequence, batch.operations⟩, validation⟩

def planMemoryCommand (command : MemoryCommandEnvelope) (occurredAt : TimestampMillis)
    (currentOperations : List MemoryOperationEnvelope) (currentRevisions : List MemoryRevision)
    (duplicateCandidates : List ExistingMemory) : Except MemoryCommandError MemoryCommandPlan := do
  let actualSequence := (currentOperations.getLast?.map (·.sequence.get)).getD 0
  validateSnapshot command currentOperations currentRevisions actualSequence
  let batch := BatchBuilder.new command occurredAt actualSequence
  match command.payload with
  | .createMemory scope memoryKind revision =>
    let validation ← validateRevision codec scope memoryKind revision duplicateCandidates none
    if validation.status = .rejected then .error .validationRejected
    else
      let batch ← batch.introduce codec .create
        (.memoryCreated scope memoryKind (.fromDraft .proposed revision occurredAt none)) revision
      let batch ← batch.validation codec revision.revisionId validation
      if isExplicitAccepted revision validation then
        let batch ← batch.activate codec revision.revisionId
        .ok (batch.finish (some validation))
      else .ok (batch.finish (some validation))
  | .proposeRevision revision supersedesRevisionId =>
    let (scope, memoryKind) ← itemScopeKind currentOperations
    let _ ← requireRevision currentRevisions supersedesRevisionId [.active]
    requireSubject currentRevisions supersedesRevisionId revision
    requireNextRevision currentRevisions revision
    let validation ← validateRevision codec scope memoryKind revision duplicateCandidates
      (some command.memoryId)
    if validation.status = .rejected then .error .validationRejected
    else
      let batch ← batch.introduce codec .propose (.revisionProposed
        (.fromDraft .proposed revision occurredAt (some supersedesRevisionId))) revision
      let batch ← batch.validation codec revision.revisionId validation
      .ok (batch.finish (some validation))
  | .reviseMemory revision supersedesRevisionId =>
    let (scope, memoryKind) ← itemScopeKind currentOperations
    let _ ← requireRevision currentRevisions supersedesRevisionId [.active]
    requireSubject currentRevisions supersedesRevisionId revision
    requireNextRevision currentRevisions revision
    let validation ← validateRevision codec scope memoryKind revision duplicateCandidates
      (some command.memoryId)
    if !isExplicitAccepted revision validation then .error .validationRejected
    else
      let batch ← batch.introduce codec .revise (.memoryRevised
        (.fromDraft .proposed revision occurredAt (some supersedesRevisionId))) revision
      let batch ← batch.validation codec revision.revisionId validation
      let batch ← batch.activate codec revision.revisionId
      let batch ← batch.supersede codec supersedesRevisionId revision.revisionId
      .ok (batch.finish (some validation))
  | .approveProposal proposalRevisionId approvedRevision =>
    let (scope, memoryKind) ← itemScopeKind currentOperations
    let proposal ← requireRevision currentRevisions proposalRevisionId [.proposed]
    let supersededRevisionId := proposal.supersedesRevisionId.getD proposalRevisionId
    requireSuperseded currentRevisions supersededRevisionId proposalRevisionId
    requireSubject currentRevisions proposalRevisionId approvedRevision
    requireNextRevision currentRevisions approvedRevision
    let validation ← validateRevision codec scope memoryKind approvedRevision duplicateCandidates
      (some command.memoryId)
    if !isExplicitAccepted approvedRevision validation ||
        approvedRevision.revisionId = proposalRevisionId then .error .validationRejected
    else
      let batch ← batch.introduce codec .approve (.proposalApproved proposalRevisionId
        (.fromDraft .proposed approvedRevision occurredAt (some supersededRevisionId)))
        approvedRevision
      let batch ← batch.validation codec approvedRevision.revisionId validation
      let batch ← batch.activate codec approvedRevision.revisionId
      let batch ← batch.supersede codec supersededRevisionId approvedRevision.revisionId
      .ok (batch.finish (some validation))
  | .rejectRevision revisionId reason =>
    let _ ← requireRevision currentRevisions revisionId [.proposed]
    let batch ← batch.push codec .reject (.revisionRejected revisionId reason) none
    .ok (batch.finish none)
  | .retractMemory revisionId =>
    let _ ← requireRevision currentRevisions revisionId [.active]
    let batch ← batch.push codec .retract (.memoryRetracted revisionId) none
    .ok (batch.finish none)
  | .deleteMemory revisionId =>
    let _ ← requireRevision currentRevisions revisionId [.proposed, .active, .rejected, .retracted]
    let batch ← batch.push codec .delete (.memoryDeleted revisionId) none
    .ok (batch.finish none)
  | .recordValidation .. | .activateRevision .. => .error .unsupportedCommand

end Plan

end AutoHarness
