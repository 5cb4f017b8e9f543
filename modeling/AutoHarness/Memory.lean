import AutoHarness.Tool
import AutoHarness.Identifier
import AutoHarness.ToolPlan
import Mathlib.Data.List.Sort

namespace AutoHarness

instance : DecidableEq MemoryContent := fun a b =>
  decidable_of_iff (a.value = b.value) ⟨fun same => by cases a; cases b; cases same; rfl,
    congrArg _⟩

def maxMemoryEvidence : Nat := 64

def maxMemoryRelations : Nat := 64

def maxMemoryValidationIssues : Nat := 32

def maxMemoryValidationCandidates : Nat := 256

def maxMemoryEvidenceExcerptBytes : Nat := 4096

structure MemoryEvidenceExcerpt where
  value : String
  nonblank : isBlank value = false
  bounded : value.utf8ByteSize ≤ maxMemoryEvidenceExcerptBytes
deriving Repr

instance : DecidableEq MemoryEvidenceExcerpt := fun a b =>
  decidable_of_iff (a.value = b.value) ⟨fun same => by cases a; cases b; cases same; rfl,
    congrArg _⟩

structure ConfidenceBasisPoints where
  get : UInt16
  bounded : get ≤ 10000
deriving DecidableEq, Repr

/-- A one-based sequence within one memory ledger. -/
structure MemorySequence where
  get : Nat
  positive : 1 ≤ get
  bounded : get ≤ maxSequence
deriving Repr

instance : DecidableEq MemorySequence := fun a b =>
  decidable_of_iff (a.get = b.get) ⟨fun same => by cases a; cases b; cases same; rfl, congrArg _⟩

def MemorySequence.new (value : Nat) : Option MemorySequence :=
  if hz : value = 0 then none
  else if hm : value ≤ maxSequence then some ⟨value, Nat.pos_of_ne_zero hz, hm⟩
  else none

theorem MemorySequence.new_eq_some_iff {value : Nat} {sequence : MemorySequence} :
    MemorySequence.new value = some sequence ↔ sequence.get = value := by
  obtain ⟨get, positive, bounded⟩ := sequence
  unfold MemorySequence.new
  split
  next hz =>
    simp only [reduceCtorEq, false_iff]
    omega
  next hz =>
    split
    next hm =>
      rw [Option.some.injEq, MemorySequence.mk.injEq]
      exact eq_comm
    next hm =>
      simp only [reduceCtorEq, false_iff]
      omega

/-- A one-based revision number of one memory item. -/
structure MemoryRevisionNumber where
  get : Nat
  positive : 1 ≤ get
  bounded : get ≤ maxSequence
deriving Repr

instance : DecidableEq MemoryRevisionNumber := fun a b =>
  decidable_of_iff (a.get = b.get) ⟨fun same => by cases a; cases b; cases same; rfl, congrArg _⟩

inductive MemoryScope where
  | user (id : UserId)
  | workspace (id : WorkspaceId)
  | session (id : SessionId)
  | agent (id : AgentId)
deriving DecidableEq, Repr

inductive MemoryOrigin where
  | explicitUser
  | verifiedTool
  | importedDocument
  | modelProposal
  | compaction
deriving DecidableEq, Repr

inductive TrustClass where
  | userApproved
  | verifiedObservation
  | imported
  | untrustedProposal
deriving DecidableEq, Repr

/-- The status of a revision, and with the same names the lifecycle of an item. -/
inductive MemoryRevisionStatus where
  | proposed
  | active
  | superseded
  | rejected
  | retracted
  | deleted
deriving DecidableEq, Repr

inductive MemoryValidity where
  | indefinite
  | from_ (validFrom : TimestampMillis)
  | until_ (validUntil : TimestampMillis)
  | window (validFrom validUntil : TimestampMillis)
      (ordered : validFrom.value.toInt < validUntil.value.toInt)
deriving DecidableEq, Repr

inductive MemoryEvidenceSource where
  | userInput (sessionId : SessionId) (inputId : InputId)
  | toolObservation (sessionId : SessionId) (toolCallId : ToolCallId) (outputHash : Sha256Digest)
  | importedDocument (sourceKey : ContextSourceKey) (sourceRevision : Sha256Digest)
  | sessionEvent (sessionId : SessionId) (eventId : EventId)
  | memoryRevision (memoryId : MemoryId) (revisionId : MemoryRevisionId)
deriving DecidableEq, Repr

inductive MemoryEvidenceRelation where
  | supports
  | contradicts
  | derivedFrom
deriving DecidableEq, Repr

/-- Evidence has an excerpt exactly when it has the hash of one. -/
structure MemoryEvidence where
  evidenceId : MemoryEvidenceId
  source : MemoryEvidenceSource
  relation : MemoryEvidenceRelation
  excerpt : Option MemoryEvidenceExcerpt
  excerptHash : Option Sha256Digest
  paired : excerpt.isSome = excerptHash.isSome
deriving DecidableEq, Repr

structure MemoryEvidenceMetadata where
  evidenceId : MemoryEvidenceId
  source : MemoryEvidenceSource
  relation : MemoryEvidenceRelation
  excerptHash : Option Sha256Digest
deriving DecidableEq, Repr

def MemoryEvidenceMetadata.fromEvidence (evidence : MemoryEvidence) : MemoryEvidenceMetadata :=
  ⟨evidence.evidenceId, evidence.source, evidence.relation, evidence.excerptHash⟩

inductive MemoryRelationKind where
  | duplicateOf
  | contradicts
  | refines
  | supersedes
  | related
deriving DecidableEq, Repr

structure MemoryRelation where
  memoryId : MemoryId
  kind : MemoryRelationKind
deriving DecidableEq, Repr

inductive MemoryValidationStatus where
  | accepted
  | needsReview
  | rejected
deriving DecidableEq, Repr

inductive MemoryValidationIssue where
  | secretDetected
  | unsupportedScope
  | malformedContent
  | policyConflict
  | duplicate
  | contradiction
  | injectionPattern
  | ungroundedEvidence
deriving DecidableEq, Repr

structure MemoryValidationResult where
  validatorVersion : UInt16
  contentHash : Sha256Digest
  status : MemoryValidationStatus
  issues : List MemoryValidationIssue
  duplicateCandidates : List MemoryId
  contradictionCandidates : List MemoryId
deriving DecidableEq, Repr

/-- `sort` followed by `dedup`: the distinct identifiers in order. -/
def sortDedup (ids : List MemoryId) : List MemoryId :=
  (ids.insertionSort (· ≤ ·)).destutter (· ≠ ·)

def MemoryValidationResult.newWithCandidates (validatorVersion : UInt16)
    (contentHash : Sha256Digest) (status : MemoryValidationStatus)
    (issues : List MemoryValidationIssue) (duplicateCandidates contradictionCandidates : List MemoryId) :
    Option MemoryValidationResult :=
  if validatorVersion = 0 then none
  else if issues.length > maxMemoryValidationIssues then none
  else if (!duplicateCandidates.isEmpty && !issues.contains .duplicate) ||
      (!contradictionCandidates.isEmpty && !issues.contains .contradiction) then none
  else
    let duplicates := sortDedup duplicateCandidates
    let contradictions := sortDedup contradictionCandidates
    if duplicates.length + contradictions.length > maxMemoryValidationCandidates then none
    else some ⟨validatorVersion, contentHash, status, issues, duplicates, contradictions⟩

/-- Immutable content and provenance of one revision before it has a status. -/
structure MemoryRevisionDraft where
  revisionId : MemoryRevisionId
  revision : MemoryRevisionNumber
  subjectKey : Option MemorySubjectKey
  content : MemoryContent
  contentHash : Sha256Digest
  origin : MemoryOrigin
  trustClass : TrustClass
  confidence : ConfidenceBasisPoints
  sensitivity : Sensitivity
  validity : MemoryValidity
  evidence : List MemoryEvidence
  relations : List MemoryRelation
  evidenceBound : evidence.length ≤ maxMemoryEvidence
  relationBound : relations.length ≤ maxMemoryRelations
deriving DecidableEq, Repr

/-- `MemoryRevisionMetadata`: a revision without its erasable content. -/
structure MemoryRevision where
  status : MemoryRevisionStatus
  revisionId : MemoryRevisionId
  revision : MemoryRevisionNumber
  subjectKey : Option MemorySubjectKey
  contentHash : Sha256Digest
  origin : MemoryOrigin
  trustClass : TrustClass
  confidence : ConfidenceBasisPoints
  sensitivity : Sensitivity
  validity : MemoryValidity
  evidence : List MemoryEvidenceMetadata
  relations : List MemoryRelation
  createdAt : TimestampMillis
  supersedesRevisionId : Option MemoryRevisionId
deriving DecidableEq, Repr

def MemoryRevision.fromDraft (status : MemoryRevisionStatus) (draft : MemoryRevisionDraft)
    (createdAt : TimestampMillis) (supersedesRevisionId : Option MemoryRevisionId) :
    MemoryRevision where
  status := status
  revisionId := draft.revisionId
  revision := draft.revision
  subjectKey := draft.subjectKey
  contentHash := draft.contentHash
  origin := draft.origin
  trustClass := draft.trustClass
  confidence := draft.confidence
  sensitivity := draft.sensitivity
  validity := draft.validity
  evidence := draft.evidence.map .fromEvidence
  relations := draft.relations
  createdAt := createdAt
  supersedesRevisionId := supersedesRevisionId

def MemoryRevision.withStatus (revision : MemoryRevision) (status : MemoryRevisionStatus) :
    MemoryRevision :=
  { revision with status }

inductive MemoryRejectionReason where
  | validationFailed
  | authorityDeclined
  | duplicate
  | conflict
deriving DecidableEq, Repr

inductive MemoryCommandPayload where
  | createMemory (scope : MemoryScope) (memoryKind : MemoryKind) (revision : MemoryRevisionDraft)
  | proposeRevision (revision : MemoryRevisionDraft) (supersedesRevisionId : MemoryRevisionId)
  | reviseMemory (revision : MemoryRevisionDraft) (supersedesRevisionId : MemoryRevisionId)
  | recordValidation (revisionId : MemoryRevisionId) (validation : MemoryValidationResult)
  | approveProposal (proposalRevisionId : MemoryRevisionId) (approvedRevision : MemoryRevisionDraft)
  | activateRevision (revisionId : MemoryRevisionId)
  | rejectRevision (revisionId : MemoryRevisionId) (reason : MemoryRejectionReason)
  | retractMemory (revisionId : MemoryRevisionId)
  | deleteMemory (revisionId : MemoryRevisionId)
deriving DecidableEq

def MemoryCommandPayload.createsItem : MemoryCommandPayload → Bool
  | .createMemory .. => true
  | _ => false

/-- One memory command; exactly a creation expects no sequence. -/
structure MemoryCommandEnvelope where
  commandId : CommandId
  memoryId : MemoryId
  expectedSequence : Option MemorySequence
  correlationId : CorrelationId
  payload : MemoryCommandPayload
  expectation : payload.createsItem = expectedSequence.isNone
deriving DecidableEq

inductive MemoryCausation where
  | command (id : CommandId)
  | operation (id : MemoryOperationId)
deriving DecidableEq, Repr

inductive MemoryOperationPayload where
  | memoryCreated (scope : MemoryScope) (memoryKind : MemoryKind) (revision : MemoryRevision)
  | revisionProposed (revision : MemoryRevision)
  | memoryRevised (revision : MemoryRevision)
  | revisionValidated (revisionId : MemoryRevisionId) (validation : MemoryValidationResult)
  | proposalApproved (proposalRevisionId : MemoryRevisionId) (approvedRevision : MemoryRevision)
  | revisionActivated (revisionId : MemoryRevisionId)
  | revisionSuperseded (revisionId supersededByRevisionId : MemoryRevisionId)
  | revisionRejected (revisionId : MemoryRevisionId) (reason : MemoryRejectionReason)
  | memoryRetracted (revisionId : MemoryRevisionId)
  | memoryDeleted (revisionId : MemoryRevisionId)
deriving DecidableEq

def memorySchemaV1 : UInt16 := 1

structure MemoryOperationEnvelope where
  schemaVersion : UInt16
  operationId : MemoryOperationId
  memoryId : MemoryId
  sequence : MemorySequence
  occurredAt : TimestampMillis
  causation : MemoryCausation
  correlationId : CorrelationId
  payload : MemoryOperationPayload
deriving DecidableEq

def MemoryOperationEnvelope.newV1 (operationId : MemoryOperationId) (memoryId : MemoryId)
    (sequence : MemorySequence) (occurredAt : TimestampMillis) (causation : MemoryCausation)
    (correlationId : CorrelationId) (payload : MemoryOperationPayload) : MemoryOperationEnvelope :=
  ⟨memorySchemaV1, operationId, memoryId, sequence, occurredAt, causation, correlationId, payload⟩

end AutoHarness
