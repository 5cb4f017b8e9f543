import AutoHarness.MemoryTables

namespace AutoHarness

inductive MemoryAppendDisposition where
  | committed
  | alreadyCommitted
deriving DecidableEq, Repr

structure MemoryAppendReceipt where
  disposition : MemoryAppendDisposition
  lastSequence : Nat
  generation : Nat
  mutationGeneration : Nat
deriving DecidableEq

def MemoryOperationPayload.introducedRevision : MemoryOperationPayload → Option MemoryRevision
  | .memoryCreated _ _ revision | .revisionProposed revision | .memoryRevised revision
  | .proposalApproved _ revision => some revision
  | _ => none

def MemoryOperationPayload.createsItem : MemoryOperationPayload → Bool
  | .memoryCreated .. => true
  | _ => false

def maxMemoryOperationBytes : Nat := 1024 * 1024

/-- The excerpts of a sidecar against the hashes of the metadata, each excerpt used once. -/
def matchExcerpts (codec : FactCodec) :
    List MemoryEvidenceContent → List MemoryEvidenceMetadata → Except StoreError Unit
  | [], [] => .ok ()
  | _ :: _, [] => .error .invalidMemoryTransition
  | sidecars, evidence :: rest =>
    match evidence.excerptHash, sidecars.find? (·.evidenceId = evidence.evidenceId) with
    | none, none => matchExcerpts codec sidecars rest
    | some hash, some sidecar =>
      if codec.sha256 (utf8Bytes sidecar.excerpt.value) = hash then
        matchExcerpts codec (sidecars.erase sidecar) rest
      else .error .invalidMemoryTransition
    | _, _ => .error .invalidMemoryTransition

def validateContentSidecar (codec : FactCodec) (entry : MemoryAppendOperation) :
    Except StoreError Unit :=
  match entry.operation.payload.introducedRevision, entry.content with
  | none, none => .ok ()
  | none, some _ | some _, none => .error .invalidMemoryTransition
  | some metadata, some content =>
    if metadata.revisionId ≠ content.revisionId ∨ metadata.sensitivity = .secret ∨
        normalizedContentHash codec content.content.value ≠ metadata.contentHash then
      .error .invalidMemoryTransition
    else if ¬ (content.evidence.map (·.evidenceId)).Nodup then
      .error (.identityConflict .memoryRevision)
    else matchExcerpts codec content.evidence metadata.evidence

/-- `encode_and_validate`: the bound of the encoding stands for the encoding itself. -/
def encodeAndValidate (codec : MemoryCodec) (entry : MemoryAppendOperation) :
    Except StoreError Unit := do
  if entry.operation.schemaVersion ≠ memorySchemaV1 then
    .error (.unsupportedMemorySchema entry.operation.schemaVersion)
  validateContentSidecar codec.toFactCodec entry
  if codec.operationBytes entry.operation > maxMemoryOperationBytes then .error .limitExceeded

/-- What the batch check keeps from the operations it has passed. -/
structure BatchScan where
  expected : Nat
  operationIds : List MemoryOperationId
  commandIds : List CommandId

def BatchScan.step (codec : MemoryCodec) (first : MemoryOperationEnvelope) (scan : BatchScan)
    (entry : MemoryAppendOperation) : Except StoreError BatchScan :=
  let operation := entry.operation
  let later := scan.operationIds ≠ []
  if operation.memoryId ≠ first.memoryId ∨ operation.correlationId ≠ first.correlationId ∨
      operation.sequence.get ≠ scan.expected ∨ (later ∧ operation.payload.createsItem) ∨
      operation.operationId ∈ scan.operationIds then .error .nonContiguousBatch
  else
    match operation.causation with
    | .command id =>
      if later then .error .invalidCausation
      else if id ∈ scan.commandIds then .error (.identityConflict .command)
      else do
        encodeAndValidate codec entry
        .ok ⟨scan.expected + 1, operation.operationId :: scan.operationIds, id :: scan.commandIds⟩
    | .operation id =>
      if later ∧ id ∉ scan.operationIds then .error .invalidCausation
      else do
        encodeAndValidate codec entry
        .ok ⟨scan.expected + 1, operation.operationId :: scan.operationIds, scan.commandIds⟩

/-- `encode_and_validate_batch`, with the first operation when the batch passes. -/
def encodeAndValidateBatch (codec : MemoryCodec) (request : MemoryAppendBatchRequest) :
    Except StoreError MemoryOperationEnvelope :=
  match request.operations with
  | [] => .error .emptyAppend
  | first :: _ => do
    let _ ← FallibleRun.run (BatchScan.step codec first.operation)
      ⟨request.expectedLastSequence + 1, [], []⟩ request.operations
    .ok first.operation

namespace MemoryTables

def currentMemorySequence (t : MemoryTables) (memoryId : MemoryId) : Nat :=
  ((t.items.find? memoryId).map (·.lastSequence)).getD 0

def currentActiveRevision (t : MemoryTables) (memoryId : MemoryId) : Option MemoryRevisionId :=
  (t.items.find? memoryId).bind (·.activeRevisionId)

def incrementGeneration (t : MemoryTables) : Except StoreError MemoryTables :=
  if t.generation + 1 ≤ maxSequence then .ok { t with generation := t.generation + 1 }
  else .error .sequenceOutOfRange

def incrementMutationGeneration (t : MemoryTables) : Except StoreError MemoryTables :=
  if t.mutationGeneration + 1 ≤ maxSequence then
    .ok { t with mutationGeneration := t.mutationGeneration + 1 }
  else .error .sequenceOutOfRange

def insertMemoryItemShell (t : MemoryTables) (operation : MemoryOperationEnvelope) :
    Except StoreError MemoryTables :=
  match operation.payload with
  | .memoryCreated scope memoryKind revision =>
    if revision.revision.get ≠ 1 ∨ revision.status ∉ [.proposed, .active] then
      .error .invalidMemoryTransition
    else
      match t.items.insert? ⟨operation.memoryId, scope, memoryKind, .proposed, 0, 0, none, none,
          operation.occurredAt, operation.occurredAt⟩ with
      | some items => .ok { t with items }
      | none => .error (.identityConflict .memory)
  | _ => .error .invalidMemoryTransition

def validateMemoryCausation (t : MemoryTables) (operation : MemoryOperationEnvelope) :
    Except StoreError Unit :=
  match operation.causation with
  | .command _ => .ok ()
  | .operation id =>
    match t.operations.find? id with
    | none => .error .invalidCausation
    | some cause =>
      if cause.memoryId ≠ operation.memoryId ∨ cause.sequence.get ≥ operation.sequence.get then
        .error .invalidCausation
      else .ok ()

/-- The unique keys of the ledger beside the operation: the sequence of a memory and the causing
command. -/
def sharesKey (operation other : MemoryOperationEnvelope) : Bool :=
  (other.memoryId = operation.memoryId && other.sequence = operation.sequence) ||
    match operation.causation with
    | .command _ => other.causation = operation.causation
    | .operation _ => false

def insertOperation (t : MemoryTables) (operation : MemoryOperationEnvelope) :
    Except StoreError MemoryTables :=
  if t.operations.rows.any (sharesKey operation) then .error (.identityConflict .memoryOperation)
  else
    match t.operations.insert? operation with
    | some operations => .ok { t with operations }
    | none => .error (.identityConflict .memoryOperation)

def advanced (operation : MemoryOperationEnvelope) : KeyedTable.RowMap MemoryItemRow.memoryId where
  apply row := { row with
    lastSequence := operation.sequence.get
    updatedAt := operation.occurredAt }
  keeps _ := rfl

def advanceItem (t : MemoryTables) (operation : MemoryOperationEnvelope) : MemoryTables :=
  { t with items := t.items.update (·.memoryId = operation.memoryId) (advanced operation) }

def appendOperation (codec : MemoryCodec) (t : MemoryTables) (entry : MemoryAppendOperation) :
    Except StoreError MemoryTables := do
  t.validateMemoryCausation entry.operation
  let t ← t.insertOperation entry.operation
  let t ← t.applyOperation codec entry false
  .ok (t.advanceItem entry.operation)

/-- A repeated batch must bring the contents that are stored, unless they were erased. -/
def validateExistingMemorySidecar (t : MemoryTables) (entry : MemoryAppendOperation) :
    Except StoreError Unit :=
  match entry.operation.payload.introducedRevision, entry.content with
  | none, none => .ok ()
  | none, some _ => .error (.identityConflict .memoryRevision)
  | some _, none => .error .invalidMemoryTransition
  | some revision, some content =>
    match t.revisions.find? revision.revisionId with
    | none => .error corruptMemoryProjection
    | some row =>
      match row.contentId.bind t.blobs.find?, (t.items.find? row.memoryId).map MemoryItemRow.lifecycle with
      | none, some .deleted =>
        if row.contentId = none then .ok () else .error corruptMemoryProjection
      | some blob, some _ =>
        let excerpts := (t.evidence.select (·.revisionId = revision.revisionId)).filterMap fun e =>
          (e.excerptContentId.bind t.blobs.find?).map fun blob => (e.evidenceId, blob.content)
        let brought := content.evidence.map fun e => (e.evidenceId, e.excerpt.value)
        if blob.content = content.content.value ∧ (excerpts.all fun e => brought.contains e) ∧
            excerpts.length = brought.length then .ok ()
        else .error (.identityConflict .memoryRevision)
      | _, _ => .error corruptMemoryProjection

/-- How many operations of a batch are stored already, each as the batch has it. -/
def countExisting (t : MemoryTables) : List MemoryAppendOperation → Except StoreError Nat
  | [] => .ok 0
  | entry :: rest =>
    match t.operations.find? entry.operation.operationId with
    | none => t.countExisting rest
    | some stored =>
      if stored = entry.operation then (· + 1) <$> t.countExisting rest
      else .error (.identityConflict .memoryOperation)

def openBatch (t : MemoryTables) (first : MemoryOperationEnvelope) :
    Except StoreError MemoryTables :=
  if first.payload.createsItem then t.insertMemoryItemShell first else .ok t

/-- The generation counts the batches that change which revision is active. -/
def closeBatch (t : MemoryTables) (eligibilityChanged : Bool) : Except StoreError MemoryTables :=
  if eligibilityChanged then do
    let t ← t.incrementGeneration
    t.incrementMutationGeneration
  else t.incrementMutationGeneration

/-- The writes of a batch that is new to the store. -/
def commitBatch (t : MemoryTables) (codec : MemoryCodec) (first : MemoryOperationEnvelope)
    (operations : List MemoryAppendOperation) : Except StoreError MemoryTables := do
  let opened ← t.openBatch first
  let applied ← FallibleRun.run (appendOperation codec) opened operations
  applied.closeBatch
    (t.currentActiveRevision first.memoryId ≠ applied.currentActiveRevision first.memoryId)

/-- The version checks of a batch whose operations are all new. -/
def checkVersion (t : MemoryTables) (first : MemoryOperationEnvelope)
    (request : MemoryAppendBatchRequest) : Except StoreError Unit :=
  let actual := t.currentMemorySequence first.memoryId
  if actual ≠ request.expectedLastSequence then
    .error (.memoryVersionConflict first.memoryId request.expectedLastSequence actual)
  else if (decide (actual = 0)) ≠ first.payload.createsItem then .error .invalidMemoryTransition
  else .ok ()

def appendMemoryBatch (t : MemoryTables) (codec : MemoryCodec)
    (request : MemoryAppendBatchRequest) : Except StoreError (MemoryAppendReceipt × MemoryTables) := do
  let first ← encodeAndValidateBatch codec request
  let existing ← t.countExisting request.operations
  if existing = request.operations.length then
    request.operations.forM t.validateExistingMemorySidecar
    .ok (⟨.alreadyCommitted, t.currentMemorySequence first.memoryId, t.generation,
      t.mutationGeneration⟩, t)
  else if existing ≠ 0 then .error (.identityConflict .memoryOperation)
  else
    t.checkVersion first request
    let t ← t.commitBatch codec first request.operations
    .ok (⟨.committed, request.expectedLastSequence + request.operations.length, t.generation,
      t.mutationGeneration⟩, t)

/-- `load_memory_operations` without its paging: the operations of one memory by sequence. -/
def loadMemoryOperations (t : MemoryTables) (memoryId : MemoryId) : List MemoryOperationEnvelope :=
  (t.operations.select (·.memoryId = memoryId)).insertionSort
    fun a b => a.sequence.get ≤ b.sequence.get

/-- `load_memory_revisions`: the metadata of one memory's revisions under their stored states. -/
def loadMemoryRevisions (t : MemoryTables) (memoryId : MemoryId) : List MemoryRevision :=
  ((t.revisions.select (·.memoryId = memoryId)).insertionSort
    fun a b => a.metadata.revision.get ≤ b.metadata.revision.get).map fun row =>
      row.metadata.withStatus row.state

def evidenceBelongsToSession (source : MemoryEvidenceSource) (sessionId : SessionId) : Bool :=
  match source with
  | .userInput session _ | .toolObservation session _ _ | .sessionEvent session _ =>
    session = sessionId
  | .importedDocument .. | .memoryRevision .. => false

/-- Erasure of one memory of an erased session: all its revisions end deleted. -/
def eraseSessionMemory (sessionId : SessionId) (lastSequence : SessionSequence)
    (erasedAt : TimestampMillis) (t : MemoryTables) (item : MemoryItemRow) :
    Except StoreError MemoryTables :=
  match item.latestRevisionId with
  | none => .error corruptMemoryProjection
  | some latest => do
    let t ← t.deleteMemoryContent item.memoryId latest
    let revisions := t.revisions.update (·.memoryId = item.memoryId) (withState .deleted)
    match t.tombstones.insert? ⟨item.memoryId, sessionId, lastSequence, erasedAt⟩ with
    | some tombstones => .ok { t with revisions, tombstones }
    | none => .error (.identityConflict .constraint)

/-- Whether an evidence row belongs to a memory outside the scope of a session. -/
def isCrossScope (t : MemoryTables) (sessionId : SessionId) (row : MemoryEvidenceRow) : Bool :=
  match (t.revisions.find? row.revisionId).bind fun revision => t.items.find? revision.memoryId with
  | some item => item.scope ≠ .session sessionId
  | none => false

def eraseExcerpt (sessionId : SessionId) (erasedAt : TimestampMillis) (t : MemoryTables)
    (row : MemoryEvidenceRow) : MemoryTables :=
  { t with
    evidence := t.evidence.update (·.evidenceId = row.evidenceId)
      ⟨({ · with
        excerptContentId := none
        excerptHash := none
        erasedBy := some (sessionId, erasedAt) }), fun _ => rfl⟩
    blobs := t.blobs.delete fun blob => some blob.contentId = row.excerptContentId }

/-- Both counters in one statement; a value past the signed range is no integer any more. -/
def advanceGenerations (t : MemoryTables) (eligibilityChanged : Bool) :
    Except StoreError MemoryTables :=
  let generation := t.generation + eligibilityChanged.toNat
  if generation ≤ maxSequence ∧ t.mutationGeneration + 1 ≤ maxSequence then
    .ok { t with generation, mutationGeneration := t.mutationGeneration + 1 }
  else .error (.identityConflict .constraint)

def eraseSessionMemoryAndEvidence (t : MemoryTables) (sessionId : SessionId)
    (lastSequence : SessionSequence) (erasedAt : TimestampMillis) :
    Except StoreError MemoryTables := do
  let memories := t.items.select (·.scope = .session sessionId)
  let eligibilityChanged := memories.any (·.lifecycle = .active)
  let t ← FallibleRun.run (eraseSessionMemory sessionId lastSequence erasedAt) t memories
  let excerpts := t.evidence.select fun row => row.excerptContentId ≠ none &&
    t.isCrossScope sessionId row && evidenceBelongsToSession row.source sessionId
  let t := excerpts.foldl (eraseExcerpt sessionId erasedAt) t
  if memories = [] ∧ excerpts = [] then .ok t else t.advanceGenerations eligibilityChanged

end MemoryTables

/-- One request to the storage owner that concerns memory. -/
inductive MemoryAction where
  | command (command : MemoryCommandEnvelope) (occurredAt : TimestampMillis)
      (duplicateCandidates : List ExistingMemory)
  | eraseSession (sessionId : SessionId) (lastSequence : SessionSequence)
      (erasedAt : TimestampMillis)

/-- The plan of a command on the operations and revisions stored for its memory. -/
def MemoryTables.plan (t : MemoryTables) (codec : MemoryCodec) (command : MemoryCommandEnvelope)
    (occurredAt : TimestampMillis) (duplicateCandidates : List ExistingMemory) :
    Except MemoryCommandError MemoryCommandPlan :=
  planMemoryCommand codec.toFactCodec command occurredAt (t.loadMemoryOperations command.memoryId)
    (t.loadMemoryRevisions command.memoryId) duplicateCandidates

/-- A rejected plan writes nothing, and a failed transaction is rolled back. -/
def MemoryTables.step (t : MemoryTables) (codec : MemoryCodec) (action : MemoryAction) :
    MemoryTables :=
  match action with
  | .command command occurredAt duplicateCandidates =>
    match t.plan codec command occurredAt duplicateCandidates with
    | .error _ => t
    | .ok plan =>
      match t.appendMemoryBatch codec plan.batch with
      | .error _ => t
      | .ok (_, next) => next
  | .eraseSession sessionId lastSequence erasedAt =>
    match t.eraseSessionMemoryAndEvidence sessionId lastSequence erasedAt with
    | .error _ => t
    | .ok next => next

end AutoHarness
