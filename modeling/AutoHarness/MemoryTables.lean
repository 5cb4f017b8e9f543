import AutoHarness.KeyedTable
import AutoHarness.MemoryPlan
import AutoHarness.StorePort

namespace AutoHarness

def corruptMemoryProjection : StoreError := .corruptData .memoryProjection

/-- The key of one retained text: `memory-content:` or `memory-evidence:` and an identity. -/
inductive ContentId where
  | content (revisionId : MemoryRevisionId)
  | evidence (evidenceId : MemoryEvidenceId)
deriving DecidableEq

def ContentId.text : ContentId → String
  | .content revisionId => "memory-content:" ++ revisionId.value
  | .evidence evidenceId => "memory-evidence:" ++ evidenceId.value

structure MemoryItemRow where
  memoryId : MemoryId
  scope : MemoryScope
  kind : MemoryKind
  lifecycle : MemoryRevisionStatus
  lastSequence : Nat
  latestRevision : Nat
  latestRevisionId : Option MemoryRevisionId
  activeRevisionId : Option MemoryRevisionId
  createdAt : TimestampMillis
  updatedAt : TimestampMillis
deriving DecidableEq

/-- The table's `CHECK`: an item is active exactly when it has an active revision. -/
def MemoryItemRow.check (row : MemoryItemRow) : Bool :=
  (row.lifecycle = .active) = (row.activeRevisionId.isSome = true)

/-- One revision. The columns that repeat its metadata are read from there. -/
structure MemoryRevisionRow where
  revisionId : MemoryRevisionId
  memoryId : MemoryId
  introducedOperationId : MemoryOperationId
  state : MemoryRevisionStatus
  contentId : Option ContentId
  metadata : MemoryRevision
deriving DecidableEq

structure MemoryContentBlob where
  contentId : ContentId
  content : String
deriving DecidableEq

structure MemoryEvidenceRow where
  revisionId : MemoryRevisionId
  ordinal : Nat
  evidenceId : MemoryEvidenceId
  source : MemoryEvidenceSource
  relation : MemoryEvidenceRelation
  excerptContentId : Option ContentId
  excerptHash : Option Sha256Digest
  erasedBy : Option (SessionId × TimestampMillis)
deriving DecidableEq

structure MemoryValidationRow where
  operationId : MemoryOperationId
  revisionId : MemoryRevisionId
  validation : MemoryValidationResult
  createdAt : TimestampMillis
deriving DecidableEq

structure MemoryFtsRow where
  revisionId : MemoryRevisionId
  memoryId : MemoryId
  content : String
deriving DecidableEq

structure MemoryErasureTombstone where
  memoryId : MemoryId
  sessionId : SessionId
  sessionLastSequence : SessionSequence
  erasedAt : TimestampMillis
deriving DecidableEq

section Columns

open KeyedTable

def withState (state : MemoryRevisionStatus) : RowMap MemoryRevisionRow.revisionId :=
  ⟨({ · with state }), fun _ => rfl⟩

def withoutContent : RowMap MemoryRevisionRow.revisionId :=
  ⟨({ · with contentId := none }), fun _ => rfl⟩

def withoutExcerpt : RowMap MemoryEvidenceRow.evidenceId :=
  ⟨({ · with excerptContentId := none, excerptHash := none }), fun _ => rfl⟩

def activated (revisionId : MemoryRevisionId) : RowMap MemoryItemRow.memoryId :=
  ⟨({ · with lifecycle := .active, activeRevisionId := some revisionId }), fun _ => rfl⟩

def retired (lifecycle : MemoryRevisionStatus) : RowMap MemoryItemRow.memoryId :=
  ⟨({ · with lifecycle, activeRevisionId := none }), fun _ => rfl⟩

/-- The lifecycle of an item follows a revision only while no revision is active. -/
def followed (state : MemoryRevisionStatus) : RowMap MemoryItemRow.memoryId where
  apply row := { row with lifecycle := if row.activeRevisionId = none then state else .active }
  keeps _ := rfl

def withLatest (revision : MemoryRevision) : RowMap MemoryItemRow.memoryId where
  apply row := { row with
    latestRevision := revision.revision.get
    latestRevisionId := some revision.revisionId }
  keeps _ := rfl

end Columns

/-- The memory tables of the store. -/
structure MemoryTables where
  items : KeyedTable MemoryItemRow.memoryId
  revisions : KeyedTable MemoryRevisionRow.revisionId
  blobs : KeyedTable MemoryContentBlob.contentId
  evidence : KeyedTable MemoryEvidenceRow.evidenceId
  operations : KeyedTable MemoryOperationEnvelope.operationId
  validations : KeyedTable MemoryValidationRow.operationId
  fts : KeyedTable MemoryFtsRow.revisionId
  tombstones : KeyedTable MemoryErasureTombstone.memoryId
  generation : Nat
  mutationGeneration : Nat

def MemoryTables.empty : MemoryTables :=
  ⟨.empty, .empty, .empty, .empty, .empty, .empty, .empty, .empty, 0, 0⟩

/-- The encodings of external crates that the store uses: the length of the two JSON columns
that have a bound, beside the digest. -/
structure MemoryCodec extends FactCodec where
  operationBytes : MemoryOperationEnvelope → Nat
  validationBytes : MemoryValidationResult → Nat

namespace MemoryTables

def insertBlob (t : MemoryTables) (blob : MemoryContentBlob) (kind : IdentityKind) :
    Except StoreError MemoryTables :=
  if blob.contentId.text.utf8ByteSize > 512 then .error (.identityConflict kind)
  else
    match t.blobs.insert? blob with
    | some blobs => .ok { t with blobs }
    | none => .error (.identityConflict kind)

/-- `UPDATE memory_items … WHERE memory_id = ?`, under the table's `CHECK`. -/
def updateItem (t : MemoryTables) (memoryId : MemoryId)
    (f : KeyedTable.RowMap MemoryItemRow.memoryId) : Except StoreError MemoryTables :=
  if ∀ row ∈ t.items.select (·.memoryId = memoryId), (f.apply row).check then
    .ok { t with items := t.items.update (·.memoryId = memoryId) f }
  else .error (.identityConflict .constraint)

def requireRevisionState (t : MemoryTables) (memoryId : MemoryId) (revisionId : MemoryRevisionId)
    (allowed : List MemoryRevisionStatus) : Except StoreError Unit :=
  match t.revisions.find? revisionId with
  | some row =>
    if row.memoryId = memoryId ∧ row.state ∈ allowed then .ok ()
    else .error .invalidMemoryTransition
  | none => .error .invalidMemoryTransition

def setState (t : MemoryTables) (revisionId : MemoryRevisionId) (state : MemoryRevisionStatus) :
    MemoryTables :=
  { t with revisions :=
      t.revisions.update (·.revisionId = revisionId) (withState state) }

/-- One row must change, and a deleted revision has no content. -/
def setRevisionState (t : MemoryTables) (revisionId : MemoryRevisionId)
    (state : MemoryRevisionStatus) : Except StoreError MemoryTables :=
  match t.revisions.find? revisionId with
  | some row =>
    if state = .deleted ∧ row.contentId ≠ none then .error (.identityConflict .constraint)
    else .ok (t.setState revisionId state)
  | none => .error corruptMemoryProjection

def removeRevisionFromFts (t : MemoryTables) (revisionId : MemoryRevisionId) : MemoryTables :=
  { t with fts := t.fts.delete (·.revisionId = revisionId) }

def addRevisionToFts (t : MemoryTables) (revisionId : MemoryRevisionId) :
    Except StoreError MemoryTables :=
  match t.revisions.find? revisionId with
  | none => .error .invalidMemoryTransition
  | some row =>
    match row.contentId.bind t.blobs.find? with
    | none => .error .invalidMemoryTransition
    | some blob =>
      match t.fts.insert? ⟨revisionId, row.memoryId, blob.content⟩ with
      | some fts => .ok { t with fts }
      | none => .error (.identityConflict .constraint)

def maintainFtsFor (t : MemoryTables) (revisionId : MemoryRevisionId) (maintainFts : Bool) :
    Except StoreError MemoryTables :=
  if maintainFts then t.addRevisionToFts revisionId else .ok t

def deactivateCurrentRevision (t : MemoryTables) (memoryId : MemoryId)
    (exempt : Option MemoryRevisionId) : Except StoreError MemoryTables :=
  match t.items.find? memoryId with
  | none => .error .backend
  | some item =>
    match item.activeRevisionId with
    | none => .ok t
    | some current =>
      if exempt = some current then .ok t
      else .ok ((t.setState current .superseded).removeRevisionFromFts current)

def activateRevision (t : MemoryTables) (memoryId : MemoryId) (revisionId : MemoryRevisionId)
    (maintainFts : Bool) : Except StoreError MemoryTables := do
  let t ← t.deactivateCurrentRevision memoryId (some revisionId)
  let t ← t.setRevisionState revisionId .active
  let t ← t.maintainFtsFor revisionId maintainFts
  t.updateItem memoryId (activated revisionId)

def applyRevisionProjection (t : MemoryTables) (memoryId : MemoryId) (revision : MemoryRevision)
    (maintainFts : Bool) : Except StoreError MemoryTables :=
  if revision.status = .active then do
    let t ← t.deactivateCurrentRevision memoryId (some revision.revisionId)
    let t ← t.maintainFtsFor revision.revisionId maintainFts
    t.updateItem memoryId ((withLatest revision).comp (activated revision.revisionId))
  else t.updateItem memoryId ((withLatest revision).comp (followed revision.status))

def updateItemFromRevision (t : MemoryTables) (memoryId : MemoryId)
    (revisionId : MemoryRevisionId) : Except StoreError MemoryTables :=
  match t.revisions.find? revisionId with
  | none => .error .backend
  | some revision => t.updateItem memoryId (followed revision.state)

/-- The `UNIQUE` columns and the self reference of the revision table. -/
def insertRevisionRow (t : MemoryTables) (row : MemoryRevisionRow) :
    Except StoreError MemoryTables :=
  if t.revisions.rows.any fun other =>
      other.introducedOperationId = row.introducedOperationId ||
        (other.memoryId = row.memoryId && other.metadata.revision = row.metadata.revision) then
    .error (.identityConflict .memoryRevision)
  else if row.metadata.supersedesRevisionId.any fun id =>
      id ≠ row.revisionId && (t.revisions.find? id).isNone then
    .error (.identityConflict .memoryRevision)
  else
    match t.revisions.insert? row with
    | some revisions => .ok { t with revisions }
    | none => .error (.identityConflict .memoryRevision)

/-- The excerpt that a sidecar brings for one evidence record, and its key. -/
def insertExcerpt (t : MemoryTables) (sidecars : List MemoryEvidenceContent)
    (evidence : MemoryEvidenceMetadata) : Except StoreError (MemoryTables × Option ContentId) :=
  match sidecars.find? (·.evidenceId = evidence.evidenceId) with
  | none => .ok (t, none)
  | some sidecar =>
    if evidence.excerptHash = none then .error .invalidMemoryTransition
    else do
      let t ← t.insertBlob ⟨.evidence evidence.evidenceId, sidecar.excerpt.value⟩ .constraint
      .ok (t, some (.evidence evidence.evidenceId))

def insertEvidence (revisionId : MemoryRevisionId) (sidecars : List MemoryEvidenceContent)
    (t : MemoryTables) (entry : MemoryEvidenceMetadata × Nat) : Except StoreError MemoryTables := do
  let stored ← t.insertExcerpt sidecars entry.1
  match stored.1.evidence.insert?
      ⟨revisionId, entry.2, entry.1.evidenceId, entry.1.source, entry.1.relation, stored.2,
        entry.1.excerptHash, none⟩ with
  | some evidence => .ok { stored.1 with evidence }
  | none => .error (.identityConflict .constraint)

def insertRevision (t : MemoryTables) (operation : MemoryOperationEnvelope)
    (revision : MemoryRevision) (content : Option MemoryRevisionContent) :
    Except StoreError MemoryTables :=
  match content, t.items.find? operation.memoryId with
  | none, _ => .error .invalidMemoryTransition
  | some _, none => .error .backend
  | some content, some item =>
    if revision.revision.get ≠ item.latestRevision + 1 then .error .invalidMemoryTransition
    else do
      let contentId := ContentId.content revision.revisionId
      let t ← t.insertBlob ⟨contentId, content.content.value⟩ .memoryRevision
      let t ← t.insertRevisionRow
        ⟨revision.revisionId, operation.memoryId, operation.operationId, revision.status,
          some contentId, revision⟩
      let t ← revision.evidence.zipIdx.foldlM (insertEvidence revision.revisionId content.evidence) t
      t.applyRevisionProjection operation.memoryId revision true

/-- The revisions of one memory. -/
def revisionIds (t : MemoryTables) (memoryId : MemoryId) : List MemoryRevisionId :=
  (t.revisions.select (·.memoryId = memoryId)).map (·.revisionId)

/-- The retained texts of one memory: of its revisions and of their evidence. -/
def contentIds (t : MemoryTables) (memoryId : MemoryId) : List ContentId :=
  (t.revisions.select (·.memoryId = memoryId)).filterMap (·.contentId) ++
    (t.evidence.select (·.revisionId ∈ t.revisionIds memoryId)).filterMap (·.excerptContentId)

/-- The erasure statements of `delete_memory_content`, before a state changes. -/
def eraseContent (t : MemoryTables) (memoryId : MemoryId) : MemoryTables :=
  { t with
    fts := t.fts.delete (·.memoryId = memoryId)
    evidence := t.evidence.update (·.revisionId ∈ t.revisionIds memoryId) withoutExcerpt
    revisions := t.revisions.update (·.memoryId = memoryId) withoutContent
    blobs := t.blobs.delete (·.contentId ∈ t.contentIds memoryId) }

def deleteMemoryContent (t : MemoryTables) (memoryId : MemoryId) (revisionId : MemoryRevisionId) :
    Except StoreError MemoryTables := do
  let t ← (t.eraseContent memoryId).setRevisionState revisionId .deleted
  t.updateItem memoryId (retired .deleted)

/-- A validation is about the content of the revision it names. -/
def requireValidatedContent (t : MemoryTables) (revisionId : MemoryRevisionId)
    (validation : MemoryValidationResult) : Except StoreError Unit :=
  match t.revisions.find? revisionId with
  | none => .error .backend
  | some row =>
    if row.metadata.contentHash = validation.contentHash then .ok ()
    else .error .invalidMemoryTransition

def insertValidation (t : MemoryTables) (codec : MemoryCodec) (row : MemoryValidationRow) :
    Except StoreError MemoryTables :=
  if codec.validationBytes row.validation > 65536 then .error (.identityConflict .constraint)
  else
    match t.validations.insert? row with
    | some validations => .ok { t with validations }
    | none => .error (.identityConflict .constraint)

/-- A revision is projected again by a rebuild, and stored with its content otherwise. -/
def introduceRevision (t : MemoryTables) (entry : MemoryAppendOperation) (revision : MemoryRevision)
    (rebuilding : Bool) : Except StoreError MemoryTables :=
  if rebuilding then t.applyRevisionProjection entry.operation.memoryId revision false
  else t.insertRevision entry.operation revision entry.content

/-- `apply_operation`. A rebuild leaves contents, validations and the index alone. -/
def applyOperation (t : MemoryTables) (codec : MemoryCodec) (entry : MemoryAppendOperation)
    (rebuilding : Bool) : Except StoreError MemoryTables :=
  let operation := entry.operation
  let memoryId := operation.memoryId
  match operation.payload with
  | .memoryCreated _ _ revision | .revisionProposed revision | .memoryRevised revision =>
    t.introduceRevision entry revision rebuilding
  | .proposalApproved proposalRevisionId approvedRevision => do
    t.requireRevisionState memoryId proposalRevisionId [.proposed]
    let t ← t.introduceRevision entry approvedRevision rebuilding
    t.setRevisionState proposalRevisionId .superseded
  | .revisionValidated revisionId validation => do
    t.requireRevisionState memoryId revisionId [.proposed, .active]
    t.requireValidatedContent revisionId validation
    if rebuilding then .ok t
    else
      t.insertValidation codec
        ⟨operation.operationId, revisionId, validation, operation.occurredAt⟩
  | .revisionActivated revisionId => do
    t.requireRevisionState memoryId revisionId [.proposed]
    t.activateRevision memoryId revisionId (!rebuilding)
  | .revisionSuperseded revisionId supersededByRevisionId => do
    t.requireRevisionState memoryId revisionId [.active, .superseded]
    t.requireRevisionState memoryId supersededByRevisionId [.active]
    let t ← t.setRevisionState revisionId .superseded
    .ok (t.removeRevisionFromFts revisionId)
  | .revisionRejected revisionId _ => do
    t.requireRevisionState memoryId revisionId [.proposed]
    let t ← t.setRevisionState revisionId .rejected
    t.updateItemFromRevision memoryId revisionId
  | .memoryRetracted revisionId => do
    t.requireRevisionState memoryId revisionId [.active]
    let t ← t.setRevisionState revisionId .retracted
    (t.removeRevisionFromFts revisionId).updateItem memoryId (retired .retracted)
  | .memoryDeleted revisionId => do
    t.requireRevisionState memoryId revisionId [.proposed, .active, .rejected, .retracted]
    t.deleteMemoryContent memoryId revisionId

end MemoryTables

end AutoHarness
