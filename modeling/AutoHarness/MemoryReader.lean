import AutoHarness.MemoryStore
import Mathlib.Data.List.Infix
import Mathlib.Data.Prod.Lex

namespace AutoHarness

def corruptMemoryLedger : StoreError := .corruptData .memoryLedger

def MemoryContent.new (value : String) : Option MemoryContent :=
  if hb : isBlank value then none
  else if hl : value.utf8ByteSize ≤ maxMemoryContentBytes then
    some ⟨value, Bool.eq_false_iff.mpr hb, hl⟩
  else none

def MemoryEvidenceExcerpt.new (value : String) : Option MemoryEvidenceExcerpt :=
  if hb : isBlank value then none
  else if hl : value.utf8ByteSize ≤ maxMemoryEvidenceExcerptBytes then
    some ⟨value, Bool.eq_false_iff.mpr hb, hl⟩
  else none

/-- What the readers use of external code: the JSON texts that a filter searches, the Unicode
tables and the full-text index, which ranks the rows that match a query. -/
structure MemoryReadCodec extends MemoryCodec where
  metadataJson : MemoryRevision → String
  validationJson : MemoryValidationResult → String
  isAlphanumeric : Char → Bool
  toLowercase : String → String
  rankFts : String → MemoryFtsRow → Option Nat

/-- A retained text against the hash of the revision it belongs to. -/
def decodeContent (codec : FactCodec) (area : CorruptionArea) (revision : MemoryRevision)
    (content : String) : Except StoreError MemoryContent :=
  if normalizedContentHash codec content ≠ revision.contentHash then .error (.corruptData area)
  else
    match MemoryContent.new content with
    | some content => .ok content
    | none => .error (.corruptData area)

def decodeOptionalContent (codec : FactCodec) (area : CorruptionArea) (revision : MemoryRevision) :
    Option String → Except StoreError (Option MemoryContent)
  | none => .ok none
  | some content => some <$> decodeContent codec area revision content

inductive MemoryEvidenceExcerptState where
  | absent
  | erased
  | retained (excerpt : MemoryEvidenceExcerpt)

structure StoredMemoryEvidenceContent where
  evidenceId : MemoryEvidenceId
  excerpt : MemoryEvidenceExcerptState

inductive MemoryContentState where
  | erased
  | retained (content : MemoryContent)

structure StoredMemoryCandidate where
  memoryId : MemoryId
  scope : MemoryScope
  memoryKind : MemoryKind
  revision : MemoryRevision
  content : MemoryContentState

namespace MemoryTables

/-- The text that the content column of a revision refers to, a `LEFT JOIN`. -/
def contentOf (t : MemoryTables) (row : MemoryRevisionRow) : Option String :=
  (row.contentId.bind t.blobs.find?).map (·.content)

def loadMemoryContent (t : MemoryTables) (codec : FactCodec) (revisionId : MemoryRevisionId) :
    Except StoreError (Option MemoryContent) :=
  match t.revisions.find? revisionId with
  | none => .ok none
  | some row => decodeOptionalContent codec .memoryProjection row.metadata (t.contentOf row)

/-- The evidence rows of one revision by ordinal. -/
def evidenceRows (t : MemoryTables) (revisionId : MemoryRevisionId) : List MemoryEvidenceRow :=
  (t.evidence.select (·.revisionId = revisionId)).insertionSort fun a b => a.ordinal ≤ b.ordinal

/-- An excerpt is absent, erased with its memory or by a session, or retained as hashed. -/
def decodeExcerpt (t : MemoryTables) (codec : FactCodec) (lifecycle : MemoryRevisionStatus)
    (metadata : MemoryEvidenceMetadata) (row : MemoryEvidenceRow) :
    Except StoreError MemoryEvidenceExcerptState :=
  match metadata.excerptHash, row.excerptContentId, row.excerptHash, row.erasedBy,
    row.excerptContentId.bind t.blobs.find? with
  | none, none, none, none, none => .ok .absent
  | some _, none, none, erasedBy, none =>
    if lifecycle = .deleted ∨ erasedBy.isSome then .ok .erased else .error corruptMemoryProjection
  | some expected, some contentId, some indexed, none, some blob =>
    if contentId = .evidence row.evidenceId ∧ indexed = expected ∧
        codec.sha256 (utf8Bytes blob.content) = indexed then
      match MemoryEvidenceExcerpt.new blob.content with
      | some excerpt => .ok (.retained excerpt)
      | none => .error corruptMemoryProjection
    else .error corruptMemoryProjection
  | _, _, _, _, _ => .error corruptMemoryProjection

def decodeEvidence (t : MemoryTables) (codec : FactCodec) (lifecycle : MemoryRevisionStatus)
    (entry : (MemoryEvidenceMetadata × MemoryEvidenceRow) × Nat) :
    Except StoreError StoredMemoryEvidenceContent :=
  let metadata := entry.1.1
  let row := entry.1.2
  if row.ordinal ≠ entry.2 ∨ row.evidenceId ≠ metadata.evidenceId ∨
      row.source ≠ metadata.source ∨ row.relation ≠ metadata.relation then
    .error corruptMemoryProjection
  else do
    let excerpt ← t.decodeExcerpt codec lifecycle metadata row
    .ok ⟨metadata.evidenceId, excerpt⟩

/-- A revision with the item it belongs to. -/
def findOwned (t : MemoryTables) (revisionId : MemoryRevisionId) :
    Option (MemoryRevisionRow × MemoryItemRow) :=
  (t.revisions.find? revisionId).bind fun row => (t.items.find? row.memoryId).map fun item => (row, item)

def loadMemoryEvidenceContent (t : MemoryTables) (codec : FactCodec)
    (revisionId : MemoryRevisionId) :
    Except StoreError (Option (List StoredMemoryEvidenceContent)) :=
  match t.findOwned revisionId with
  | none => .ok none
  | some (row, item) =>
    let rows := t.evidenceRows revisionId
    if row.metadata.revisionId ≠ revisionId then .error corruptMemoryProjection
    else if rows.length ≠ row.metadata.evidence.length then .error corruptMemoryProjection
    else
      some <$> (row.metadata.evidence.zip rows).zipIdx.mapM (t.decodeEvidence codec item.lifecycle)

def loadMemoryCandidate (t : MemoryTables) (codec : FactCodec) (revisionId : MemoryRevisionId) :
    Except StoreError (Option StoredMemoryCandidate) :=
  match t.findOwned revisionId with
  | none => .ok none
  | some (row, item) =>
    let revision := row.metadata.withStatus row.state
    if row.metadata.revisionId ≠ revisionId then .error corruptMemoryProjection
    else
      match row.contentId, t.contentOf row with
      | none, none => .ok (some ⟨item.memoryId, item.scope, item.kind, revision, .erased⟩)
      | some _, some content => do
        let content ← decodeContent codec .memoryProjection revision content
        .ok (some ⟨item.memoryId, item.scope, item.kind, revision, .retained content⟩)
      | _, _ => .error corruptMemoryProjection

/-- The validations that the ledger has for a revision, by sequence. -/
def validationsOf (t : MemoryTables) (memoryId : MemoryId) (revisionId : MemoryRevisionId) :
    List MemoryOperationEnvelope :=
  (t.operations.select fun operation => operation.memoryId = memoryId &&
    match operation.payload with
    | .revisionValidated id _ => id = revisionId
    | _ => false).insertionSort fun a b => a.sequence.get ≤ b.sequence.get

/-- One validation of the ledger against its projected row. -/
def checkValidation (t : MemoryTables) (revision : MemoryRevision)
    (operation : MemoryOperationEnvelope) : Except StoreError MemoryValidationResult :=
  match operation.payload with
  | .revisionValidated revisionId validation =>
    if operation.schemaVersion ≠ memorySchemaV1 ∨ revisionId ≠ revision.revisionId ∨
        validation.contentHash ≠ revision.contentHash then .error corruptMemoryLedger
    else
      match t.validations.find? operation.operationId with
      | none => .error corruptMemoryProjection
      | some row =>
        if row.revisionId ≠ revision.revisionId ∨ row.validation ≠ validation ∨
            row.createdAt ≠ operation.occurredAt then .error corruptMemoryProjection
        else .ok row.validation
  | _ => .error corruptMemoryLedger

def loadLatestRevisionValidation (t : MemoryTables) (memoryId : MemoryId)
    (revision : MemoryRevision) : Except StoreError (Option MemoryValidationResult) := do
  let found ← (t.validationsOf memoryId revision.revisionId).mapM (t.checkValidation revision)
  if (t.validations.select (·.revisionId = revision.revisionId)).length ≠ found.length then
    .error corruptMemoryProjection
  else .ok found.getLast?

end MemoryTables

section Queries

def maxMemoryInspectionPageSize : Nat := 128

def maxMemorySearchCandidates : Nat := 256

def maxFtsQueryTerms : Nat := 32

structure MemoryInspectionCursor where
  updatedAt : TimestampMillis
  memoryId : MemoryId

inductive MemoryInspectionStatus where
  | active
  | proposed
  | conflicting
  | superseded
  | rejected
  | retracted
  | expired
  | deleted

/-- Filters of one page; statuses derived from a clock come with its time. -/
structure MemoryInspectionQuery where
  eligibleScopes : List MemoryScope
  statuses : List MemoryRevisionStatus
  effectiveStatuses : List MemoryInspectionStatus
  asOf : Option TimestampMillis
  memoryKind : Option MemoryKind
  subjectKey : Option MemorySubjectKey
  literalSearch : Option MemoryContent
  sensitivityCeiling : Sensitivity
  before : Option MemoryInspectionCursor
  limit : Nat
  authorized : eligibleScopes ≠ []
  positive : 1 ≤ limit
  bounded : limit ≤ maxMemoryInspectionPageSize
  observed : effectiveStatuses ≠ [] → asOf.isSome

structure MemoryInspectionRecord where
  memoryId : MemoryId
  scope : MemoryScope
  memoryKind : MemoryKind
  lifecycle : MemoryRevisionStatus
  latestRevision : MemoryRevision
  content : Option MemoryContent
  evidence : List StoredMemoryEvidenceContent
  latestValidation : Option MemoryValidationResult
  activeRevisionId : Option MemoryRevisionId
  lastSequence : Nat
  createdAt : TimestampMillis
  updatedAt : TimestampMillis

structure MemoryInspectionPage where
  records : List MemoryInspectionRecord
  hasMore : Bool

structure ActiveMemoryHeadQuery where
  eligibleScopes : List MemoryScope
  memoryKind : MemoryKind
  subjectKey : Option MemorySubjectKey
  contentHash : Option Sha256Digest
  limit : Nat
  authorized : eligibleScopes ≠ []
  positive : 1 ≤ limit
  bounded : limit ≤ maxMemorySearchCandidates

structure ActiveMemoryHead where
  memoryId : MemoryId
  scope : MemoryScope
  memoryKind : MemoryKind
  revision : MemoryRevision

structure MemorySearchQuery where
  query : MemoryContent
  eligibleScopes : List MemoryScope
  sensitivityCeiling : Sensitivity
  asOf : TimestampMillis
  limit : Nat
  authorized : eligibleScopes ≠ []
  positive : 1 ≤ limit
  bounded : limit ≤ maxMemorySearchCandidates

structure MemorySearchCandidate where
  memoryId : MemoryId
  scope : MemoryScope
  memoryKind : MemoryKind
  revision : MemoryRevision
  content : MemoryContent
  rank : Nat

structure MemoryCandidateBatch where
  generation : Nat
  candidates : List MemorySearchCandidate

end Queries

def sensitivityRank : Sensitivity → Nat
  | .public_ => 0
  | .internal => 1
  | .sensitive => 2
  | .secret => 3

def validityBounds : MemoryValidity → Option TimestampMillis × Option TimestampMillis
  | .indefinite => (none, none)
  | .from_ validFrom => (some validFrom, none)
  | .until_ validUntil => (none, some validUntil)
  | .window validFrom validUntil _ => (some validFrom, some validUntil)

/-- The validity of a revision at one time, as the SQL of the queries has it. -/
def validAt (validity : MemoryValidity) (asOf : TimestampMillis) : Bool :=
  ((validityBounds validity).1.all fun validFrom => validFrom.value ≤ asOf.value) &&
    (validityBounds validity).2.all fun validUntil => validUntil.value > asOf.value

/-- SQLite's `instr(text, needle) > 0`. -/
def instr (text needle : String) : Bool :=
  decide (needle.toList <:+: text.toList)

/-- The terms of a query, each quoted, or nothing when there are none. -/
def literalFtsQuery (codec : MemoryReadCodec) (query : String) : Option String :=
  let words := (query.toList.splitOnP fun c => !codec.isAlphanumeric c).filter (· ≠ [])
  let terms := (((words.take maxFtsQueryTerms).map fun word =>
    codec.toLowercase (String.ofList word)).insertionSort (· ≤ ·)).destutter (· ≠ ·)
  if terms = [] then none
  else some (" OR ".intercalate (terms.map fun term =>
    "\"" ++ term.replace "\"" "\"\"" ++ "\""))

namespace MemoryTables

/-- Whether the latest revision of an item is marked as contradicted. -/
def isConflicting (t : MemoryTables) (codec : MemoryReadCodec) (row : MemoryRevisionRow) : Bool :=
  instr (codec.metadataJson row.metadata) "\"kind\":\"contradicts\"" ||
    ((t.validations.rows.filterMap fun validation =>
      if validation.revisionId = row.revisionId then
        (t.operations.find? validation.operationId).map fun operation =>
          (operation.sequence.get, validation)
      else none).insertionSort fun a b => b.1 ≤ a.1).head?.any fun latest =>
        instr (codec.validationJson latest.2.validation) "\"contradiction\""

def hasEffectiveStatus (t : MemoryTables) (codec : MemoryReadCodec) (asOf : TimestampMillis)
    (item : MemoryItemRow) (row : MemoryRevisionRow) : MemoryInspectionStatus → Bool
  | .active => item.lifecycle = .active && validAt row.metadata.validity asOf &&
      !t.isConflicting codec row
  | .proposed => item.lifecycle = .proposed && validAt row.metadata.validity asOf &&
      !t.isConflicting codec row
  | .conflicting => [MemoryRevisionStatus.active, .proposed].contains item.lifecycle &&
      t.isConflicting codec row
  | .expired => [MemoryRevisionStatus.active, .proposed].contains item.lifecycle &&
      !t.isConflicting codec row && !validAt row.metadata.validity asOf
  | .superseded => item.lifecycle = .superseded
  | .rejected => item.lifecycle = .rejected
  | .retracted => item.lifecycle = .retracted
  | .deleted => item.lifecycle = .deleted

/-- `append_effective_status_filter`. -/
def admitsEffectiveStatus (t : MemoryTables) (codec : MemoryReadCodec) (query : MemoryInspectionQuery)
    (item : MemoryItemRow) (row : MemoryRevisionRow) : Bool :=
  query.effectiveStatuses.isEmpty || query.asOf.any fun asOf =>
    query.effectiveStatuses.any (t.hasEffectiveStatus codec asOf item row)

/-- The `WHERE` clause of an inspection. -/
def admitsInspection (t : MemoryTables) (codec : MemoryReadCodec) (query : MemoryInspectionQuery)
    (item : MemoryItemRow) (row : MemoryRevisionRow) : Bool :=
  query.eligibleScopes.contains item.scope &&
    (query.statuses.isEmpty || query.statuses.contains item.lifecycle) &&
    t.admitsEffectiveStatus codec query item row &&
    query.memoryKind.all (· = item.kind) &&
    query.subjectKey.all (fun key => row.metadata.subjectKey = some key) &&
    sensitivityRank row.metadata.sensitivity ≤ sensitivityRank query.sensitivityCeiling &&
    query.literalSearch.all (fun needle => instr item.memoryId.value needle.value ||
      (t.contentOf row).any fun content => instr content needle.value) &&
    query.before.all fun cursor => item.updatedAt.value < cursor.updatedAt.value ||
      (item.updatedAt = cursor.updatedAt && item.memoryId < cursor.memoryId)

/-- The items of a page with their latest revisions, newest first, one more than the page has. -/
def inspectionRows (t : MemoryTables) (codec : MemoryReadCodec) (query : MemoryInspectionQuery) :
    List (MemoryItemRow × MemoryRevisionRow) :=
  (((t.items.rows.filterMap fun item => (item.latestRevisionId.bind t.revisions.find?).map
    fun row => (item, row)).filter fun pair => t.admitsInspection codec query pair.1 pair.2).insertionSort
      fun a b => b.1.updatedAt.value < a.1.updatedAt.value ∨
        (b.1.updatedAt = a.1.updatedAt ∧ b.1.memoryId ≤ a.1.memoryId)).take (query.limit + 1)

def inspectRecord (t : MemoryTables) (codec : MemoryReadCodec)
    (pair : MemoryItemRow × MemoryRevisionRow) : Except StoreError MemoryInspectionRecord := do
  let item := pair.1
  let latest := pair.2.metadata.withStatus pair.2.state
  let content ← decodeOptionalContent codec.toFactCodec .memoryProjection latest (t.contentOf pair.2)
  if item.lifecycle ≠ .deleted ∧ content.isNone then .error corruptMemoryProjection
  else
    let evidence ← t.loadMemoryEvidenceContent codec.toFactCodec latest.revisionId
    match evidence with
    | none => .error corruptMemoryProjection
    | some evidence => do
      let validation ← t.loadLatestRevisionValidation item.memoryId latest
      .ok ⟨item.memoryId, item.scope, item.kind, item.lifecycle, latest, content, evidence,
        validation, item.activeRevisionId, item.lastSequence, item.createdAt, item.updatedAt⟩

def inspectMemoryPage (t : MemoryTables) (codec : MemoryReadCodec) (query : MemoryInspectionQuery) :
    Except StoreError MemoryInspectionPage := do
  let records ← (t.inspectionRows codec query).mapM (t.inspectRecord codec)
  let hasMore := decide (records.length > query.limit)
  .ok ⟨if hasMore then records.dropLast else records, hasMore⟩

/-- The order of the scopes in the store: by type, then by identity. -/
def scopeKey : MemoryScope → String × String
  | .user id => ("user", id.value)
  | .workspace id => ("workspace", id.value)
  | .session id => ("session", id.value)
  | .agent id => ("agent", id.value)

def loadActiveMemoryHeads (t : MemoryTables) (query : ActiveMemoryHeadQuery) :
    Except StoreError (List ActiveMemoryHead) :=
  let rows := (t.items.rows.filterMap fun item => (item.activeRevisionId.bind t.revisions.find?).map
    fun row => (item, row)).filter fun pair => pair.1.lifecycle = .active &&
      pair.2.state = .active && pair.1.kind = query.memoryKind &&
      query.eligibleScopes.contains pair.1.scope && pair.2.metadata.subjectKey = query.subjectKey &&
      query.contentHash.all (· = pair.2.metadata.contentHash)
  let ordered := rows.insertionSort fun a b =>
    toLex ((scopeKey a.1.scope).1, toLex ((scopeKey a.1.scope).2, a.1.memoryId.value)) ≤
      toLex ((scopeKey b.1.scope).1, toLex ((scopeKey b.1.scope).2, b.1.memoryId.value))
  (ordered.take query.limit).mapM fun pair =>
    let revision := pair.2.metadata.withStatus pair.2.state
    if revision.status ≠ .active then .error corruptMemoryProjection
    else .ok ⟨pair.1.memoryId, pair.1.scope, pair.1.kind, revision⟩

/-- The rows of a search: revisions that match, with their items, contents and ranks. -/
def searchRows (t : MemoryTables) (codec : MemoryReadCodec) (query : MemorySearchQuery)
    (matching : String) : List (Nat × MemoryItemRow × MemoryRevisionRow × String) :=
  ((t.fts.rows.filterMap fun indexed => do
    let rank ← codec.rankFts matching indexed
    let (row, item) ← t.findOwned indexed.revisionId
    let content ← t.contentOf row
    if row.state = .active && validAt row.metadata.validity query.asOf &&
        sensitivityRank row.metadata.sensitivity ≤ sensitivityRank query.sensitivityCeiling &&
        query.eligibleScopes.contains item.scope then some (rank, item, row, content)
    else none).insertionSort fun a b =>
      toLex (a.1, toLex (a.2.1.memoryId.value, a.2.2.1.metadata.revision.get)) ≤
        toLex (b.1, toLex (b.2.1.memoryId.value, b.2.2.1.metadata.revision.get))).take query.limit

def searchCandidate (codec : FactCodec)
    (entry : (Nat × MemoryItemRow × MemoryRevisionRow × String) × Nat) :
    Except StoreError MemorySearchCandidate := do
  let (_, item, row, text) := entry.1
  let revision := row.metadata.withStatus row.state
  let content ← decodeContent codec .memorySearch revision text
  .ok ⟨item.memoryId, item.scope, item.kind, revision, content, entry.2⟩

def searchMemory (t : MemoryTables) (codec : MemoryReadCodec) (query : MemorySearchQuery) :
    Except StoreError MemoryCandidateBatch :=
  match literalFtsQuery codec query.query.value with
  | none => .ok ⟨t.generation, []⟩
  | some matching => do
    let candidates ← (t.searchRows codec query matching).zipIdx.mapM (searchCandidate codec.toFactCodec)
    if candidates.length > maxMemorySearchCandidates then .error (.corruptData .memorySearch)
    else .ok ⟨t.generation, candidates⟩

end MemoryTables

end AutoHarness
