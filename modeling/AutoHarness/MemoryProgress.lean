import AutoHarness.MemoryLedger

namespace AutoHarness

open FallibleRun KeyedTable MemoryTables

variable {t u : MemoryTables} {m : MemoryId} {codec : MemoryCodec}
  {revisionId : MemoryRevisionId} {operation : MemoryOperationEnvelope}

section Statements

theorem requireRevisionState_ok {allowed : List MemoryRevisionStatus}
    (h : t.HasState revisionId m allowed) : t.requireRevisionState m revisionId allowed = .ok () := by
  obtain ⟨rev, hr, same, memory, state⟩ := h
  unfold requireRevisionState
  rw [find?_eq_some_iff.mpr ⟨hr, same⟩]
  exact if_pos ⟨memory, state⟩

theorem setRevisionState_ok {state : MemoryRevisionStatus} (b : t.Belongs revisionId m)
    (open_ : state = .deleted → ∀ rev ∈ t.revisions, rev.memoryId = m → rev.contentId = none) :
    t.setRevisionState revisionId state = .ok (t.setState revisionId state) := by
  obtain ⟨rev, hr, same, memory⟩ := b
  unfold setRevisionState
  rw [find?_eq_some_iff.mpr ⟨hr, same⟩]
  refine if_neg ?_
  rintro ⟨deleted, kept⟩
  exact kept (open_ deleted rev hr memory)

theorem updateItem_ok {f : RowMap MemoryItemRow.memoryId}
    (checked : ∀ item ∈ t.items, (f.apply item).check = true) :
    t.updateItem m f = .ok { t with items := t.items.update (·.memoryId = m) f } := by
  unfold updateItem
  refine if_pos fun row hs => ?_
  exact checked row (mem_select.mp hs).1

theorem followed_check (state : MemoryRevisionStatus) (other : state ≠ .active)
    (item : MemoryItemRow) : ((followed state).apply item).check = true := by
  unfold followed MemoryItemRow.check
  cases active : item.activeRevisionId <;> simp [other, active]

theorem insertBlob_ok (blob : MemoryContentBlob) (kind : IdentityKind)
    (short : blob.contentId.text.utf8ByteSize ≤ 512)
    (fresh : ∀ other ∈ t.blobs, other.contentId ≠ blob.contentId) :
    ∃ blobs, t.insertBlob blob kind = .ok { t with blobs } ∧
      ∀ other, other ∈ blobs ↔ other ∈ t.blobs ∨ other = blob := by
  obtain ⟨blobs, inserted⟩ := insert?_of_fresh fresh
  refine ⟨blobs, ?_, (insert?_eq_some inserted).1⟩
  unfold insertBlob
  rw [if_neg (by omega), inserted]

theorem addRevisionToFts_ok {rev : MemoryRevisionRow} {blob : MemoryContentBlob}
    (hr : rev ∈ t.revisions) (hb : blob ∈ t.blobs) (content : rev.contentId = some blob.contentId)
    (unindexed : ∀ row ∈ t.fts, row.revisionId ≠ rev.revisionId) :
    ∃ fts, t.addRevisionToFts rev.revisionId = .ok { t with fts } := by
  have fresh : ∀ row ∈ t.fts, row.revisionId ≠
      (MemoryFtsRow.mk rev.revisionId rev.memoryId blob.content).revisionId := unindexed
  obtain ⟨fts, inserted⟩ := insert?_of_fresh fresh
  refine ⟨fts, ?_⟩
  unfold addRevisionToFts
  rw [find?_eq_some_iff.mpr ⟨hr, rfl⟩]
  have stored : rev.contentId.bind t.blobs.find? = some blob := by
    rw [content]
    exact find?_eq_some_iff.mpr ⟨hb, rfl⟩
  simp only [stored, inserted]

theorem deactivateCurrentRevision_ok {item : MemoryItemRow} (hi : item ∈ t.items)
    (own : item.memoryId = m) (exempt : Option MemoryRevisionId) :
    ∃ u, t.deactivateCurrentRevision m exempt = .ok u := by
  unfold deactivateCurrentRevision
  rw [find?_eq_some_iff.mpr ⟨hi, own⟩]
  dsimp only
  split
  next => exact ⟨t, rfl⟩
  next =>
    split
    next => exact ⟨t, rfl⟩
    next => exact ⟨_, rfl⟩

end Statements

section Introduction

variable {sidecars : List MemoryEvidenceContent} {entries : List (MemoryEvidenceMetadata × Nat)}

/-- What the rows of new evidence need of the tables. -/
structure EvidenceRoom (sidecars : List MemoryEvidenceContent)
    (entries : List (MemoryEvidenceMetadata × Nat)) (t : MemoryTables) : Prop where
  distinct : (entries.map fun entry => entry.1.evidenceId).Nodup
  fresh : ∀ entry ∈ entries, ∀ row ∈ t.evidence, row.evidenceId ≠ entry.1.evidenceId
  unstored : ∀ entry ∈ entries, ∀ blob ∈ t.blobs, blob.contentId ≠ .evidence entry.1.evidenceId
  hashed : ∀ entry ∈ entries, ∀ sidecar ∈ sidecars, sidecar.evidenceId = entry.1.evidenceId →
    entry.1.excerptHash ≠ none
  short : ∀ sidecar ∈ sidecars, (ContentId.evidence sidecar.evidenceId).text.utf8ByteSize ≤ 512

theorem insertExcerpt_ok {evidence : MemoryEvidenceMetadata}
    (unstored : ∀ blob ∈ t.blobs, blob.contentId ≠ .evidence evidence.evidenceId)
    (hashed : ∀ sidecar ∈ sidecars, sidecar.evidenceId = evidence.evidenceId →
      evidence.excerptHash ≠ none)
    (short : ∀ sidecar ∈ sidecars, (ContentId.evidence sidecar.evidenceId).text.utf8ByteSize ≤ 512) :
    ∃ blobs stored, t.insertExcerpt sidecars evidence = .ok ({ t with blobs }, stored) ∧
      ∀ blob ∈ blobs, blob ∈ t.blobs ∨ blob.contentId = .evidence evidence.evidenceId := by
  unfold insertExcerpt
  split
  next => exact ⟨t.blobs, none, rfl, fun _ hb => .inl hb⟩
  next sidecar found =>
    have listed := List.mem_of_find?_eq_some found
    have same : sidecar.evidenceId = evidence.evidenceId := by simpa using List.find?_some found
    rw [if_neg (hashed sidecar listed same)]
    have fits := short sidecar listed
    rw [same] at fits
    obtain ⟨blobs, inserted, rows⟩ := insertBlob_ok
      ⟨.evidence evidence.evidenceId, sidecar.excerpt.value⟩ .constraint fits unstored
    refine ⟨blobs, some (.evidence evidence.evidenceId), ?_, fun blob hb => ?_⟩
    · rw [inserted]
      rfl
    · exact ((rows blob).mp hb).imp_right fun same => by rw [same]

theorem insertEvidence_ok (room : EvidenceRoom sidecars entries t) :
    ∃ u, entries.foldlM (insertEvidence revisionId sidecars) t = .ok u := by
  induction entries generalizing t with
  | nil => exact ⟨t, rfl⟩
  | cons entry rest ih =>
    obtain ⟨blobs, stored, excerpted, kept⟩ := insertExcerpt_ok (room.unstored entry (by simp))
      (room.hashed entry (by simp)) room.short
    have fresh : ∀ row ∈ t.evidence, row.evidenceId ≠ (MemoryEvidenceRow.mk revisionId entry.2
        entry.1.evidenceId entry.1.source entry.1.relation stored entry.1.excerptHash none).evidenceId :=
      room.fresh entry (by simp)
    obtain ⟨evidence, inserted⟩ := insert?_of_fresh fresh
    have rows := (insert?_eq_some inserted).1
    have first : insertEvidence revisionId sidecars t entry = .ok { t with blobs, evidence } := by
      unfold insertEvidence
      rw [excerpted, ok_bind]
      simp only [inserted]
    have apart : ∀ other ∈ rest, other.1.evidenceId ≠ entry.1.evidenceId := by
      have distinct := List.nodup_cons.mp room.distinct
      intro other ho same
      exact distinct.1 (List.mem_map.mpr ⟨other, ho, same⟩)
    have remaining : EvidenceRoom sidecars rest { t with blobs, evidence } := by
      refine ⟨(List.nodup_cons.mp room.distinct).2, fun other ho row hr => ?_,
        fun other ho blob hb => ?_, fun other ho => room.hashed other (by simp [ho]), room.short⟩
      · rcases (rows row).mp hr with hr | rfl
        · exact room.fresh other (by simp [ho]) row hr
        · exact (apart other ho).symm
      · rcases kept blob hb with hb | new
        · exact room.unstored other (by simp [ho]) blob hb
        · rw [new]
          intro same
          exact apart other ho (ContentId.evidence.inj same).symm
    obtain ⟨u, folded⟩ := ih remaining
    refine ⟨u, ?_⟩
    rw [List.foldlM_cons, first, ok_bind]
    exact folded

/-- What a new revision needs of the tables. -/
structure RevisionRoom (operation : MemoryOperationEnvelope) (revision : MemoryRevision)
    (t : MemoryTables) : Prop where
  next : ∃ item ∈ t.items, item.memoryId = operation.memoryId ∧
    revision.revision.get = item.latestRevision + 1
  fresh : ∀ rev ∈ t.revisions, rev.revisionId ≠ revision.revisionId
  unused : ∀ rev ∈ t.revisions, rev.introducedOperationId ≠ operation.operationId
  supersedes : ∀ id, revision.supersedesRevisionId = some id → ∃ rev ∈ t.revisions, rev.revisionId = id
  short : (ContentId.content revision.revisionId).text.utf8ByteSize ≤ 512

theorem insertRevisionRow_ok {revision : MemoryRevision} (room : RevisionRoom operation revision t)
    (k : MemoryKeys t) :
    ∃ revisions, t.insertRevisionRow (operation.introducedRow revision) = .ok { t with revisions } := by
  obtain ⟨item, hi, own, number⟩ := room.next
  have fresh : ∀ rev ∈ t.revisions, rev.revisionId ≠
    (operation.introducedRow revision).revisionId := room.fresh
  obtain ⟨revisions, inserted⟩ := insert?_of_fresh fresh
  refine ⟨revisions, ?_⟩
  unfold insertRevisionRow
  rw [if_neg, if_neg]
  · simp only [inserted]
  · intro dangling
    obtain ⟨id, superseded, missing⟩ := (Option.any_eq_true _ _).mp dangling
    obtain ⟨rev, hr, same⟩ := room.supersedes id superseded
    have found : t.revisions.find? id = some rev := find?_eq_some_iff.mpr ⟨hr, same⟩
    simp [found] at missing
  · intro clash
    obtain ⟨rev, hr, shared⟩ := List.any_eq_true.mp clash
    simp only [Bool.or_eq_true, Bool.and_eq_true, decide_eq_true_eq] at shared
    rcases shared with operation_ | ⟨memory, revision_⟩
    · exact room.unused rev hr operation_
    · have counted := (k.numbered item hi rev.metadata.revision.get).mp
        ⟨rev, hr, memory.trans own.symm, rfl⟩
      have same : rev.metadata.revision.get = revision.revision.get := by rw [revision_]; rfl
      omega

/-- A proposal is stored when there is room for it, its content and its evidence. -/
theorem insertRevision_ok {revision : MemoryRevision} {content : MemoryRevisionContent}
    (k : MemoryKeys t) (r : Referenced t) (room : RevisionRoom operation revision t)
    (proposed : revision.status = .proposed)
    (distinct : (revision.evidence.map (·.evidenceId)).Nodup)
    (unknown : ∀ evidence ∈ revision.evidence, ∀ row ∈ t.evidence,
      row.evidenceId ≠ evidence.evidenceId)
    (hashed : ∀ evidence ∈ revision.evidence, ∀ sidecar ∈ content.evidence,
      sidecar.evidenceId = evidence.evidenceId → evidence.excerptHash ≠ none)
    (short : ∀ sidecar ∈ content.evidence,
      (ContentId.evidence sidecar.evidenceId).text.utf8ByteSize ≤ 512) :
    ∃ u, t.insertRevision operation revision (some content) = .ok u := by
  obtain ⟨item, hi, own, number⟩ := room.next
  have unstored : ∀ blob ∈ t.blobs, blob.contentId ≠ .content revision.revisionId := by
    intro blob hb same
    rcases r blob hb with ⟨rev, hr, stored⟩ | ⟨row, he, stored⟩
    · have named := k.content rev hr _ stored
      exact room.fresh rev hr (ContentId.content.inj (named.symm.trans same))
    · cases (k.excerpt row he _ stored).symm.trans same
  obtain ⟨blobs, inserted, rows⟩ := insertBlob_ok
    ⟨.content revision.revisionId, content.content.value⟩ .memoryRevision room.short unstored
  have keys : MemoryKeys { t with blobs } := { k with }
  have space : RevisionRoom operation revision { t with blobs } := { room with }
  obtain ⟨revisions, stored⟩ := insertRevisionRow_ok space keys
  have entries : ∀ entry ∈ revision.evidence.zipIdx, entry.1 ∈ revision.evidence := by
    intro entry he
    exact (List.mem_zipIdx he).2.2 ▸ List.getElem_mem _
  have spaced : EvidenceRoom content.evidence revision.evidence.zipIdx
      { t with blobs, revisions } := by
    refine ⟨?_, fun entry he => unknown entry.1 (entries entry he), fun entry he blob hb => ?_,
      fun entry he => hashed entry.1 (entries entry he), short⟩
    · have ids : revision.evidence.zipIdx.map (fun entry => entry.1.evidenceId) =
          revision.evidence.map (·.evidenceId) := by
        rw [← List.zipIdx_map_fst 0 revision.evidence, List.map_map]
        simp
      rw [ids]
      exact distinct
    · rcases (rows blob).mp hb with hb | rfl
      · intro same
        rcases r blob hb with ⟨rev, hr, kept⟩ | ⟨row, hr, kept⟩
        · cases (k.content rev hr _ kept).symm.trans same
        · have named := k.excerpt row hr _ kept
          exact unknown entry.1 (entries entry he) row hr
            (ContentId.evidence.inj (named.symm.trans same))
      · nofun
  have attaching : ∃ u, revision.evidence.zipIdx.foldlM
      (insertEvidence revision.revisionId content.evidence) { t with blobs, revisions } = .ok u :=
    insertEvidence_ok spaced
  obtain ⟨attached, folded⟩ := attaching
  have noted : ∀ item ∈ attached.items, (revision.note.apply item).check = true := by
    intro item _
    have followed_ := followed_check revision.status (by rw [proposed]; decide) item
    exact followed_
  refine ⟨{ attached with
    items := attached.items.update (·.memoryId = operation.memoryId) revision.note }, ?_⟩
  unfold insertRevision
  rw [find?_eq_some_iff.mpr ⟨hi, own⟩]
  simp only [number, ne_eq, not_true_eq_false, if_false]
  rw [inserted, ok_bind]
  have row : (⟨revision.revisionId, operation.memoryId, operation.operationId, revision.status,
    some (.content revision.revisionId), revision⟩ : MemoryRevisionRow) =
      operation.introducedRow revision := rfl
  rw [row, stored, ok_bind, folded, ok_bind, applyRevisionProjection, if_neg (by simp [proposed])]
  exact updateItem_ok noted

end Introduction

section Operations

variable {entry : MemoryAppendOperation}

/-- A proposal with its content, not yet in the index. -/
structure Stored (t : MemoryTables) (m : MemoryId) (revision : MemoryRevision) : Prop where
  row : ∃ rev ∈ t.revisions, rev.revisionId = revision.revisionId ∧ rev.memoryId = m ∧
    rev.state = .proposed ∧ rev.metadata = revision ∧
    ∃ blob ∈ t.blobs, rev.contentId = some blob.contentId
  unindexed : ∀ row ∈ t.fts, row.revisionId ≠ revision.revisionId

theorem Stored.hasState {revision : MemoryRevision} (s : Stored t m revision)
    {states : List MemoryRevisionStatus} (listed : .proposed ∈ states) :
    t.HasState revision.revisionId m states := by
  obtain ⟨rev, hr, same, memory, state, -⟩ := s.row
  exact ⟨rev, hr, same, memory, state ▸ listed⟩

theorem applyOperation_validated {revision : MemoryRevision} {validation : MemoryValidationResult}
    (hp : entry.operation.payload = .revisionValidated revision.revisionId validation)
    (s : Stored t entry.operation.memoryId revision)
    (hash : revision.contentHash = validation.contentHash)
    (short : codec.validationBytes validation ≤ 65536)
    (unused : ∀ row ∈ t.validations, row.operationId ≠ entry.operation.operationId) :
    ∃ u, t.applyOperation codec entry false = .ok u := by
  have room : ∀ row ∈ t.validations, row.operationId ≠ (MemoryValidationRow.mk
    entry.operation.operationId revision.revisionId validation
    entry.operation.occurredAt).operationId := unused
  obtain ⟨validations, inserted⟩ := insert?_of_fresh room
  refine ⟨{ t with validations }, ?_⟩
  have required : t.requireRevisionState entry.operation.memoryId revision.revisionId
    [.proposed, .active] = .ok () := requireRevisionState_ok (s.hasState (by simp))
  have checked : t.requireValidatedContent revision.revisionId validation = .ok () := by
    obtain ⟨rev, hr, same, -, -, metadata, -⟩ := s.row
    unfold requireValidatedContent
    rw [find?_eq_some_iff.mpr ⟨hr, same⟩]
    exact if_pos (by rw [metadata, hash])
  simp only [applyOperation, hp, required, checked, ok_bind, Bool.false_eq_true, if_false]
  unfold insertValidation
  rw [if_neg (by simpa using short), inserted]

theorem applyOperation_activated {revision : MemoryRevision}
    (hp : entry.operation.payload = .revisionActivated revision.revisionId)
    (s : Stored t entry.operation.memoryId revision)
    (known : ∃ item ∈ t.items, item.memoryId = entry.operation.memoryId) :
    ∃ u, t.applyOperation codec entry false = .ok u := by
  obtain ⟨item, hi, own⟩ := known
  obtain ⟨cleared, deactivated⟩ := deactivateCurrentRevision_ok hi own (some revision.revisionId)
  have required : t.requireRevisionState entry.operation.memoryId revision.revisionId
    [.proposed] = .ok () := requireRevisionState_ok (s.hasState (by simp))
  obtain ⟨rev, hr, same, memory, state, metadata, blob, hb, content⟩ := s.row
  have kept : ∃ new ∈ cleared.revisions, new.revisionId = rev.revisionId ∧
      new.memoryId = rev.memoryId ∧ new.contentId = rev.contentId := by
    obtain ⟨_, -, -, ⟨rfl, -⟩ | ⟨current, -, -, rfl⟩⟩ := deactivateCurrentRevision_eq_ok deactivated
    · exact ⟨rev, hr, rfl, rfl, rfl⟩
    · exact ⟨_, mem_setState.mpr ⟨rev, hr, rfl⟩, rfl, rfl, rfl⟩
  have texts : cleared.blobs = t.blobs ∧ ∀ row ∈ cleared.fts, row ∈ t.fts := by
    obtain ⟨_, -, -, ⟨rfl, -⟩ | ⟨current, -, -, rfl⟩⟩ := deactivateCurrentRevision_eq_ok deactivated
    · exact ⟨rfl, fun _ hf => hf⟩
    · exact ⟨rfl, fun _ hf => (mem_delete.mp hf).1⟩
  obtain ⟨new, hn, id, owner, stored⟩ := kept
  have marked : cleared.setRevisionState revision.revisionId .active =
      .ok (cleared.setState revision.revisionId .active) :=
    setRevisionState_ok (m := rev.memoryId) ⟨new, hn, id.trans same, owner⟩ (by simp)
  have active : ∃ row ∈ (cleared.setState revision.revisionId .active).revisions,
      row.revisionId = revision.revisionId ∧ row.contentId = some blob.contentId :=
    ⟨_, mem_setState.mpr ⟨new, hn, rfl⟩, id.trans same, stored.trans content⟩
  obtain ⟨row, hw, named, linked⟩ := active
  obtain ⟨fts, indexed⟩ := addRevisionToFts_ok hw (texts.1 ▸ hb) linked
    fun other hf => named ▸ s.unindexed other (texts.2 other hf)
  simp only [applyOperation, hp, required, ok_bind]
  unfold activateRevision
  rw [deactivated, ok_bind, marked, ok_bind]
  simp only [maintainFtsFor, Bool.not_false, if_true]
  rw [← named] at indexed ⊢
  rw [indexed, ok_bind]
  exact ⟨_, updateItem_ok fun item _ => by simp [activated, MemoryItemRow.check]⟩

theorem applyOperation_superseded {supersededId byId : MemoryRevisionId}
    (hp : entry.operation.payload = .revisionSuperseded supersededId byId)
    (prior : t.HasState supersededId entry.operation.memoryId [.active, .superseded])
    (successor : t.HasState byId entry.operation.memoryId [.active]) :
    ∃ u, t.applyOperation codec entry false = .ok u := by
  have marked : t.setRevisionState supersededId .superseded =
      .ok (t.setState supersededId .superseded) := setRevisionState_ok prior.belongs (by simp)
  refine ⟨(t.setState supersededId .superseded).removeRevisionFromFts supersededId, ?_⟩
  simp only [applyOperation, hp, requireRevisionState_ok prior, requireRevisionState_ok successor,
    marked, ok_bind]

theorem applyOperation_rejected {reason : MemoryRejectionReason}
    (hp : entry.operation.payload = .revisionRejected revisionId reason)
    (known : t.HasState revisionId entry.operation.memoryId [.proposed]) :
    ∃ u, t.applyOperation codec entry false = .ok u := by
  have marked : t.setRevisionState revisionId .rejected = .ok (t.setState revisionId .rejected) :=
    setRevisionState_ok known.belongs (by simp)
  have required := requireRevisionState_ok known
  obtain ⟨rev, hr, same, -⟩ := known
  have found : (t.setState revisionId .rejected).revisions.find? revisionId =
      some { rev with state := .rejected } := by
    refine find?_eq_some_iff.mpr ⟨mem_setState.mpr ⟨rev, hr, ?_⟩, same⟩
    rw [if_pos same]
  simp only [applyOperation, hp, required, marked, ok_bind, updateItemFromRevision, found]
  exact ⟨_, updateItem_ok fun item _ => followed_check .rejected (by simp) item⟩

theorem applyOperation_retracted
    (hp : entry.operation.payload = .memoryRetracted revisionId)
    (known : t.HasState revisionId entry.operation.memoryId [.active]) :
    ∃ u, t.applyOperation codec entry false = .ok u := by
  have marked : t.setRevisionState revisionId .retracted = .ok (t.setState revisionId .retracted) :=
    setRevisionState_ok known.belongs (by simp)
  simp only [applyOperation, hp, requireRevisionState_ok known, marked, ok_bind]
  exact ⟨_, updateItem_ok fun item _ => by simp [retired, MemoryItemRow.check]⟩

theorem applyOperation_deleted
    (hp : entry.operation.payload = .memoryDeleted revisionId)
    (known : t.HasState revisionId entry.operation.memoryId
      [.proposed, .active, .rejected, .retracted]) :
    ∃ u, t.applyOperation codec entry false = .ok u := by
  have bare : ∀ rev ∈ (t.eraseContent entry.operation.memoryId).revisions,
      rev.memoryId = entry.operation.memoryId → rev.contentId = none := by
    intro rev hr own
    obtain ⟨old, -, rfl⟩ := mem_eraseContent.mp hr
    exact if_pos own
  have marked : (t.eraseContent entry.operation.memoryId).setRevisionState revisionId .deleted =
      .ok ((t.eraseContent entry.operation.memoryId).setState revisionId .deleted) :=
    setRevisionState_ok (belongs_eraseContent.mpr known.belongs) fun _ => bare
  simp only [applyOperation, hp, requireRevisionState_ok known, ok_bind]
  unfold deleteMemoryContent
  rw [marked, ok_bind]
  exact ⟨_, updateItem_ok fun item _ => by simp [retired, MemoryItemRow.check]⟩

end Operations

end AutoHarness
