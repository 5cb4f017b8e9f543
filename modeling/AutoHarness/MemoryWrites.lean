import AutoHarness.MemoryFrame

namespace AutoHarness

open FallibleRun KeyedTable MemoryTables

variable {t u v : MemoryTables} {m : MemoryId} {revisionId : MemoryRevisionId}

/-- The row that an operation introduces for a revision. -/
def MemoryOperationEnvelope.introducedRow (operation : MemoryOperationEnvelope)
    (revision : MemoryRevision) : MemoryRevisionRow :=
  ⟨revision.revisionId, operation.memoryId, operation.operationId, revision.status,
    some (.content revision.revisionId), revision⟩

/-- How the item takes note of a new revision that is not active. -/
def MemoryRevision.note (revision : MemoryRevision) : RowMap MemoryItemRow.memoryId :=
  (withLatest revision).comp (followed revision.status)

/-- Everything that storing a proposed revision does to the tables. -/
structure Introduces (operation : MemoryOperationEnvelope) (revision : MemoryRevision)
    (t u : MemoryTables) : Prop where
  known : ∃ item ∈ t.items, item.memoryId = operation.memoryId
  next : ∀ item ∈ t.items, item.memoryId = operation.memoryId →
    revision.revision.get = item.latestRevision + 1
  fresh : ∀ rev ∈ t.revisions, rev.revisionId ≠ revision.revisionId
  items : u.items = t.items.update (·.memoryId = operation.memoryId) revision.note
  checked : ∀ item ∈ t.items, item.memoryId = operation.memoryId →
    (revision.note.apply item).check = true
  revisions : ∀ rev, rev ∈ u.revisions ↔
    rev ∈ t.revisions ∨ rev = operation.introducedRow revision
  fts : u.fts = t.fts
  validations : u.validations = t.validations
  operations : u.operations = t.operations
  tombstones : u.tombstones = t.tombstones
  counters : (u.generation, u.mutationGeneration) = (t.generation, t.mutationGeneration)
  kept : ∀ row ∈ t.evidence, row ∈ u.evidence
  added : ∀ row ∈ u.evidence, row ∈ t.evidence ∨ row.revisionId = revision.revisionId ∧
    ∀ id, row.excerptContentId = some id → id = .evidence row.evidenceId
  keptBlobs : ∀ blob ∈ t.blobs, blob ∈ u.blobs
  addedBlobs : ∀ blob ∈ u.blobs, blob ∈ t.blobs ∨ blob.contentId = .content revision.revisionId ∨
    ∃ row ∈ u.evidence, row.revisionId = revision.revisionId ∧
      blob.contentId = .evidence row.evidenceId ∧ row.excerptContentId = some blob.contentId

theorem insertRevisionRow_eq_ok {row : MemoryRevisionRow} (h : t.insertRevisionRow row = .ok u) :
    ∃ revisions, t.revisions.insert? row = some revisions ∧ u = { t with revisions } := by
  unfold insertRevisionRow at h
  split at h
  next => cases h
  next =>
    split at h
    next => cases h
    next =>
      split at h
      next revisions inserted => exact ⟨revisions, inserted, (Except.ok.inj h).symm⟩
      next => cases h

theorem insertRevision_introduces {operation : MemoryOperationEnvelope} {revision : MemoryRevision}
    {content : Option MemoryRevisionContent} (proposed : revision.status = .proposed)
    (h : t.insertRevision operation revision content = .ok u) :
    Introduces operation revision t u := by
  unfold insertRevision at h
  split at h
  next => cases h
  next => cases h
  next content item found =>
    obtain ⟨hi, same⟩ := find?_eq_some_iff.mp found
    split at h
    next => cases h
    next next_ =>
      obtain ⟨_, inserted, h⟩ := bind_eq_ok_iff.mp h
      obtain ⟨blobs, stored, rfl⟩ := insertBlob_eq_ok inserted
      obtain ⟨_, insertedRow, h⟩ := bind_eq_ok_iff.mp h
      obtain ⟨revisions, storedRow, rfl⟩ := insertRevisionRow_eq_ok insertedRow
      obtain ⟨attached, folded, h⟩ := bind_eq_ok_iff.mp h
      have evidence := insertEvidence_foldlM folded
      rw [applyRevisionProjection, if_neg (by simp [proposed])] at h
      obtain ⟨rfl, checked⟩ := updateItem_eq_ok h
      have contents := (insert?_eq_some stored).1
      obtain ⟨rows, fresh⟩ := insert?_eq_some storedRow
      have rest := evidence.rest
      refine {
        known := ⟨item, hi, same⟩
        next := fun other ho own => ?_
        fresh := fresh
        items := ?_
        checked := ?_
        revisions := ?_
        fts := ?_
        validations := ?_
        operations := ?_
        tombstones := ?_
        counters := ?_
        kept := evidence.kept
        added := evidence.added
        keptBlobs := fun blob hb => evidence.keptBlobs blob ((contents blob).mpr (.inl hb))
        addedBlobs := fun blob hb => ?_ }
      · rw [eq_of_key ho hi (own.trans same.symm)]
        exact not_not.mp next_
      · rw [rest]
        rfl
      · rw [rest] at checked
        exact checked
      · rw [rest]
        exact rows
      · rw [rest]
      · rw [rest]
      · rw [rest]
      · rw [rest]
      · rw [rest]
      · rcases evidence.addedBlobs blob hb with hb | hb
        · rcases (contents blob).mp hb with hb | rfl
          · exact .inl hb
          · exact .inr (.inl rfl)
        · exact .inr (.inr hb)

section Introduced

variable {operation : MemoryOperationEnvelope} {revision : MemoryRevision}

theorem Introduces.belongs (i : Introduces operation revision t u) :
    u.Belongs revision.revisionId operation.memoryId :=
  ⟨_, (i.revisions _).mpr (.inr rfl), rfl, rfl⟩

theorem Introduces.belongs_of (i : Introduces operation revision t u) (b : t.Belongs revisionId m) :
    u.Belongs revisionId m := by
  obtain ⟨rev, hr, same⟩ := b
  exact ⟨rev, (i.revisions rev).mpr (.inl hr), same⟩

theorem Introduces.numbered (i : Introduces operation revision t u) (k : MemoryKeys t)
    {item : MemoryItemRow} (hi : item ∈ t.items) (n : Nat) :
    (∃ rev ∈ u.revisions, rev.memoryId = item.memoryId ∧ rev.metadata.revision.get = n) ↔
      1 ≤ n ∧ n ≤ (alter (·.memoryId = operation.memoryId) revision.note item).latestRevision := by
  have before := k.numbered item hi n
  by_cases own : item.memoryId = operation.memoryId
  · have latest := i.next item hi own
    have after : (alter (·.memoryId = operation.memoryId) revision.note item).latestRevision =
        item.latestRevision + 1 := by
      rw [alter, if_pos (by simpa using own)]
      exact latest
    rw [after]
    constructor
    · rintro ⟨rev, hr, same, rfl⟩
      rcases (i.revisions rev).mp hr with hr | rfl
      · have := before.mp ⟨rev, hr, same, rfl⟩
        omega
      · have : (operation.introducedRow revision).metadata.revision.get = item.latestRevision + 1 :=
          latest
        omega
    · intro bound
      by_cases last : n = item.latestRevision + 1
      · exact ⟨_, (i.revisions _).mpr (.inr rfl), own.symm, latest.trans last.symm⟩
      · obtain ⟨rev, hr, same⟩ := before.mpr (by omega)
        exact ⟨rev, (i.revisions rev).mpr (.inl hr), same⟩
  · have after : alter (·.memoryId = operation.memoryId) revision.note item = item := by
      rw [alter, if_neg (by simpa using own)]
    rw [after, ← before]
    constructor
    · rintro ⟨rev, hr, same⟩
      rcases (i.revisions rev).mp hr with hr | rfl
      · exact ⟨rev, hr, same⟩
      · exact absurd same.1.symm own
    · rintro ⟨rev, hr, same⟩
      exact ⟨rev, (i.revisions rev).mpr (.inl hr), same⟩

theorem Introduces.number_ne (i : Introduces operation revision t u) (k : MemoryKeys t)
    {rev : MemoryRevisionRow} (hr : rev ∈ t.revisions) (memory : rev.memoryId = operation.memoryId) :
    rev.metadata.revision.get ≠ revision.revision.get := by
  obtain ⟨item, hi, same⟩ := k.owned rev hr
  have bound := (k.numbered item hi _).mp ⟨rev, hr, same.symm, rfl⟩
  have next := i.next item hi (same.trans memory)
  omega

theorem Introduces.keys (i : Introduces operation revision t u) (k : MemoryKeys t) :
    MemoryKeys u where
  owned rev hr := by
    rw [i.items]
    rcases (i.revisions rev).mp hr with hr | rfl
    · obtain ⟨item, hi, same⟩ := k.owned rev hr
      exact ⟨_, alter_mem_update hi, (alter_congr (fun _ => rfl) item).trans same⟩
    · obtain ⟨item, hi, same⟩ := i.known
      exact ⟨_, alter_mem_update hi, (alter_congr (fun _ => rfl) item).trans same⟩
  current item hu id active := by
    rw [i.items] at hu
    obtain ⟨old, hi, rfl⟩ := mem_update.mp hu
    have memory : (alter (·.memoryId = operation.memoryId) revision.note old).memoryId =
      old.memoryId := alter_congr (fun _ => rfl) old
    have same : (alter (·.memoryId = operation.memoryId) revision.note old).activeRevisionId =
      old.activeRevisionId := alter_congr (fun _ => rfl) old
    rw [memory]
    exact i.belongs_of (k.current old hi id (same ▸ active))
  latest item hu id last := by
    rw [i.items] at hu
    obtain ⟨old, hi, rfl⟩ := mem_update.mp hu
    by_cases own : old.memoryId = operation.memoryId
    · rw [alter, if_pos (by simpa using own)] at last ⊢
      cases last
      have same : (revision.note.apply old).memoryId = operation.memoryId := own
      rw [same]
      exact i.belongs
    · rw [alter, if_neg (by simpa using own)] at last ⊢
      exact i.belongs_of (k.latest old hi id last)
  named rev hr := by
    rcases (i.revisions rev).mp hr with hr | rfl
    · exact k.named rev hr
    · rfl
  content rev hr id stored := by
    rcases (i.revisions rev).mp hr with hr | rfl
    · exact k.content rev hr id stored
    · exact (Option.some.inj stored).symm
  excerpt row hr := by
    rcases i.added row hr with hr | ⟨-, named⟩
    · exact k.excerpt row hr
    · exact named
  attached row hr := by
    rcases i.added row hr with hr | ⟨same, -⟩
    · obtain ⟨rev, hr, same⟩ := k.attached row hr
      exact ⟨rev, (i.revisions rev).mpr (.inl hr), same⟩
    · exact ⟨_, (i.revisions _).mpr (.inr rfl), same.symm⟩
  indexed row hf := by
    rw [i.fts] at hf
    exact i.belongs_of (k.indexed row hf)
  numbered item hu n := by
    rw [i.items] at hu
    obtain ⟨old, hi, rfl⟩ := mem_update.mp hu
    have memory : (alter (·.memoryId = operation.memoryId) revision.note old).memoryId =
      old.memoryId := alter_congr (fun _ => rfl) old
    rw [memory]
    exact i.numbered k hi n
  distinct rev hr other ho memory number := by
    rcases (i.revisions rev).mp hr with hr | rfl <;> rcases (i.revisions other).mp ho with ho | rfl
    · exact k.distinct rev hr other ho memory number
    · exact absurd number (i.number_ne k hr memory)
    · exact absurd number.symm (i.number_ne k ho memory.symm)
    · rfl
  checked item hu := by
    rw [i.items] at hu
    obtain ⟨old, hi, rfl⟩ := mem_update.mp hu
    unfold alter
    split
    next same => exact i.checked old hi (by simpa using same)
    next => exact k.checked old hi

theorem Introduces.agree (i : Introduces operation revision t u) :
    AgreeOutside operation.memoryId t u where
  items item other := by
    rw [i.items]
    exact mem_update_of_ne (φ := MemoryItemRow.memoryId) (fun row _ same => by simpa using same)
      (fun _ => rfl) other
  revisions rev other := by
    rw [i.revisions]
    refine or_iff_left ?_
    rintro rfl
    exact other rfl
  fts row _ := by rw [i.fts]
  evidence rev hr _ row same := by
    refine ⟨fun hu => ?_, i.kept row⟩
    rcases i.added row hu with hu | ⟨own, -⟩
    · exact hu
    · exact absurd (same.symm.trans own) (i.fresh rev hr)
  content rev hr _ blob key := by
    refine ⟨fun hu => ?_, i.keptBlobs blob⟩
    rcases i.addedBlobs blob hu with hu | own | ⟨row, -, -, own, -⟩
    · exact hu
    · rw [key] at own
      exact absurd (ContentId.content.inj own) (i.fresh rev hr)
    · rw [key] at own
      cases own
  excerpts rev hr _ row he same blob key := by
    refine ⟨fun hu => ?_, i.keptBlobs blob⟩
    rcases i.addedBlobs blob hu with hu | own | ⟨other, ho, new, own, -⟩
    · exact hu
    · rw [key] at own
      cases own
    · rw [key] at own
      have shared : row = other := eq_of_key (i.kept row he) ho (ContentId.evidence.inj own)
      exact absurd (same.symm.trans ((congrArg _ shared).trans new)) (i.fresh rev hr)
  validations row hr := by rwa [i.validations]

theorem Introduces.soundFor (i : Introduces operation revision t u) (k : MemoryKeys t) :
    SoundFor operation.memoryId t u :=
  ⟨i.agree, i.keys k⟩

end Introduced

section Erasure

theorem mem_revisionIds : revisionId ∈ t.revisionIds m ↔ t.Belongs revisionId m := by
  simp only [revisionIds, List.mem_map, mem_select, decide_eq_true_eq, Belongs]
  exact exists_congr fun rev => by tauto

theorem mem_contentIds {id : ContentId} (h : id ∈ t.contentIds m) :
    (∃ rev ∈ t.revisions, rev.memoryId = m ∧ rev.contentId = some id) ∨
      ∃ row ∈ t.evidence, t.Belongs row.revisionId m ∧ row.excerptContentId = some id := by
  simp only [contentIds, List.mem_append, List.mem_filterMap, mem_select, decide_eq_true_eq,
    mem_revisionIds] at h
  rcases h with ⟨rev, ⟨hr, same⟩, key⟩ | ⟨row, ⟨hr, own⟩, key⟩
  · exact .inl ⟨rev, hr, same, key⟩
  · exact .inr ⟨row, hr, own, key⟩

theorem eraseContent_keys (k : MemoryKeys t) : MemoryKeys (t.eraseContent m) := by
  have revisions : MemoryKeys
      { t with revisions := t.revisions.update (·.memoryId = m) withoutContent } :=
    k.updateRevisions (fun _ => rfl) fun _ => .inr rfl
  refine { revisions with excerpt := ?_, attached := ?_, indexed := ?_ }
  · intro row hu id stored
    obtain ⟨old, hr, rfl⟩ := mem_update.mp hu
    unfold alter at stored ⊢
    split at stored
    next => cases stored
    next kept =>
      rw [if_neg kept]
      exact k.excerpt old hr id stored
  · intro row hu
    obtain ⟨old, hr, rfl⟩ := mem_update.mp hu
    have same : (alter (·.revisionId ∈ t.revisionIds m) withoutExcerpt old).revisionId =
      old.revisionId := alter_congr (fun _ => rfl) old
    rw [same]
    exact revisions.attached old hr
  · intro row hf
    exact revisions.indexed row (mem_delete.mp hf).1

theorem eraseContent_agree (k : MemoryKeys t) : AgreeOutside m t (t.eraseContent m) where
  items _ _ := Iff.rfl
  revisions rev other := mem_update_of_ne (φ := MemoryRevisionRow.memoryId)
    (fun row _ same => by simpa using same) (fun _ => rfl) other
  fts row other := mem_delete_of_ne (φ := MemoryFtsRow.memoryId)
    (fun row _ same => by simpa using same) other
  evidence rev hr other row same := by
    have foreign : row.revisionId ∉ t.revisionIds m := by
      rw [mem_revisionIds]
      intro b
      exact other (b.memory_eq hr same.symm)
    have kept : ∀ old : MemoryEvidenceRow, old.revisionId = row.revisionId →
        alter (·.revisionId ∈ t.revisionIds m) withoutExcerpt old = old := by
      intro old id
      rw [alter, if_neg (by simpa [id] using foreign)]
    constructor
    · intro hu
      obtain ⟨old, ho, rfl⟩ := mem_update.mp hu
      have id : (alter (·.revisionId ∈ t.revisionIds m) withoutExcerpt old).revisionId =
        old.revisionId := alter_congr (fun _ => rfl) old
      rwa [kept old id.symm]
    · intro hr
      exact mem_update.mpr ⟨row, hr, kept row rfl⟩
  content rev hr other blob key := by
    refine ⟨fun hu => (mem_delete.mp hu).1, fun hb => mem_delete.mpr ⟨hb, ?_⟩⟩
    rw [decide_eq_false_iff_not, key]
    intro erased
    rcases mem_contentIds erased with ⟨own, ho, same, stored⟩ | ⟨row, hr, -, stored⟩
    · have id := ContentId.content.inj (k.content own ho _ stored)
      exact other (eq_of_key hr ho id ▸ same)
    · cases k.excerpt row hr _ stored
  excerpts rev hr other row he same blob key := by
    refine ⟨fun hu => (mem_delete.mp hu).1, fun hb => mem_delete.mpr ⟨hb, ?_⟩⟩
    rw [decide_eq_false_iff_not, key]
    intro erased
    rcases mem_contentIds erased with ⟨own, ho, -, stored⟩ | ⟨shared, hs, own, stored⟩
    · cases k.content own ho _ stored
    · have id := ContentId.evidence.inj (k.excerpt shared hs _ stored)
      have shared := eq_of_key he hs id
      subst shared
      exact other (own.memory_eq hr same.symm)
  validations _ h := h

theorem soundFor_eraseContent (k : MemoryKeys t) : SoundFor m t (t.eraseContent m) :=
  ⟨eraseContent_agree k, eraseContent_keys k⟩

theorem belongs_eraseContent {n : MemoryId} :
    (t.eraseContent m).Belongs revisionId n ↔ t.Belongs revisionId n :=
  exists_mem_update (φ := MemoryRevisionRow.identity)
    (P := fun id => id.1 = revisionId ∧ id.2.1 = n) fun _ => rfl

theorem deleteMemoryContent_eq_ok (h : t.deleteMemoryContent m revisionId = .ok u) :
    ((t.eraseContent m).setState revisionId .deleted).updateItem m (retired .deleted) = .ok u := by
  unfold deleteMemoryContent at h
  obtain ⟨marked, h₁, h⟩ := bind_eq_ok_iff.mp h
  rwa [setRevisionState_eq_ok h₁] at h

theorem soundFor_delete (k : MemoryKeys t) (b : t.Belongs revisionId m)
    (h : t.deleteMemoryContent m revisionId = .ok u) : SoundFor m t u := by
  have first := soundFor_eraseContent (m := m) k
  have second : SoundFor m (t.eraseContent m) ((t.eraseContent m).setState revisionId .deleted) :=
    soundFor_setState first.keys (belongs_eraseContent.mpr b)
  exact (first.trans second).trans (soundFor_updateItem second.keys (deleteMemoryContent_eq_ok h)
    (fun _ => rfl) (by simp [retired]))

end Erasure

section Append

variable {codec : MemoryCodec} {entry : MemoryAppendOperation} {operation : MemoryOperationEnvelope}

/-- The planner introduces revisions as proposals only. -/
def MemoryOperationPayload.IntroducesProposal (payload : MemoryOperationPayload) : Prop :=
  ∀ revision, payload.introducedRevision = some revision → revision.status = .proposed

theorem insertValidation_eq_ok {row : MemoryValidationRow} (h : t.insertValidation codec row = .ok u) :
    ∃ validations, t.validations.insert? row = some validations ∧ u = { t with validations } := by
  unfold insertValidation at h
  split at h
  next => cases h
  next =>
    split at h
    next validations inserted => exact ⟨validations, inserted, (Except.ok.inj h).symm⟩
    next => cases h

theorem soundFor_insertValidation {row : MemoryValidationRow} (k : MemoryKeys t)
    (h : t.insertValidation codec row = .ok u) : SoundFor m t u := by
  obtain ⟨validations, inserted, rfl⟩ := insertValidation_eq_ok h
  have rows := (insert?_eq_some inserted).1
  exact ⟨{ AgreeOutside.refl m t with validations := fun other ho => (rows other).mpr (.inl ho) },
    { k with }⟩

theorem updateItemFromRevision_setState {state : MemoryRevisionStatus} (b : t.Belongs revisionId n)
    (h : (t.setState revisionId state).updateItemFromRevision m revisionId = .ok u) :
    (t.setState revisionId state).updateItem m (followed state) = .ok u := by
  obtain ⟨rev, hr, same, -⟩ := b
  have found : (t.setState revisionId state).revisions.find? revisionId = some { rev with state } := by
    refine find?_eq_some_iff.mpr ⟨mem_update.mpr ⟨rev, hr, ?_⟩, same⟩
    rw [alter, if_pos (by simpa using same)]
    rfl
  unfold updateItemFromRevision at h
  rw [found] at h
  exact h

theorem soundFor_followed {state : MemoryRevisionStatus} (k : MemoryKeys t)
    (h : t.updateItem m (followed state) = .ok u) : SoundFor m t u := by
  refine soundFor_updateItem k h (fun _ => rfl) fun item hi same id active => ?_
  exact same ▸ k.current item hi id active

/-- Everything an applied operation of a planned batch does to the tables. -/
inductive OperationEffect (codec : MemoryCodec) (entry : MemoryAppendOperation) (t : MemoryTables) :
    MemoryTables → Prop
  | introduced {revision u}
      (hp : entry.operation.payload.introducedRevision = some revision)
      (stored : Introduces entry.operation revision t u) : OperationEffect codec entry t u
  | approved {proposalId revision stored}
      (hp : entry.operation.payload = .proposalApproved proposalId revision)
      (required : t.HasState proposalId entry.operation.memoryId [.proposed])
      (introduced : Introduces entry.operation revision t stored) :
      OperationEffect codec entry t (stored.setState proposalId .superseded)
  | validated {validatedId validation u}
      (hp : entry.operation.payload = .revisionValidated validatedId validation)
      (stored : t.insertValidation codec
        ⟨entry.operation.operationId, validatedId, validation, entry.operation.occurredAt⟩ = .ok u)
      (required : t.HasState validatedId entry.operation.memoryId [.proposed, .active])
      (content : t.requireValidatedContent validatedId validation = .ok ()) :
      OperationEffect codec entry t u
  | activated {activatedId u} (hp : entry.operation.payload = .revisionActivated activatedId)
      (required : t.HasState activatedId entry.operation.memoryId [.proposed])
      (stored : t.activateRevision entry.operation.memoryId activatedId true = .ok u) :
      OperationEffect codec entry t u
  | superseded {supersededId byId}
      (hp : entry.operation.payload = .revisionSuperseded supersededId byId)
      (required : t.HasState supersededId entry.operation.memoryId [.active, .superseded])
      (successor : t.HasState byId entry.operation.memoryId [.active]) :
      OperationEffect codec entry t
        ((t.setState supersededId .superseded).removeRevisionFromFts supersededId)
  | rejected {rejectedId reason u}
      (hp : entry.operation.payload = .revisionRejected rejectedId reason)
      (required : t.HasState rejectedId entry.operation.memoryId [.proposed])
      (stored : (t.setState rejectedId .rejected).updateItem entry.operation.memoryId
        (followed .rejected) = .ok u) : OperationEffect codec entry t u
  | retracted {retractedId u} (hp : entry.operation.payload = .memoryRetracted retractedId)
      (required : t.HasState retractedId entry.operation.memoryId [.active])
      (stored : ((t.setState retractedId .retracted).removeRevisionFromFts retractedId).updateItem
        entry.operation.memoryId (retired .retracted) = .ok u) : OperationEffect codec entry t u
  | deleted {deletedId u} (hp : entry.operation.payload = .memoryDeleted deletedId)
      (required : t.HasState deletedId entry.operation.memoryId
        [.proposed, .active, .rejected, .retracted])
      (stored : t.deleteMemoryContent entry.operation.memoryId deletedId = .ok u) :
      OperationEffect codec entry t u

theorem applyOperation_effect (proposal : entry.operation.payload.IntroducesProposal)
    (h : t.applyOperation codec entry false = .ok u) : OperationEffect codec entry t u := by
  cases hp : entry.operation.payload with
  | memoryCreated scope memoryKind revision | revisionProposed revision | memoryRevised revision =>
    have introduced : entry.operation.payload.introducedRevision = some revision := by rw [hp]; rfl
    simp only [applyOperation, hp] at h
    exact .introduced introduced (insertRevision_introduces (proposal _ introduced) h)
  | proposalApproved proposalId revision =>
    have introduced : entry.operation.payload.introducedRevision = some revision := by rw [hp]; rfl
    simp only [applyOperation, hp] at h
    obtain ⟨_, required, h⟩ := bind_eq_ok_iff.mp h
    obtain ⟨stored, inserted, h⟩ := bind_eq_ok_iff.mp h
    cases setRevisionState_eq_ok h
    exact .approved hp (requireRevisionState_eq_ok required)
      (insertRevision_introduces (proposal _ introduced) inserted)
  | revisionValidated validatedId validation =>
    simp only [applyOperation, hp] at h
    obtain ⟨_, required, h⟩ := bind_eq_ok_iff.mp h
    obtain ⟨_, content, h⟩ := bind_eq_ok_iff.mp h
    exact .validated hp h (requireRevisionState_eq_ok required) content
  | revisionActivated activatedId =>
    simp only [applyOperation, hp] at h
    obtain ⟨_, required, h⟩ := bind_eq_ok_iff.mp h
    exact .activated hp (requireRevisionState_eq_ok required) h
  | revisionSuperseded supersededId byId =>
    simp only [applyOperation, hp] at h
    obtain ⟨_, required, h⟩ := bind_eq_ok_iff.mp h
    obtain ⟨_, successor, h⟩ := bind_eq_ok_iff.mp h
    obtain ⟨marked, h₁, h⟩ := bind_eq_ok_iff.mp h
    cases setRevisionState_eq_ok h₁
    cases Except.ok.inj h
    exact .superseded hp (requireRevisionState_eq_ok required) (requireRevisionState_eq_ok successor)
  | revisionRejected rejectedId reason =>
    simp only [applyOperation, hp] at h
    obtain ⟨_, required, h⟩ := bind_eq_ok_iff.mp h
    obtain ⟨marked, h₁, h⟩ := bind_eq_ok_iff.mp h
    rw [setRevisionState_eq_ok h₁] at h
    have known := requireRevisionState_eq_ok required
    exact .rejected hp known (updateItemFromRevision_setState known.belongs h)
  | memoryRetracted retractedId =>
    simp only [applyOperation, hp] at h
    obtain ⟨_, required, h⟩ := bind_eq_ok_iff.mp h
    obtain ⟨marked, h₁, h⟩ := bind_eq_ok_iff.mp h
    rw [setRevisionState_eq_ok h₁] at h
    exact .retracted hp (requireRevisionState_eq_ok required) h
  | memoryDeleted deletedId =>
    simp only [applyOperation, hp] at h
    obtain ⟨_, required, h⟩ := bind_eq_ok_iff.mp h
    exact .deleted hp (requireRevisionState_eq_ok required) h

theorem OperationEffect.soundFor (effect : OperationEffect codec entry t u) (k : MemoryKeys t) :
    SoundFor entry.operation.memoryId t u := by
  cases effect with
  | introduced _ stored => exact stored.soundFor k
  | approved _ required introduced =>
    have b := introduced.belongs_of required.belongs
    exact (introduced.soundFor k).trans (soundFor_setState (introduced.keys k) b)
  | validated _ stored => exact soundFor_insertValidation k stored
  | activated _ required stored => exact soundFor_activate k required.belongs stored
  | @superseded supersededId _ _ required _ =>
    have first : SoundFor _ t (t.setState supersededId .superseded) :=
      soundFor_setState k required.belongs
    exact first.trans
      (soundFor_removeRevisionFromFts first.keys (belongs_setState.mpr required.belongs))
  | @rejected rejectedId _ _ _ required stored =>
    have first : SoundFor _ t (t.setState rejectedId .rejected) :=
      soundFor_setState k required.belongs
    exact first.trans (soundFor_followed first.keys stored)
  | @retracted retractedId _ _ required stored =>
    have first : SoundFor _ t (t.setState retractedId .retracted) :=
      soundFor_setState k required.belongs
    have second :=
      soundFor_removeRevisionFromFts first.keys (belongs_setState.mpr required.belongs)
    exact (first.trans second).trans
      (soundFor_updateItem second.keys stored (fun _ => rfl) (by simp [retired]))
  | deleted _ required stored => exact soundFor_delete k required.belongs stored

end Append

end AutoHarness
