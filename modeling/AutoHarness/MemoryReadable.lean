import AutoHarness.MemoryLedger

namespace AutoHarness

open FallibleRun KeyedTable MemoryTables

variable {t u v : MemoryTables} {m n : MemoryId} {codec : FactCodec}
  {metadata : MemoryEvidenceMetadata} {row : MemoryEvidenceRow}

/-- The memory ends as deleted. -/
def MemoryTables.Deleted (t : MemoryTables) (m : MemoryId) : Prop :=
  ∃ item ∈ t.items, item.memoryId = m ∧ item.lifecycle = .deleted

/-- The columns of an evidence row that repeat the metadata of its revision. -/
structure Repeats (metadata : MemoryEvidenceMetadata) (row : MemoryEvidenceRow) : Prop where
  id : row.evidenceId = metadata.evidenceId
  source : row.source = metadata.source
  relation : row.relation = metadata.relation

/-- What may become of an excerpt: there is none, it is erased, or it is retained as hashed. -/
inductive ExcerptState (codec : FactCodec) (t : MemoryTables) (m : MemoryId)
    (metadata : MemoryEvidenceMetadata) (row : MemoryEvidenceRow) : Prop
  | absent (unhashed : metadata.excerptHash = none) (unstored : row.excerptContentId = none)
      (unindexed : row.excerptHash = none) (unmarked : row.erasedBy = none)
  | erased (hashed : metadata.excerptHash ≠ none) (unstored : row.excerptContentId = none)
      (unindexed : row.excerptHash = none) (cause : t.Deleted m ∨ row.erasedBy ≠ none)
  | retained {hash : Sha256Digest} {blob : MemoryContentBlob} {excerpt : MemoryEvidenceExcerpt}
      (hashed : metadata.excerptHash = some hash)
      (stored : row.excerptContentId = some (.evidence row.evidenceId))
      (indexed : row.excerptHash = some hash) (unmarked : row.erasedBy = none)
      (kept : blob ∈ t.blobs) (key : blob.contentId = .evidence row.evidenceId)
      (text : blob.content = excerpt.value) (sum : codec.sha256 (utf8Bytes excerpt.value) = hash)

/-- The ledger's validations and their rows. -/
structure Validated (t : MemoryTables) : Prop where
  recorded : ∀ operation ∈ t.operations, ∀ id validation,
    operation.payload = .revisionValidated id validation →
      operation.schemaVersion = memorySchemaV1 ∧
      (∃ rev ∈ t.revisions, rev.revisionId = id ∧ rev.memoryId = operation.memoryId ∧
        rev.metadata.contentHash = validation.contentHash) ∧
      ⟨operation.operationId, id, validation, operation.occurredAt⟩ ∈ t.validations
  projected : ∀ row ∈ t.validations, ∃ operation ∈ t.operations,
    operation.operationId = row.operationId ∧
      operation.payload = .revisionValidated row.revisionId row.validation

/-- The tables agree on the texts they retain. -/
structure Legible (codec : FactCodec) (t : MemoryTables) : Prop where
  contents : ∀ rev ∈ t.revisions, rev.contentId ≠ none → ∃ blob ∈ t.blobs,
    ∃ content : MemoryContent, blob.contentId = .content rev.revisionId ∧
      blob.content = content.value ∧
      normalizedContentHash codec content.value = rev.metadata.contentHash
  erased : ∀ rev ∈ t.revisions, rev.contentId = none → t.Deleted rev.memoryId
  evidence : ∀ row ∈ t.evidence, ∃ rev ∈ t.revisions, ∃ metadata,
    rev.revisionId = row.revisionId ∧ rev.metadata.evidence[row.ordinal]? = some metadata ∧
      Repeats metadata row ∧ ExcerptState codec t rev.memoryId metadata row
  complete : ∀ rev ∈ t.revisions, ∀ n < rev.metadata.evidence.length,
    ∃ row ∈ t.evidence, row.revisionId = rev.revisionId ∧ row.ordinal = n
  validated : Validated t

/-- A deleted memory has no revision that a command could go on with. -/
def Concluded (t : MemoryTables) : Prop :=
  ∀ m, t.Deleted m → ∀ rev ∈ t.revisions, rev.memoryId = m →
    rev.state ≠ .proposed ∧ rev.state ≠ .active

section Frame

theorem deleted_iff_of_agree (a : AgreeOutside m t u) (other : n ≠ m) : u.Deleted n ↔ t.Deleted n := by
  constructor
  · rintro ⟨item, hi, rfl, deleted⟩
    exact ⟨item, (a.items item other).mp hi, rfl, deleted⟩
  · rintro ⟨item, hi, rfl, deleted⟩
    exact ⟨item, (a.items item other).mpr hi, rfl, deleted⟩

theorem ExcerptState.mono (s : ExcerptState codec t m metadata row)
    (deleted : t.Deleted m → u.Deleted m)
    (blobs : ∀ blob ∈ t.blobs, blob.contentId = .evidence row.evidenceId →
      row.excerptContentId = some blob.contentId → blob ∈ u.blobs) :
    ExcerptState codec u m metadata row := by
  cases s with
  | absent unhashed unstored unindexed unmarked =>
    exact .absent unhashed unstored unindexed unmarked
  | erased hashed unstored unindexed cause =>
    exact .erased hashed unstored unindexed (cause.imp_left deleted)
  | retained hashed stored indexed unmarked kept key text sum =>
    exact .retained hashed stored indexed unmarked (blobs _ kept key (key ▸ stored)) key text sum

/-- A revision without its state. -/
def MemoryRevisionRow.record (row : MemoryRevisionRow) :
    MemoryRevisionId × MemoryId × Option ContentId × MemoryRevision :=
  (row.revisionId, row.memoryId, row.contentId, row.metadata)

/-- Only states and items change. -/
structure KeepsRecords (t u : MemoryTables) : Prop where
  blobs : u.blobs = t.blobs
  evidence : u.evidence = t.evidence
  operations : u.operations = t.operations
  validations : u.validations = t.validations
  records : ∀ r, (∃ rev ∈ u.revisions, rev.record = r) ↔ ∃ rev ∈ t.revisions, rev.record = r

namespace KeepsRecords

theorem refl (t : MemoryTables) : KeepsRecords t t := ⟨rfl, rfl, rfl, rfl, fun _ => Iff.rfl⟩

theorem trans (a : KeepsRecords t u) (b : KeepsRecords u v) : KeepsRecords t v where
  blobs := b.blobs.trans a.blobs
  evidence := b.evidence.trans a.evidence
  operations := b.operations.trans a.operations
  validations := b.validations.trans a.validations
  records r := (b.records r).trans (a.records r)

theorem old (k : KeepsRecords t u) {rev : MemoryRevisionRow} (hr : rev ∈ u.revisions) :
    ∃ old ∈ t.revisions, old.revisionId = rev.revisionId ∧ old.memoryId = rev.memoryId ∧
      old.contentId = rev.contentId ∧ old.metadata = rev.metadata := by
  obtain ⟨old, ho, same⟩ := (k.records _).mp ⟨rev, hr, rfl⟩
  simp only [MemoryRevisionRow.record, Prod.mk.injEq] at same
  exact ⟨old, ho, same⟩

theorem new (k : KeepsRecords t u) {rev : MemoryRevisionRow} (hr : rev ∈ t.revisions) :
    ∃ new ∈ u.revisions, new.revisionId = rev.revisionId ∧ new.memoryId = rev.memoryId ∧
      new.contentId = rev.contentId ∧ new.metadata = rev.metadata := by
  obtain ⟨new, hn, same⟩ := (k.records _).mpr ⟨rev, hr, rfl⟩
  simp only [MemoryRevisionRow.record, Prod.mk.injEq] at same
  exact ⟨new, hn, same⟩

theorem update {p : MemoryRevisionRow → Bool} {state : MemoryRevisionStatus} :
    KeepsRecords t { t with revisions := t.revisions.update p (withState state) } :=
  { refl t with
    records := fun r => exists_mem_update (φ := MemoryRevisionRow.record) (P := (· = r)) fun _ => rfl }

theorem setState {revisionId : MemoryRevisionId} {state : MemoryRevisionStatus} :
    KeepsRecords t (t.setState revisionId state) := update

theorem updateItem {f : RowMap MemoryItemRow.memoryId} (h : t.updateItem m f = .ok u) :
    KeepsRecords t u := by
  obtain ⟨rfl, -⟩ := updateItem_eq_ok h
  exact { refl t with }

theorem activate {revisionId : MemoryRevisionId} (h : t.activateRevision m revisionId true = .ok u) :
    KeepsRecords t u := by
  obtain ⟨cleared, indexed, h₁, h₂, h₃⟩ := activateRevision_eq_ok h
  have first : KeepsRecords t cleared := by
    obtain ⟨item, -, -, ⟨rfl, -⟩ | ⟨current, -, -, rfl⟩⟩ := deactivateCurrentRevision_eq_ok h₁
    · exact refl _
    · have marked : KeepsRecords t (t.setState current .superseded) := setState
      exact { marked with }
  have second : KeepsRecords cleared indexed := by
    have marked : KeepsRecords cleared (cleared.setState revisionId .active) := setState
    obtain ⟨-, -, -, -, fts, -, -, -, rfl⟩ := addRevisionToFts_eq_ok h₂
    exact { marked with }
  exact (first.trans second).trans (updateItem h₃)

end KeepsRecords

theorem Validated.keep (w : Validated t) (k : KeepsRecords t u) : Validated u where
  recorded operation ho id validation hp := by
    rw [k.operations] at ho
    rw [k.validations]
    obtain ⟨schema, ⟨rev, hr, named, own, hash⟩, projected⟩ := w.recorded operation ho id validation hp
    obtain ⟨new, hn, named', own', -, metadata⟩ := k.new hr
    exact ⟨schema, ⟨new, hn, named'.trans named, own'.trans own, by rw [metadata, hash]⟩, projected⟩
  projected row hv := by
    rw [k.validations] at hv
    rw [k.operations]
    exact w.projected row hv

/-- Writes to the states and the item of a memory that is not deleted before or after. -/
theorem Legible.keep (l : Legible codec t) (k : KeepsRecords t u)
    (deleted : ∀ m, t.Deleted m → u.Deleted m) : Legible codec u where
  contents rev hu stored := by
    obtain ⟨old, ht, named, -, same, metadata⟩ := k.old hu
    rw [k.blobs, ← named, ← metadata]
    exact l.contents old ht (same ▸ stored)
  erased rev hu unstored := by
    obtain ⟨old, ht, -, own, same, -⟩ := k.old hu
    exact own ▸ deleted _ (l.erased old ht (same ▸ unstored))
  evidence row he := by
    rw [k.evidence] at he
    obtain ⟨rev, hr, metadata, named, listed, repeats, state⟩ := l.evidence row he
    obtain ⟨new, hn, named', own, -, same⟩ := k.new hr
    refine ⟨new, hn, metadata, named'.trans named, by rw [same, listed], repeats, ?_⟩
    rw [own]
    exact state.mono (deleted _) fun blob hb _ _ => k.blobs ▸ hb
  complete rev hu n small := by
    obtain ⟨old, ht, named, -, -, metadata⟩ := k.old hu
    rw [k.evidence, ← named]
    exact l.complete old ht n (metadata ▸ small)
  validated := l.validated.keep k

end Frame

section Introduce

variable {revisionId : MemoryRevisionId} {sidecars : List MemoryEvidenceContent}
  {operation : MemoryOperationEnvelope} {revision : MemoryRevision} {content : MemoryRevisionContent}

/-- The row that one evidence record brings. -/
def evidenceRow (revisionId : MemoryRevisionId) (sidecars : List MemoryEvidenceContent)
    (entry : MemoryEvidenceMetadata × Nat) : MemoryEvidenceRow where
  revisionId := revisionId
  ordinal := entry.2
  evidenceId := entry.1.evidenceId
  source := entry.1.source
  relation := entry.1.relation
  excerptContentId := (sidecars.find? (·.evidenceId = entry.1.evidenceId)).map fun _ =>
    .evidence entry.1.evidenceId
  excerptHash := entry.1.excerptHash
  erasedBy := none

/-- The text that one evidence record brings. -/
def excerptBlob (sidecars : List MemoryEvidenceContent) (metadata : MemoryEvidenceMetadata) :
    Option MemoryContentBlob :=
  (sidecars.find? (·.evidenceId = metadata.evidenceId)).map fun sidecar =>
    ⟨.evidence metadata.evidenceId, sidecar.excerpt.value⟩

/-- Exactly the given evidence is added, with its texts. -/
structure EvidenceStored (revisionId : MemoryRevisionId) (sidecars : List MemoryEvidenceContent)
    (entries : List (MemoryEvidenceMetadata × Nat)) (t u : MemoryTables) : Prop where
  evidence : ∀ row, row ∈ u.evidence ↔
    row ∈ t.evidence ∨ ∃ entry ∈ entries, row = evidenceRow revisionId sidecars entry
  blobs : ∀ blob, blob ∈ u.blobs ↔
    blob ∈ t.blobs ∨ ∃ entry ∈ entries, excerptBlob sidecars entry.1 = some blob
  fresh : ∀ entry ∈ entries, ∀ row ∈ t.evidence, row.evidenceId ≠ entry.1.evidenceId
  distinct : (entries.map (·.1.evidenceId)).Nodup

theorem insertEvidence_stored {entry : MemoryEvidenceMetadata × Nat}
    (h : insertEvidence revisionId sidecars t entry = .ok u) :
    EvidenceStored revisionId sidecars [entry] t u := by
  unfold insertEvidence at h
  obtain ⟨stored, excerpted, h⟩ := bind_eq_ok_iff.mp h
  have brought : stored.1.evidence = t.evidence ∧
      stored.2 = (evidenceRow revisionId sidecars entry).excerptContentId ∧
      ∀ blob, blob ∈ stored.1.blobs ↔ blob ∈ t.blobs ∨ excerptBlob sidecars entry.1 = some blob := by
    unfold insertExcerpt at excerpted
    split at excerpted
    next absent =>
      cases Except.ok.inj excerpted
      simp [evidenceRow, excerptBlob, absent]
    next sidecar found =>
      split at excerpted
      next => cases excerpted
      next =>
        obtain ⟨_, inserted, excerpted⟩ := bind_eq_ok_iff.mp excerpted
        obtain ⟨blobs, added, rfl⟩ := insertBlob_eq_ok inserted
        cases Except.ok.inj excerpted
        refine ⟨rfl, by simp [evidenceRow, found], fun blob => ?_⟩
        rw [(insert?_eq_some added).1 blob, excerptBlob, found, Option.map_some, Option.some.injEq]
        exact or_congr_right eq_comm
  obtain ⟨kept, key, texts⟩ := brought
  split at h
  next evidence inserted =>
    cases Except.ok.inj h
    rw [kept, key] at inserted
    obtain ⟨rows, fresh⟩ := insert?_eq_some inserted
    refine ⟨fun row => ?_, fun blob => by simpa using texts blob, by simpa using fresh, by simp⟩
    simp only [List.mem_singleton, exists_eq_left]
    exact rows row
  next => cases h

theorem EvidenceStored.cons {entry : MemoryEvidenceMetadata × Nat}
    {rest : List (MemoryEvidenceMetadata × Nat)}
    (a : EvidenceStored revisionId sidecars [entry] t u)
    (b : EvidenceStored revisionId sidecars rest u v) :
    EvidenceStored revisionId sidecars (entry :: rest) t v where
  evidence row := by
    rw [b.evidence, a.evidence]
    simp [or_assoc]
  blobs blob := by
    rw [b.blobs, a.blobs]
    simp [or_assoc]
  fresh other ho row hr := by
    rcases List.mem_cons.mp ho with rfl | ho
    · exact a.fresh other (by simp) row hr
    · exact b.fresh other ho row ((a.evidence row).mpr (.inl hr))
  distinct := by
    refine List.nodup_cons.mpr ⟨fun listed => ?_, b.distinct⟩
    obtain ⟨other, ho, same⟩ := List.mem_map.mp listed
    exact b.fresh other ho _ ((a.evidence _).mpr (.inr ⟨entry, by simp, rfl⟩)) same.symm

theorem insertEvidence_run {entries : List (MemoryEvidenceMetadata × Nat)}
    (h : entries.foldlM (insertEvidence revisionId sidecars) t = .ok u) :
    EvidenceStored revisionId sidecars entries t u := by
  induction entries generalizing t with
  | nil =>
    cases Except.ok.inj h
    exact ⟨by simp, by simp, by simp, by simp⟩
  | cons entry rest ih =>
    rw [List.foldlM_cons] at h
    obtain ⟨next, first, h⟩ := bind_eq_ok_iff.mp h
    exact (insertEvidence_stored first).cons (ih h)

/-- The texts of a stored revision. -/
theorem insertRevision_texts (proposed : revision.status = .proposed)
    (h : t.insertRevision operation revision (some content) = .ok u) :
    (∀ row, row ∈ u.evidence ↔ row ∈ t.evidence ∨
      ∃ entry ∈ revision.evidence.zipIdx, row = evidenceRow revision.revisionId content.evidence entry) ∧
    (∀ blob, blob ∈ u.blobs ↔
      (blob ∈ t.blobs ∨ blob = ⟨.content revision.revisionId, content.content.value⟩) ∨
        ∃ entry ∈ revision.evidence.zipIdx, excerptBlob content.evidence entry.1 = some blob) ∧
    (revision.evidence.map (·.evidenceId)).Nodup := by
  unfold insertRevision at h
  split at h
  next => cases h
  next => cases h
  next brought item same found =>
    cases Option.some.inj same
    split at h
    next => cases h
    next =>
      obtain ⟨_, inserted, h⟩ := bind_eq_ok_iff.mp h
      obtain ⟨blobs, stored, rfl⟩ := insertBlob_eq_ok inserted
      obtain ⟨_, insertedRow, h⟩ := bind_eq_ok_iff.mp h
      obtain ⟨revisions, -, rfl⟩ := insertRevisionRow_eq_ok insertedRow
      obtain ⟨attached, folded, h⟩ := bind_eq_ok_iff.mp h
      rw [applyRevisionProjection, if_neg (by simp [proposed])] at h
      obtain ⟨rfl, -⟩ := updateItem_eq_ok h
      have rows := insertEvidence_run folded
      have texts := (insert?_eq_some stored).1
      refine ⟨rows.evidence, fun blob => ?_, ?_⟩
      · rw [← texts blob]
        exact rows.blobs blob
      · have distinct := rows.distinct
        have ids : revision.evidence.zipIdx.map (fun entry => entry.1.evidenceId) =
            (revision.evidence.zipIdx.map Prod.fst).map (·.evidenceId) := by
          rw [List.map_map]
          rfl
        rwa [ids, List.zipIdx_map_fst] at distinct

/-- A sidecar brings an excerpt exactly for the evidence that has a hash of one. -/
def SidecarMatches (codec : FactCodec) (sidecars : List MemoryEvidenceContent)
    (metadata : MemoryEvidenceMetadata) : Prop :=
  (metadata.excerptHash = none ∧ sidecars.find? (·.evidenceId = metadata.evidenceId) = none) ∨
    ∃ sidecar, sidecars.find? (·.evidenceId = metadata.evidenceId) = some sidecar ∧
      metadata.excerptHash = some (codec.sha256 (utf8Bytes sidecar.excerpt.value))

theorem find?_erase_of_ne {id : MemoryEvidenceId} {sidecar : MemoryEvidenceContent}
    (other : sidecar.evidenceId ≠ id) :
    (sidecars.erase sidecar).find? (·.evidenceId = id) = sidecars.find? (·.evidenceId = id) := by
  induction sidecars with
  | nil => rfl
  | cons first rest ih =>
    by_cases same : first = sidecar
    · subst same
      rw [List.erase_cons_head, List.find?_cons_of_neg (by simpa using other)]
    · rw [List.erase_cons_tail (by simpa using same), List.find?_cons, List.find?_cons, ih]

theorem matchExcerpts_cons {rest : List MemoryEvidenceMetadata} :
    matchExcerpts codec sidecars (metadata :: rest) =
      match metadata.excerptHash, sidecars.find? (·.evidenceId = metadata.evidenceId) with
      | none, none => matchExcerpts codec sidecars rest
      | some hash, some sidecar =>
        if codec.sha256 (utf8Bytes sidecar.excerpt.value) = hash then
          matchExcerpts codec (sidecars.erase sidecar) rest
        else .error .invalidMemoryTransition
      | _, _ => .error .invalidMemoryTransition := by
  cases sidecars <;> rfl

theorem sidecarMatches_of_match {evidence : List MemoryEvidenceMetadata}
    (distinct : (evidence.map (·.evidenceId)).Nodup)
    (h : matchExcerpts codec sidecars evidence = .ok ()) :
    ∀ metadata ∈ evidence, SidecarMatches codec sidecars metadata := by
  induction evidence generalizing sidecars with
  | nil => simp
  | cons first rest ih =>
    obtain ⟨apart, distinct⟩ := List.nodup_cons.mp distinct
    have step : (first.excerptHash = none ∧
        sidecars.find? (·.evidenceId = first.evidenceId) = none ∧
        matchExcerpts codec sidecars rest = .ok ()) ∨
      ∃ sidecar, sidecars.find? (·.evidenceId = first.evidenceId) = some sidecar ∧
        first.excerptHash = some (codec.sha256 (utf8Bytes sidecar.excerpt.value)) ∧
        matchExcerpts codec (sidecars.erase sidecar) rest = .ok () := by
      rw [matchExcerpts_cons] at h
      split at h
      next unhashed absent => exact .inl ⟨unhashed, absent, h⟩
      next hash sidecar hashed found =>
        split at h
        next sum => exact .inr ⟨sidecar, found, by rw [hashed, sum], h⟩
        next => cases h
      next => cases h
    rcases step with ⟨unhashed, absent, later⟩ | ⟨sidecar, found, hashed, later⟩
    · intro metadata hm
      rcases List.mem_cons.mp hm with rfl | hm
      · exact .inl ⟨unhashed, absent⟩
      · exact ih distinct later metadata hm
    · intro metadata hm
      rcases List.mem_cons.mp hm with rfl | hm
      · exact .inr ⟨sidecar, found, hashed⟩
      · have named : sidecar.evidenceId = first.evidenceId := by simpa using List.find?_some found
        have other : sidecar.evidenceId ≠ metadata.evidenceId := by
          rw [named]
          intro same
          exact apart (List.mem_map.mpr ⟨metadata, hm, same.symm⟩)
        have matched := ih distinct later metadata hm
        unfold SidecarMatches at matched ⊢
        rwa [find?_erase_of_ne other] at matched

/-- What the store has checked of the contents that come with a revision. -/
theorem validateContentSidecar_eq_ok {entry : MemoryAppendOperation}
    (hp : entry.operation.payload.introducedRevision = some revision)
    (h : validateContentSidecar codec entry = .ok ()) : ∃ content, entry.content = some content ∧
      normalizedContentHash codec content.content.value = revision.contentHash ∧
      matchExcerpts codec content.evidence revision.evidence = .ok () := by
  unfold validateContentSidecar at h
  rw [hp] at h
  cases found : entry.content with
  | none =>
    rw [found] at h
    cases h
  | some content =>
    rw [found] at h
    dsimp only at h
    split at h
    next => cases h
    next checked =>
      split at h
      next => cases h
      next =>
        simp only [not_or, not_not] at checked
        exact ⟨content, rfl, checked.2.2, h⟩

theorem excerptState_evidenceRow {entry : MemoryEvidenceMetadata × Nat}
    (matched : SidecarMatches codec sidecars entry.1)
    (stored : ∀ blob, excerptBlob sidecars entry.1 = some blob → blob ∈ u.blobs) :
    ExcerptState codec u m entry.1 (evidenceRow revisionId sidecars entry) := by
  rcases matched with ⟨unhashed, absent⟩ | ⟨sidecar, found, hashed⟩
  · exact .absent unhashed (by simp [evidenceRow, absent]) unhashed rfl
  · exact .retained hashed (by simp [evidenceRow, found]) hashed rfl
      (stored ⟨.evidence entry.1.evidenceId, sidecar.excerpt.value⟩ (by simp [excerptBlob, found]))
      rfl rfl rfl

theorem Introduces.deleted (i : Introduces operation revision t u)
    (proposed : revision.status = .proposed) : ¬ u.Deleted operation.memoryId := by
  rintro ⟨item, hu, own, deleted⟩
  rw [i.items] at hu
  obtain ⟨old, hi, rfl⟩ := mem_update.mp hu
  have mine : old.memoryId = operation.memoryId :=
    (alter_congr revision.note.keeps old).symm.trans own
  rw [alter, if_pos (by simpa using mine)] at deleted
  simp only [MemoryRevision.note, RowMap.comp, withLatest, followed, proposed,
    Function.comp_apply] at deleted
  split at deleted <;> cases deleted

/-- A revision is stored with the contents that the store has checked. -/
theorem Legible.introduce (l : Legible codec t) (live : ¬ t.Deleted operation.memoryId)
    (proposed : revision.status = .proposed)
    (hash : normalizedContentHash codec content.content.value = revision.contentHash)
    (matched : matchExcerpts codec content.evidence revision.evidence = .ok ())
    (h : t.insertRevision operation revision (some content) = .ok u) : Legible codec u := by
  have i := insertRevision_introduces proposed h
  obtain ⟨rows, texts, distinct⟩ := insertRevision_texts proposed h
  have sidecars := sidecarMatches_of_match distinct matched
  have deleted : ∀ n, t.Deleted n → u.Deleted n := by
    intro n gone
    refine (deleted_iff_of_agree i.agree ?_).mpr gone
    rintro rfl
    exact live gone
  refine ⟨fun rev hr stored => ?_, fun rev hr unstored => ?_, fun row hr => ?_,
    fun rev hr n small => ?_, fun operation ho id validation hp => ?_, fun row hv => ?_⟩
  · rcases (i.revisions rev).mp hr with hr | rfl
    · obtain ⟨blob, hb, same⟩ := l.contents rev hr stored
      exact ⟨blob, i.keptBlobs blob hb, same⟩
    · exact ⟨_, (texts _).mpr (.inl (.inr rfl)), content.content, rfl, rfl, hash⟩
  · rcases (i.revisions rev).mp hr with hr | rfl
    · exact deleted _ (l.erased rev hr unstored)
    · cases unstored
  · rcases (rows row).mp hr with hr | ⟨entry, he, rfl⟩
    · obtain ⟨rev, hr, metadata, named, listed, repeats, state⟩ := l.evidence row hr
      exact ⟨rev, (i.revisions rev).mpr (.inl hr), metadata, named, listed, repeats,
        state.mono (deleted _) fun blob hb _ _ => i.keptBlobs blob hb⟩
    · have listed : revision.evidence[entry.2]? = some entry.1 := List.mem_zipIdx_iff_getElem?.mp he
      refine ⟨_, (i.revisions _).mpr (.inr rfl), entry.1, rfl, listed, ⟨rfl, rfl, rfl⟩, ?_⟩
      refine excerptState_evidenceRow (sidecars entry.1 (List.mem_of_getElem? listed)) ?_
      intro blob brought
      exact (texts blob).mpr (.inr ⟨entry, he, brought⟩)
  · rcases (i.revisions rev).mp hr with hr | rfl
    · obtain ⟨row, hm, same⟩ := l.complete rev hr n small
      exact ⟨row, i.kept row hm, same⟩
    · have listed : (revision.evidence[n], n) ∈ revision.evidence.zipIdx :=
        List.mem_zipIdx_iff_getElem?.mpr (List.getElem?_eq_getElem small)
      exact ⟨_, (rows _).mpr (.inr ⟨_, listed, rfl⟩), rfl, rfl⟩
  · rw [i.operations] at ho
    rw [i.validations]
    obtain ⟨schema, ⟨rev, hr, same⟩, projected⟩ := l.validated.recorded operation ho id validation hp
    exact ⟨schema, ⟨rev, (i.revisions rev).mpr (.inl hr), same⟩, projected⟩
  · rw [i.validations] at hv
    rw [i.operations]
    exact l.validated.projected row hv

end Introduce

end AutoHarness
