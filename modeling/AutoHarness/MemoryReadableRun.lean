import AutoHarness.MemoryReadable

namespace AutoHarness

open FallibleRun KeyedTable MemoryTables

variable {t u v : MemoryTables} {m n : MemoryId} {codec : MemoryCodec}
  {entry : MemoryAppendOperation} {operation : MemoryOperationEnvelope}
  {operations : List MemoryAppendOperation} {command : MemoryCommandEnvelope}

section Append

theorem deleted_advanceItem : (t.advanceItem operation).Deleted n ↔ t.Deleted n :=
  exists_mem_update (φ := fun item : MemoryItemRow => (item.memoryId, item.lifecycle))
    (P := fun columns => columns.1 = n ∧ columns.2 = .deleted) fun _ => rfl

theorem not_deleted_updateItem {f : RowMap MemoryItemRow.memoryId}
    (h : t.updateItem m f = .ok u) (live : ∀ item, (f.apply item).lifecycle ≠ .deleted) :
    ¬ u.Deleted m := by
  obtain ⟨rfl, -⟩ := updateItem_eq_ok h
  rintro ⟨item, hu, own, deleted⟩
  obtain ⟨old, hi, rfl⟩ := mem_update.mp hu
  have mine : old.memoryId = m := (alter_congr f.keeps old).symm.trans own
  rw [alter, if_pos (by simpa using mine)] at deleted
  exact live old deleted

theorem Legible.record {rows : KeyedTable MemoryOperationEnvelope.operationId}
    (l : Legible codec.toFactCodec t)
    (plain : ∀ id validation, operation.payload ≠ .revisionValidated id validation)
    (inserted : t.operations.insert? operation = some rows) :
    Legible codec.toFactCodec { t with operations := rows } := by
  have listed := (insert?_eq_some inserted).1
  refine ⟨l.contents, l.erased, fun row hr => ?_, l.complete, ?_, fun row hv => ?_⟩
  · obtain ⟨rev, hr, metadata, named, found, repeats, state⟩ := l.evidence row hr
    exact ⟨rev, hr, metadata, named, found, repeats, state.mono id fun _ hb _ _ => hb⟩
  · intro other ho id validation hp
    rcases (listed other).mp ho with ho | rfl
    · exact l.validated.recorded other ho id validation hp
    · exact absurd hp (plain id validation)
  · obtain ⟨other, ho, same⟩ := l.validated.projected row hv
    exact ⟨other, (listed other).mpr (.inl ho), same⟩

theorem requireValidatedContent_eq_ok {revisionId : MemoryRevisionId} {x : Unit}
    {validation : MemoryValidationResult}
    (h : t.requireValidatedContent revisionId validation = .ok x) : ∀ rev ∈ t.revisions,
      rev.revisionId = revisionId → rev.metadata.contentHash = validation.contentHash := by
  intro rev hr same
  have found : t.revisions.find? revisionId = some rev := find?_eq_some_iff.mpr ⟨hr, same⟩
  unfold requireValidatedContent at h
  rw [found] at h
  dsimp only at h
  split at h
  next equal => exact equal
  next => cases h

/-- A validation enters the ledger together with its row. -/
theorem Legible.validate {revisionId : MemoryRevisionId} {validation : MemoryValidationResult}
    {rows : KeyedTable MemoryOperationEnvelope.operationId}
    {validations : KeyedTable MemoryValidationRow.operationId} (l : Legible codec.toFactCodec t)
    (hp : operation.payload = .revisionValidated revisionId validation)
    (schema : operation.schemaVersion = memorySchemaV1)
    (known : t.Belongs revisionId operation.memoryId)
    (hash : ∀ rev ∈ t.revisions, rev.revisionId = revisionId →
      rev.metadata.contentHash = validation.contentHash)
    (inserted : t.operations.insert? operation = some rows)
    (projected : t.validations.insert?
      ⟨operation.operationId, revisionId, validation, operation.occurredAt⟩ = some validations) :
    Legible codec.toFactCodec { t with operations := rows, validations } := by
  have listed := (insert?_eq_some inserted).1
  have added := (insert?_eq_some projected).1
  refine ⟨l.contents, l.erased, fun row hr => ?_, l.complete, ?_, fun row hv => ?_⟩
  · obtain ⟨rev, hr, metadata, named, found, repeats, state⟩ := l.evidence row hr
    exact ⟨rev, hr, metadata, named, found, repeats, state.mono id fun _ hb _ _ => hb⟩
  · intro other ho id result hp'
    rcases (listed other).mp ho with ho | rfl
    · obtain ⟨version, owner, row⟩ := l.validated.recorded other ho id result hp'
      exact ⟨version, owner, (added _).mpr (.inl row)⟩
    · cases hp.symm.trans hp'
      obtain ⟨rev, hr, same, own⟩ := known
      exact ⟨schema, ⟨rev, hr, same, own, hash rev hr same⟩, (added _).mpr (.inr rfl)⟩
  · rcases (added row).mp hv with hv | rfl
    · obtain ⟨other, ho, same⟩ := l.validated.projected row hv
      exact ⟨other, (listed other).mpr (.inl ho), same⟩
    · exact ⟨operation, (listed operation).mpr (.inr rfl), rfl, hp⟩

/-- An operation other than a deletion leaves its memory open. -/
theorem OperationEffect.open_ (effect : OperationEffect codec entry t u)
    (proposal : entry.operation.payload.IntroducesProposal)
    (kept : ∀ id, entry.operation.payload ≠ .memoryDeleted id)
    (live : ¬ t.Deleted entry.operation.memoryId) : ¬ u.Deleted entry.operation.memoryId := by
  cases effect with
  | introduced hp stored => exact stored.deleted (proposal _ hp)
  | approved hp _ introduced => exact introduced.deleted (proposal _ (by rw [hp]; rfl))
  | validated _ stored =>
    obtain ⟨validations, -, rfl⟩ := insertValidation_eq_ok stored
    exact live
  | activated _ _ stored =>
    obtain ⟨cleared, indexed, -, -, h₃⟩ := activateRevision_eq_ok stored
    refine not_deleted_updateItem h₃ fun item => ?_
    simp [AutoHarness.activated]
  | superseded => exact live
  | rejected _ _ stored =>
    refine not_deleted_updateItem stored fun item => ?_
    simp only [followed]
    split <;> simp
  | retracted _ _ stored =>
    refine not_deleted_updateItem stored fun item => ?_
    simp [retired]
  | deleted hp => exact absurd hp (kept _)

/-- The states and items that an operation changes leave the texts alone. -/
theorem OperationEffect.keepsRecords (effect : OperationEffect codec entry t u)
    (plain : entry.operation.payload.introducedRevision = none)
    (unvalidated : ∀ id validation, entry.operation.payload ≠ .revisionValidated id validation)
    (kept : ∀ id, entry.operation.payload ≠ .memoryDeleted id) : KeepsRecords t u := by
  cases effect with
  | introduced hp =>
    rw [hp] at plain
    cases plain
  | approved hp =>
    rw [hp] at plain
    cases plain
  | validated hp => exact absurd hp (unvalidated _ _)
  | activated _ _ stored => exact .activate stored
  | @superseded supersededId =>
    have marked : KeepsRecords t (t.setState supersededId .superseded) := .setState
    exact { marked with }
  | rejected _ _ stored => exact KeepsRecords.setState.trans (.updateItem stored)
  | @retracted retractedId _ _ _ stored =>
    have marked : KeepsRecords t (t.setState retractedId .retracted) := .setState
    have first : KeepsRecords t
        ((t.setState retractedId .retracted).removeRevisionFromFts retractedId) :=
      { marked with }
    exact first.trans (.updateItem stored)
  | deleted hp => exact absurd hp (kept _)

/-- One operation of a batch, unless it deletes, keeps the texts legible and its memory open. -/
theorem Legible.append (l : Legible codec.toFactCodec t) (k : MemoryKeys t)
    (live : ¬ t.Deleted entry.operation.memoryId)
    (schema : entry.operation.schemaVersion = memorySchemaV1)
    (checked : validateContentSidecar codec.toFactCodec entry = .ok ())
    (proposal : entry.operation.payload.IntroducesProposal)
    (kept : ∀ id, entry.operation.payload ≠ .memoryDeleted id)
    (h : appendOperation codec t entry = .ok u) :
    Legible codec.toFactCodec u ∧ ¬ u.Deleted entry.operation.memoryId := by
  obtain ⟨rows, applied, inserted, ran, rfl⟩ := appendOperation_eq_ok h
  have effect := applyOperation_effect proposal ran
  have opened : ¬ applied.Deleted entry.operation.memoryId := effect.open_ proposal kept live
  have sound := effect.soundFor (t := { t with operations := rows }) { k with }
  have deleted : ∀ n, ({ t with operations := rows } : MemoryTables).Deleted n → applied.Deleted n := by
    intro n gone
    refine (deleted_iff_of_agree sound.agree ?_).mpr gone
    rintro rfl
    exact live gone
  refine ⟨?_, fun gone => opened (deleted_advanceItem.mp gone)⟩
  have legible : Legible codec.toFactCodec applied := by
    cases hp : entry.operation.payload with
    | revisionValidated id validation =>
      cases effect with
      | validated hp' stored required content =>
        cases hp.symm.trans hp'
        obtain ⟨validations, projected, rfl⟩ := insertValidation_eq_ok stored
        exact l.validate hp schema required.belongs (requireValidatedContent_eq_ok content) inserted
          projected
      | introduced hp' =>
        rw [hp] at hp'
        cases hp'
      | approved hp' | activated hp' | superseded hp' | rejected hp' | retracted hp' | deleted hp' =>
        cases hp.symm.trans hp'
    | memoryCreated scope kind revision | revisionProposed revision | memoryRevised revision =>
      have recorded := l.record (by simp [hp]) inserted
      have introduced : entry.operation.payload.introducedRevision = some revision := by
        rw [hp]
        rfl
      obtain ⟨content, brought, hash, matched⟩ := validateContentSidecar_eq_ok introduced checked
      simp only [applyOperation, hp, introduceRevision, Bool.false_eq_true, if_false, brought] at ran
      exact recorded.introduce live (proposal _ introduced) hash matched ran
    | proposalApproved proposalId revision =>
      have recorded := l.record (by simp [hp]) inserted
      have introduced : entry.operation.payload.introducedRevision = some revision := by
        rw [hp]
        rfl
      obtain ⟨content, brought, hash, matched⟩ := validateContentSidecar_eq_ok introduced checked
      simp only [applyOperation, hp, introduceRevision, Bool.false_eq_true, if_false, brought] at ran
      obtain ⟨_, -, ran⟩ := bind_eq_ok_iff.mp ran
      obtain ⟨stored, first, ran⟩ := bind_eq_ok_iff.mp ran
      cases setRevisionState_eq_ok ran
      exact (recorded.introduce live (proposal _ introduced) hash matched first).keep .setState
        fun _ => id
    | memoryDeleted id => exact absurd hp (kept id)
    | revisionActivated | revisionSuperseded | revisionRejected | memoryRetracted =>
      have recorded := l.record (by simp [hp]) inserted
      refine recorded.keep (effect.keepsRecords (by rw [hp]; rfl) (by simp [hp]) kept) deleted
  exact legible.keep { KeepsRecords.refl applied with } fun _ => deleted_advanceItem.mpr

end Append

section Delete

variable {revisionId : MemoryRevisionId}

theorem deleteMemoryContent_identities (h : t.deleteMemoryContent m revisionId = .ok u)
    {r : MemoryRevisionId × MemoryId × MemoryRevision} :
    (∃ rev ∈ u.revisions, rev.identity = r) ↔ ∃ rev ∈ t.revisions, rev.identity = r := by
  obtain ⟨rfl, -⟩ := updateItem_eq_ok (deleteMemoryContent_eq_ok h)
  exact (exists_mem_update (φ := MemoryRevisionRow.identity) (P := (· = r)) fun _ => rfl).trans
    (exists_mem_update (φ := MemoryRevisionRow.identity) (P := (· = r)) fun _ => rfl)

theorem identity_inj {rev other : MemoryRevisionRow} (h : rev.identity = other.identity) :
    rev.revisionId = other.revisionId ∧ rev.memoryId = other.memoryId ∧
      rev.metadata = other.metadata := by
  simpa only [MemoryRevisionRow.identity, Prod.mk.injEq] using h

/-- The rows of the deleted memory lose their excerpts. -/
theorem deleteMemoryContent_evidence (h : t.deleteMemoryContent m revisionId = .ok u) :
    (∀ row ∈ u.evidence, ∃ old ∈ t.evidence,
      (t.Belongs old.revisionId m ∧ row = withoutExcerpt.apply old) ∨
        (¬ t.Belongs old.revisionId m ∧ row = old)) ∧
      ∀ old ∈ t.evidence, ∃ row ∈ u.evidence,
        row.revisionId = old.revisionId ∧ row.ordinal = old.ordinal := by
  obtain ⟨rfl, -⟩ := updateItem_eq_ok (deleteMemoryContent_eq_ok h)
  refine ⟨fun row hu => ?_, fun old he => ?_⟩
  · obtain ⟨old, he, rfl⟩ := mem_update.mp hu
    refine ⟨old, he, ?_⟩
    unfold alter
    split
    next own => exact .inl ⟨mem_revisionIds.mp (by simpa using own), rfl⟩
    next other => exact .inr ⟨fun own => other (by simpa using mem_revisionIds.mpr own), rfl⟩
  · refine ⟨_, alter_mem_update he, ?_⟩
    exact ⟨alter_congr (φ := MemoryEvidenceRow.revisionId) (fun _ => rfl) old,
      alter_congr (φ := MemoryEvidenceRow.ordinal) (fun _ => rfl) old⟩

theorem Legible.delete (l : Legible codec.toFactCodec t) (k : MemoryKeys t)
    (b : t.Belongs revisionId m) (h : t.deleteMemoryContent m revisionId = .ok u) :
    Legible codec.toFactCodec u ∧ u.Deleted m := by
  have sound := soundFor_delete k b h
  have agree := sound.agree
  obtain ⟨retired, contents, -, -⟩ := deleteMemoryContent_erases h
  obtain ⟨rows, complete⟩ := deleteMemoryContent_evidence h
  obtain ⟨item, hi, own⟩ := sound.stored ((belongs_deleteMemoryContent h).mpr b)
  have gone : u.Deleted m := ⟨item, hi, own, (retired item hi own).1⟩
  have deleted : ∀ n, t.Deleted n → u.Deleted n := by
    intro n old
    by_cases same : n = m
    · exact same ▸ gone
    · exact (deleted_iff_of_agree agree same).mpr old
  have old : ∀ rev ∈ u.revisions, ∃ old ∈ t.revisions, old.revisionId = rev.revisionId ∧
      old.memoryId = rev.memoryId ∧ old.metadata = rev.metadata := by
    intro rev hr
    obtain ⟨old, ho, same⟩ := (deleteMemoryContent_identities h).mp ⟨rev, hr, rfl⟩
    exact ⟨old, ho, identity_inj same⟩
  have new : ∀ rev ∈ t.revisions, ∃ new ∈ u.revisions, new.revisionId = rev.revisionId ∧
      new.memoryId = rev.memoryId ∧ new.metadata = rev.metadata := by
    intro rev hr
    obtain ⟨new, hn, same⟩ := (deleteMemoryContent_identities h).mpr ⟨rev, hr, rfl⟩
    exact ⟨new, hn, identity_inj same⟩
  have operations : u.operations = t.operations := (deleteMemoryContent_ledger h).1
  have validations : u.validations = t.validations := by
    obtain ⟨rfl, -⟩ := updateItem_eq_ok (deleteMemoryContent_eq_ok h)
    rfl
  refine ⟨⟨fun rev hr stored => ?_, fun rev hr unstored => ?_, fun row hr => ?_,
    fun rev hr n small => ?_, fun operation ho id validation hp => ?_, fun row hv => ?_⟩, gone⟩
  · have other : rev.memoryId ≠ m := fun same => stored (contents rev hr same)
    have kept := (agree.revisions rev other).mp hr
    obtain ⟨blob, hb, content, key, same⟩ := l.contents rev kept stored
    exact ⟨blob, (agree.content rev kept other blob key).mpr hb, content, key, same⟩
  · by_cases same : rev.memoryId = m
    · exact same ▸ gone
    · exact deleted _ (l.erased rev ((agree.revisions rev same).mp hr) unstored)
  · obtain ⟨before, he, became⟩ := rows row hr
    obtain ⟨rev, hv, metadata, named, listed, repeats, state⟩ := l.evidence before he
    obtain ⟨now, hn, named', owner, same⟩ := new rev hv
    rcases became with ⟨own, rfl⟩ | ⟨other, rfl⟩
    · have mine : rev.memoryId = m := by
        obtain ⟨holder, hh, id, memory⟩ := own
        rw [eq_of_key hv hh (named.trans id.symm), memory]
      refine ⟨now, hn, metadata, named'.trans named, by rw [same]; exact listed,
        ⟨repeats.id, repeats.source, repeats.relation⟩, ?_⟩
      rw [owner, mine]
      cases state with
      | absent unhashed _ _ unmarked => exact .absent unhashed rfl rfl unmarked
      | erased hashed => exact .erased hashed rfl rfl (.inl gone)
      | retained hashed => exact .erased (by simp [hashed]) rfl rfl (.inl gone)
    · have foreign : rev.memoryId ≠ m := fun mine => other ⟨rev, hv, named, mine⟩
      refine ⟨now, hn, metadata, named'.trans named, by rw [same]; exact listed, repeats, ?_⟩
      rw [owner]
      exact state.mono (deleted _) fun blob hb key _ =>
        (agree.excerpts rev hv foreign row he named.symm blob key).mpr hb
  · obtain ⟨before, hb, named, -, metadata⟩ := old rev hr
    obtain ⟨row, he, holder, ordinal⟩ := l.complete before hb n (metadata ▸ small)
    obtain ⟨now, hn, holder', ordinal'⟩ := complete row he
    exact ⟨now, hn, holder'.trans (holder.trans named), ordinal'.trans ordinal⟩
  · rw [operations] at ho
    rw [validations]
    obtain ⟨schema, ⟨rev, hv, named, memory, hash⟩, projected⟩ :=
      l.validated.recorded operation ho id validation hp
    obtain ⟨now, hn, named', owner, same⟩ := new rev hv
    exact ⟨schema, ⟨now, hn, named'.trans named, owner.trans memory, by rw [same, hash]⟩, projected⟩
  · rw [validations] at hv
    rw [operations]
    exact l.validated.projected row hv

end Delete

section Erase

variable {sessionId : SessionId} {lastSequence : SessionSequence} {erasedAt : TimestampMillis}
  {item : MemoryItemRow}

theorem Concluded.outside (c : Concluded t) (a : AgreeOutside m t u)
    (own : ∀ rev ∈ u.revisions, rev.memoryId = m → u.Deleted m →
      rev.state ≠ .proposed ∧ rev.state ≠ .active) : Concluded u := by
  intro n gone rev hr mine
  by_cases same : n = m
  · subst same
    exact own rev hr mine gone
  · subst mine
    exact c _ ((deleted_iff_of_agree a same).mp gone) rev ((a.revisions rev same).mp hr) rfl

theorem Legible.eraseMemory (l : Legible codec.toFactCodec t) (c : Concluded t) (k : MemoryKeys t)
    (known : LatestStored t item)
    (h : eraseSessionMemory sessionId lastSequence erasedAt t item = .ok u) :
    Legible codec.toFactCodec u ∧ Concluded u := by
  have sound := soundFor_eraseSessionMemory k known h
  obtain ⟨latest, deleted, tombstones, found, erased, -, rfl⟩ := eraseSessionMemory_eq_ok h
  have first := (l.delete k (known latest found) erased).1
  have marked : KeepsRecords deleted { deleted with
      revisions := deleted.revisions.update (·.memoryId = item.memoryId) (withState .deleted) } :=
    .update
  refine ⟨first.keep { marked with } fun _ => id, c.outside sound.agree fun rev hr own _ => ?_⟩
  obtain ⟨old, ho, rfl⟩ := mem_update.mp hr
  have mine : old.memoryId = item.memoryId := by
    rw [← own]
    exact (alter_congr (φ := MemoryRevisionRow.memoryId) (fun _ => rfl) old).symm
  rw [alter, if_pos (by simpa using mine)]
  exact ⟨by simp [withState], by simp [withState]⟩

theorem DropsExcerpts.legible (d : DropsExcerpts t u) (l : Legible codec.toFactCodec t) :
    Legible codec.toFactCodec u := by
  have revisions : u.revisions = t.revisions := by rw [d.rest]
  have deleted : ∀ n, t.Deleted n → u.Deleted n := by
    intro n gone
    rw [d.rest]
    exact gone
  refine ⟨fun rev hr stored => ?_, fun rev hr unstored => ?_, fun row hr => ?_,
    fun rev hr n small => ?_, ?_⟩
  · rw [revisions] at hr
    obtain ⟨blob, hb, content, key, same⟩ := l.contents rev hr stored
    exact ⟨blob, d.contents blob hb _ key, content, key, same⟩
  · exact deleted _ (l.erased rev (revisions ▸ hr) unstored)
  · rw [revisions]
    obtain ⟨old, he, rfl | ⟨stored, mark, rfl⟩⟩ := d.evidence row hr
    · obtain ⟨rev, hv, metadata, named, listed, repeats, state⟩ := l.evidence row he
      exact ⟨rev, hv, metadata, named, listed, repeats,
        state.mono (deleted _) fun blob hb _ key => d.retained row hr blob hb key⟩
    · obtain ⟨rev, hv, metadata, named, listed, repeats, state⟩ := l.evidence old he
      refine ⟨rev, hv, metadata, named, listed, ⟨repeats.id, repeats.source, repeats.relation⟩, ?_⟩
      have hashed : metadata.excerptHash ≠ none := by
        cases state with
        | absent _ unstored => exact absurd unstored stored
        | erased hashed => exact hashed
        | retained hashed =>
          simp [hashed]
      exact .erased hashed rfl rfl (.inr (by simp [MemoryEvidenceRow.excerptErased]))
  · rw [revisions] at hr
    obtain ⟨old, he, holder, ordinal⟩ := l.complete rev hr n small
    obtain ⟨row, hu, rfl | ⟨mark, rfl⟩⟩ := d.kept old he
    · exact ⟨row, hu, holder, ordinal⟩
    · exact ⟨_, hu, holder, ordinal⟩
  · have kept := l.validated
    rw [d.rest]
    exact ⟨kept.recorded, kept.projected⟩

theorem DropsExcerpts.concluded (d : DropsExcerpts t u) (c : Concluded t) : Concluded u := by
  rw [d.rest]
  exact c

theorem Legible.eraseSession (l : Legible codec.toFactCodec t) (c : Concluded t) (k : MemoryKeys t)
    (h : t.eraseSessionMemoryAndEvidence sessionId lastSequence erasedAt = .ok u) :
    Legible codec.toFactCodec u ∧ Concluded u := by
  obtain ⟨erased, h₁, dropped⟩ := eraseSessionMemoryAndEvidence_eq_ok h
  have done : MemoryKeys erased ∧ Legible codec.toFactCodec erased ∧ Concluded erased := by
    refine eraseSessionMemory_run (I := fun s => Legible codec.toFactCodec s ∧ Concluded s) ⟨l, c⟩ k
      (latestStored_select k) ?_ h₁
    rintro s item w ⟨l, c⟩ k known step
    exact l.eraseMemory c k known step
  obtain ⟨keys, legible, concluded⟩ := done
  exact ⟨(dropped keys).legible legible, (dropped keys).concluded concluded⟩

end Erase

section Batch

variable {occurredAt : TimestampMillis} {existing : List ExistingMemory}
  {request : MemoryAppendBatchRequest} {receipt : MemoryAppendReceipt}

theorem encodeAndValidate_eq_ok (h : encodeAndValidate codec entry = .ok ()) :
    entry.operation.schemaVersion = memorySchemaV1 ∧
      validateContentSidecar codec.toFactCodec entry = .ok () := by
  unfold encodeAndValidate at h
  by_cases schema : entry.operation.schemaVersion = memorySchemaV1
  · rw [if_neg (not_not.mpr schema)] at h
    obtain ⟨⟨⟩, checked, -⟩ := bind_eq_ok_iff.mp h
    exact ⟨schema, checked⟩
  · rw [if_pos schema] at h
    cases h

theorem BatchScan.step_eq_ok {first : MemoryOperationEnvelope} {scan next : BatchScan}
    (h : BatchScan.step codec first scan entry = .ok next) :
    encodeAndValidate codec entry = .ok () := by
  unfold BatchScan.step at h
  dsimp only at h
  split at h
  next => cases h
  next =>
    split at h
    next =>
      split at h
      next => cases h
      next =>
        split at h
        next => cases h
        next =>
          obtain ⟨⟨⟩, encoded, -⟩ := bind_eq_ok_iff.mp h
          exact encoded
    next =>
      split at h
      next => cases h
      next =>
        obtain ⟨⟨⟩, encoded, -⟩ := bind_eq_ok_iff.mp h
        exact encoded

theorem BatchScan.run_eq_ok {first : MemoryOperationEnvelope} {scan last : BatchScan}
    (h : run (BatchScan.step codec first) scan operations = .ok last) :
    ∀ entry ∈ operations, encodeAndValidate codec entry = .ok () := by
  induction operations generalizing scan with
  | nil => simp
  | cons entry rest ih =>
    obtain ⟨next, stepped, h⟩ := bind_eq_ok_iff.mp (run_cons scan entry rest ▸ h)
    intro other ho
    rcases List.mem_cons.mp ho with rfl | ho
    · exact BatchScan.step_eq_ok stepped
    · exact ih h other ho

theorem appendMemoryBatch_encoded (h : t.appendMemoryBatch codec request = .ok (receipt, u)) :
    ∀ entry ∈ request.operations, encodeAndValidate codec entry = .ok () := by
  unfold appendMemoryBatch at h
  obtain ⟨first, encoded, -⟩ := bind_eq_ok_iff.mp h
  unfold encodeAndValidateBatch at encoded
  split at encoded
  next => cases encoded
  next =>
    obtain ⟨scan, scanned, -⟩ := bind_eq_ok_iff.mp encoded
    exact BatchScan.run_eq_ok scanned

/-- The operations of a batch that deletes nothing. -/
theorem Legible.run (l : Legible codec.toFactCodec t) (k : MemoryKeys t) (live : ¬ t.Deleted m)
    (memory : ∀ entry ∈ operations, entry.operation.memoryId = m)
    (encoded : ∀ entry ∈ operations, encodeAndValidate codec entry = .ok ())
    (proposal : ∀ entry ∈ operations, entry.operation.payload.IntroducesProposal)
    (kept : ∀ entry ∈ operations, ∀ id, entry.operation.payload ≠ .memoryDeleted id)
    (h : FallibleRun.run (appendOperation codec) t operations = .ok u) :
    Legible codec.toFactCodec u ∧ ¬ u.Deleted m := by
  induction operations generalizing t with
  | nil =>
    cases Except.ok.inj h
    exact ⟨l, live⟩
  | cons entry rest ih =>
    obtain ⟨next, appended, h⟩ := bind_eq_ok_iff.mp (run_cons t entry rest ▸ h)
    obtain ⟨schema, checked⟩ := encodeAndValidate_eq_ok (encoded entry (by simp))
    have own := memory entry (by simp)
    have first := l.append k (own ▸ live) schema checked (proposal entry (by simp))
      (kept entry (by simp)) appended
    have keys := (soundFor_appendOperation k (proposal entry (by simp)) appended).keys
    exact ih first.1 keys (own ▸ first.2) (fun other ho => memory other (by simp [ho]))
      (fun other ho => encoded other (by simp [ho])) (fun other ho => proposal other (by simp [ho]))
      (fun other ho => kept other (by simp [ho])) h

/-- A deletion that leaves another revision proposed or active. -/
def DeletesBesideLive (t : MemoryTables) : MemoryAction → Prop
  | .command command _ _ => ∃ revisionId, command.payload = .deleteMemory revisionId ∧
      t.HasState revisionId command.memoryId deletableStates ∧
      ∃ other, other ≠ revisionId ∧ t.HasState other command.memoryId [.proposed, .active]
  | .eraseSession .. => False

theorem Legible.opened (l : Legible codec.toFactCodec t) (h : t.openBatch operation = .ok u) :
    Legible codec.toFactCodec u := by
  obtain ⟨rfl, -⟩ | ⟨row, items, inserted, rfl, -, lifecycle, -⟩ := openBatch_eq_ok h
  · exact l
  · refine l.keep { KeepsRecords.refl t with } fun n => ?_
    rintro ⟨item, hi, same⟩
    exact ⟨item, ((insert?_eq_some inserted).1 item).mpr (.inl hi), same⟩

/-- A memory that a command goes on with is not deleted. -/
theorem Concluded.not_deleted {revisionId : MemoryRevisionId} {states : List MemoryRevisionStatus}
    (c : Concluded t) (k : MemoryKeys t)
    (known : HasRevision (t.loadMemoryRevisions m) revisionId states)
    (live : ∀ state ∈ states, state = .proposed ∨ state = .active) : ¬ t.Deleted m := by
  intro gone
  obtain ⟨rev, hr, -, own, state⟩ := hasState_of_hasRevision k known
  have closed := c m gone rev hr own
  rcases live rev.state state with open_ | open_
  · exact closed.1 open_
  · exact closed.2 open_

theorem PlannedBatch.not_deleted {stored : List MemoryOperationEnvelope}
    {planned : List PlannedOperation} (c : Concluded t) (k : MemoryKeys t)
    (h : PlannedBatch command occurredAt stored (t.loadMemoryRevisions command.memoryId) planned)
    (creates : command.payload.createsItem = false)
    (kept : ∀ id, command.payload ≠ .deleteMemory id) : ¬ t.Deleted command.memoryId := by
  cases h with
  | create hp | createActive hp =>
    rw [hp] at creates
    cases creates
  | propose _ known | revise _ known | approve _ known | reject _ known | retract _ known =>
    exact c.not_deleted k known (by simp)
  | delete hp => exact absurd hp (kept _)

theorem PlannedBatch.keeps {stored : List MemoryOperationEnvelope} {revisions : List MemoryRevision}
    (h : PlannedBatch command occurredAt stored revisions
      (operations.map MemoryAppendOperation.planned))
    (kept : ∀ id, command.payload ≠ .deleteMemory id) :
    ∀ entry ∈ operations, ∀ id, entry.operation.payload ≠ .memoryDeleted id := by
  intro entry he id deletes
  have listed : (.memoryDeleted id, entry.content) ∈ operations.map MemoryAppendOperation.planned :=
    List.mem_map.mpr ⟨entry, he, by rw [MemoryAppendOperation.planned, deletes]⟩
  exact kept id (h.deletes listed).1

theorem PlannedBatch.deletion {stored : List MemoryOperationEnvelope} {revisions : List MemoryRevision}
    {planned : List PlannedOperation} {revisionId : MemoryRevisionId}
    (h : PlannedBatch command occurredAt stored revisions planned)
    (hp : command.payload = .deleteMemory revisionId) :
    planned = [(.memoryDeleted revisionId, none)] := by
  cases h with
  | delete hp' =>
    cases hp.symm.trans hp'
    rfl
  | create hp' | createActive hp' | propose hp' | revise hp' | approve hp' | reject hp'
  | retract hp' => cases hp.symm.trans hp'

/-- What every run keeps that deletes beside no live revision. -/
structure Readable (codec : FactCodec) (t : MemoryTables) : Prop where
  keys : MemoryKeys t
  legible : Legible codec t
  concluded : Concluded t

theorem Readable.counted {generation mutationGeneration : Nat} (r : Readable codec.toFactCodec t) :
    Readable codec.toFactCodec { t with generation, mutationGeneration } :=
  ⟨{ r.keys with }, r.legible.keep { KeepsRecords.refl t with } fun _ => id, r.concluded⟩

/-- A committed deletion. -/
theorem Readable.deletion {revisionId : MemoryRevisionId} (r : Readable codec.toFactCodec t)
    (hp : entry.operation.payload = .memoryDeleted revisionId)
    (last : ∀ rev ∈ t.revisions, rev.memoryId = entry.operation.memoryId →
      rev.revisionId ≠ revisionId → rev.state ≠ .proposed ∧ rev.state ≠ .active)
    (h : appendOperation codec t entry = .ok u) : Readable codec.toFactCodec u := by
  have proposal : entry.operation.payload.IntroducesProposal := by
    intro revision some_
    rw [hp] at some_
    cases some_
  have sound := soundFor_appendOperation r.keys proposal h
  obtain ⟨rows, applied, inserted, ran, rfl⟩ := appendOperation_eq_ok h
  have recorded := r.legible.record (by simp [hp]) inserted
  cases applyOperation_effect proposal ran with
  | @deleted deletedId _ hp' required stored =>
    cases hp.symm.trans hp'
    have done := recorded.delete { r.keys with } required.belongs stored
    refine ⟨sound.keys, ?_, r.concluded.outside sound.agree fun rev hr own _ => ?_⟩
    · exact done.1.keep { KeepsRecords.refl applied with } fun _ => deleted_advanceItem.mpr
    · obtain ⟨rfl, -⟩ := updateItem_eq_ok (deleteMemoryContent_eq_ok stored)
      obtain ⟨erased, he, rfl⟩ := mem_setState.mp hr
      obtain ⟨old, ho, rfl⟩ := mem_eraseContent.mp he
      dsimp only at own ⊢
      split
      next => exact ⟨by simp, by simp⟩
      next other => exact last old ho own other
  | introduced hp' =>
    rw [hp] at hp'
    cases hp'
  | approved hp' | validated hp' | activated hp' | superseded hp' | rejected hp' | retracted hp' =>
    cases hp.symm.trans hp'

theorem Readable.batch (r : Readable codec.toFactCodec t)
    (planned : PlannedBatch command occurredAt (t.loadMemoryOperations command.memoryId)
      (t.loadMemoryRevisions command.memoryId) (operations.map MemoryAppendOperation.planned))
    (memory : ∀ entry ∈ operations, entry.operation.memoryId = command.memoryId)
    (creates : ∀ first, operations.head? = some first →
      first.operation.payload.createsItem = command.payload.createsItem)
    (encoded : ∀ entry ∈ operations, encodeAndValidate codec entry = .ok ())
    (beside : ¬ DeletesBesideLive t (.command command occurredAt existing))
    (effect : BatchEffect codec operations t u) : Readable codec.toFactCodec u := by
  have proposal : ∀ entry ∈ operations, entry.operation.payload.IntroducesProposal :=
    fun entry he => planned.introducesProposal entry.planned (List.mem_map.mpr ⟨entry, he, rfl⟩)
  obtain ⟨first, opened, applied, generation, mutationGeneration, listed, h₀, h, rfl⟩ := effect
  have own := memory first (List.mem_of_head? listed)
  refine Readable.counted ?_
  by_cases deletes : ∃ revisionId, command.payload = .deleteMemory revisionId
  · obtain ⟨revisionId, hp⟩ := deletes
    obtain ⟨only, rfl, deletion⟩ := List.map_eq_singleton_iff.mp (planned.deletion hp)
    cases Option.some.inj listed
    have payload : first.operation.payload = .memoryDeleted revisionId := congrArg Prod.fst deletion
    have same : opened = t := by
      rcases openBatch_eq_ok h₀ with ⟨same, -⟩ | ⟨-, -, -, -, -, -, -, -, -, creating⟩
      · exact same
      · rw [payload] at creating
        cases creating
    subst same
    obtain ⟨deleted, appended, h⟩ := bind_eq_ok_iff.mp (run_cons opened first [] ▸ h)
    cases Except.ok.inj h
    refine r.deletion payload (fun rev hr mine other => ?_) appended
    have addressed := hasState_of_hasRevision r.keys (planned.deletable hp)
    have alone : ¬ rev.state ∈ [MemoryRevisionStatus.proposed, .active] := fun live =>
      beside ⟨revisionId, hp, addressed, rev.revisionId, other, rev, hr, rfl, mine.trans own, live⟩
    simpa using alone
  · have kept : ∀ id, command.payload ≠ .deleteMemory id := fun id hp => deletes ⟨id, hp⟩
    have sound := soundFor_openBatch r.keys h₀
    rw [own] at sound
    have live : ¬ opened.Deleted command.memoryId := by
      obtain ⟨rfl, idle⟩ | ⟨row, items, inserted, rfl, id, lifecycle, -⟩ := openBatch_eq_ok h₀
      · exact planned.not_deleted r.concluded r.keys (by rw [← creates first listed, idle]) kept
      · rintro ⟨item, hu, mine, gone⟩
        obtain ⟨rows, fresh⟩ := insert?_eq_some inserted
        rcases (rows item).mp hu with hi | rfl
        · exact fresh item hi (mine.trans (own.symm.trans id.symm))
        · rw [lifecycle] at gone
          cases gone
    have done := (r.legible.opened h₀).run sound.keys live memory encoded proposal
      (planned.keeps kept) h
    have frame := sound.trans (batchFrame_run sound.keys proposal memory h).sound
    exact ⟨frame.keys, done.1, r.concluded.outside frame.agree fun _ _ _ gone => absurd gone done.2⟩

end Batch

section Run

variable {action : MemoryAction} {actions : List MemoryAction}

theorem Readable.step (r : Readable codec.toFactCodec t) (beside : ¬ DeletesBesideLive t action) :
    Readable codec.toFactCodec (t.step codec action) := by
  cases action with
  | command command occurredAt existing =>
    unfold MemoryTables.step
    dsimp only
    split
    next => exact r
    next plan accepted =>
      have planned := planMemoryCommand_planned accepted
      split
      next => exact r
      next receipt next_ appended =>
        rcases appendMemoryBatch_effect appended with rfl | effect
        · exact r
        · refine r.batch planned.admitted.toPlanned planned.memory (fun first listed => ?_)
            (appendMemoryBatch_encoded appended) beside effect
          obtain ⟨head, rest, split, creates⟩ := planned.head_creates
          rw [split] at listed
          cases Option.some.inj listed
          exact creates
  | eraseSession sessionId lastSequence erasedAt =>
    unfold MemoryTables.step
    dsimp only
    split
    next => exact r
    next next_ erased =>
      obtain ⟨legible, concluded⟩ := r.legible.eraseSession r.concluded r.keys erased
      obtain ⟨gone, h₁, dropped⟩ := eraseSessionMemoryAndEvidence_eq_ok erased
      have keys : MemoryKeys gone := (eraseSessionMemory_run (I := fun _ => True) trivial r.keys
        (latestStored_select r.keys) (fun _ _ _ _ _ _ _ => trivial) h₁).1
      exact ⟨(dropped keys).keys keys, legible, concluded⟩

theorem readable_empty {codec : FactCodec} : Readable codec .empty where
  keys := memoryValid_empty.keys
  legible := by
    refine ⟨?_, ?_, ?_, ?_, ?_, ?_⟩ <;> simp [MemoryTables.empty]
  concluded := by
    rintro m ⟨item, hi, -⟩
    simp [MemoryTables.empty] at hi

theorem memoryRun_readable
    (beside : EachAfter (fun before action => ¬ DeletesBesideLive (memoryRun codec before) action)
      actions) : Readable codec.toFactCodec (memoryRun codec actions) := by
  induction actions using List.reverseRecOn with
  | nil => exact readable_empty
  | append_singleton actions action ih =>
    obtain ⟨earlier, last⟩ := eachAfter_concat_iff.mp beside
    rw [memoryRun_concat]
    exact (ih earlier).step last

end Run

end AutoHarness
