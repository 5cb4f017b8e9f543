import AutoHarness.MemoryRun

namespace AutoHarness

open FallibleRun KeyedTable MemoryTables

variable {t u v : MemoryTables} {m n : MemoryId} {codec : MemoryCodec}
  {entry : MemoryAppendOperation} {operations : List MemoryAppendOperation}

/-- Every retained text is the content of a revision or the excerpt of an evidence row. -/
def Referenced (t : MemoryTables) : Prop :=
  ∀ blob ∈ t.blobs, (∃ rev ∈ t.revisions, rev.contentId = some blob.contentId) ∨
    ∃ row ∈ t.evidence, row.excerptContentId = some blob.contentId

/-- Neither texts nor the ledger change, and each revision refers to the same content. -/
structure KeepsTexts (t u : MemoryTables) : Prop where
  operations : u.operations = t.operations
  tombstones : u.tombstones = t.tombstones
  evidence : u.evidence = t.evidence
  blobs : u.blobs = t.blobs
  contents : ∀ rev ∈ t.revisions, ∃ new ∈ u.revisions, new.contentId = rev.contentId

theorem KeepsTexts.refl (t : MemoryTables) : KeepsTexts t t :=
  ⟨rfl, rfl, rfl, rfl, fun rev hr => ⟨rev, hr, rfl⟩⟩

theorem KeepsTexts.trans (a : KeepsTexts t u) (b : KeepsTexts u v) : KeepsTexts t v where
  operations := b.operations.trans a.operations
  tombstones := b.tombstones.trans a.tombstones
  evidence := b.evidence.trans a.evidence
  blobs := b.blobs.trans a.blobs
  contents rev hr := by
    obtain ⟨mid, hu, same₁⟩ := a.contents rev hr
    obtain ⟨new, hv, same₂⟩ := b.contents mid hu
    exact ⟨new, hv, same₂.trans same₁⟩

theorem KeepsTexts.referenced (a : KeepsTexts t u) (r : Referenced t) : Referenced u := by
  intro blob hb
  rw [a.blobs] at hb
  rw [a.evidence]
  rcases r blob hb with ⟨rev, hr, stored⟩ | stored
  · obtain ⟨new, hu, same⟩ := a.contents rev hr
    exact .inl ⟨new, hu, same.trans stored⟩
  · exact .inr stored

section Statements

variable {revisionId : MemoryRevisionId}

theorem keepsTexts_setState {state : MemoryRevisionStatus} :
    KeepsTexts t (t.setState revisionId state) :=
  { KeepsTexts.refl t with
    contents := fun _ hr => ⟨_, alter_mem_update hr, alter_congr (fun _ => rfl) _⟩ }

theorem keepsTexts_updateItem {f : RowMap MemoryItemRow.memoryId} (h : t.updateItem m f = .ok u) :
    KeepsTexts t u := by
  obtain ⟨rfl, -⟩ := updateItem_eq_ok h
  exact { KeepsTexts.refl t with }

theorem keepsTexts_activate (h : t.activateRevision m revisionId true = .ok u) : KeepsTexts t u := by
  obtain ⟨cleared, indexed, h₁, h₂, h₃⟩ := activateRevision_eq_ok h
  have first : KeepsTexts t cleared := by
    obtain ⟨item, hi, own, ⟨rfl, -⟩ | ⟨current, active, -, rfl⟩⟩ := deactivateCurrentRevision_eq_ok h₁
    · exact .refl _
    · exact { keepsTexts_setState (t := t) with }
  have second : KeepsTexts (cleared.setState revisionId .active) indexed := by
    obtain ⟨-, -, -, -, fts, -, -, -, rfl⟩ := addRevisionToFts_eq_ok h₂
    exact { KeepsTexts.refl _ with }
  exact ((first.trans keepsTexts_setState).trans second).trans (keepsTexts_updateItem h₃)

end Statements

theorem Introduces.referenced {operation : MemoryOperationEnvelope} {revision : MemoryRevision}
    (i : Introduces operation revision t u) (r : Referenced t) : Referenced u := by
  intro blob hb
  rcases i.addedBlobs blob hb with hb | own | ⟨row, hr, -, -, own⟩
  · rcases r blob hb with ⟨rev, hr, stored⟩ | ⟨row, hr, stored⟩
    · exact .inl ⟨rev, (i.revisions rev).mpr (.inl hr), stored⟩
    · exact .inr ⟨row, i.kept row hr, stored⟩
  · exact .inl ⟨_, (i.revisions _).mpr (.inr rfl), by rw [own]; rfl⟩
  · exact .inr ⟨row, hr, own⟩

theorem eraseContent_referenced (r : Referenced t) : Referenced (t.eraseContent m) := by
  intro blob hb
  obtain ⟨hb, kept⟩ := mem_delete.mp hb
  rw [decide_eq_false_iff_not] at kept
  rcases r blob hb with ⟨rev, hr, stored⟩ | ⟨row, hr, stored⟩
  · have other : rev.memoryId ≠ m := by
      intro own
      exact kept (List.mem_append_left _ (List.mem_filterMap.mpr ⟨rev, by simp [hr, own], stored⟩))
    exact .inl ⟨rev, mem_eraseContent.mpr ⟨rev, hr, by simp [other]⟩, stored⟩
  · have other : row.revisionId ∉ t.revisionIds m := by
      intro own
      exact kept (List.mem_append_right _ (List.mem_filterMap.mpr ⟨row, by simp [hr, own], stored⟩))
    refine .inr ⟨row, mem_update.mpr ⟨row, hr, ?_⟩, stored⟩
    rw [alter, if_neg (by simpa using other)]

theorem deleteMemoryContent_referenced {revisionId : MemoryRevisionId} (r : Referenced t)
    (h : t.deleteMemoryContent m revisionId = .ok u) : Referenced u := by
  have erased : Referenced ((t.eraseContent m).setState revisionId .deleted) :=
    keepsTexts_setState.referenced (eraseContent_referenced r)
  exact (keepsTexts_updateItem (deleteMemoryContent_eq_ok h)).referenced erased

theorem DropsExcerpts.referenced (d : DropsExcerpts t u) (r : Referenced t) : Referenced u := by
  intro blob hb
  rcases r blob (d.blobs blob hb) with stored | ⟨row, he, stored⟩
  · left
    rw [d.rest]
    exact stored
  · exact .inr (d.references blob hb row he stored)

theorem OperationEffect.referenced (effect : OperationEffect codec entry t u) (r : Referenced t) :
    Referenced u := by
  cases effect with
  | introduced _ stored => exact stored.referenced r
  | approved _ _ introduced => exact keepsTexts_setState.referenced (introduced.referenced r)
  | validated _ stored =>
    obtain ⟨validations, -, rfl⟩ := insertValidation_eq_ok stored
    exact r
  | activated _ _ stored => exact (keepsTexts_activate stored).referenced r
  | superseded => exact keepsTexts_setState.referenced r
  | rejected _ _ stored =>
    exact (keepsTexts_updateItem stored).referenced (keepsTexts_setState.referenced r)
  | retracted _ _ stored =>
    exact (keepsTexts_updateItem stored).referenced (keepsTexts_setState.referenced r)
  | deleted _ _ stored => exact deleteMemoryContent_referenced r stored

theorem deleteMemoryContent_ledger {revisionId : MemoryRevisionId}
    (h : t.deleteMemoryContent m revisionId = .ok u) :
    u.operations = t.operations ∧ u.tombstones = t.tombstones := by
  obtain ⟨rfl, -⟩ := updateItem_eq_ok (deleteMemoryContent_eq_ok h)
  exact ⟨rfl, rfl⟩

theorem OperationEffect.ledger (effect : OperationEffect codec entry t u) :
    u.operations = t.operations ∧ u.tombstones = t.tombstones := by
  cases effect with
  | introduced _ stored => exact ⟨stored.operations, stored.tombstones⟩
  | approved _ _ introduced => exact ⟨introduced.operations, introduced.tombstones⟩
  | validated _ stored =>
    obtain ⟨validations, -, rfl⟩ := insertValidation_eq_ok stored
    exact ⟨rfl, rfl⟩
  | activated _ _ stored =>
    have kept := keepsTexts_activate stored
    exact ⟨kept.operations, kept.tombstones⟩
  | superseded => exact ⟨rfl, rfl⟩
  | rejected _ _ stored | retracted _ _ stored =>
    obtain ⟨rfl, -⟩ := updateItem_eq_ok stored
    exact ⟨rfl, rfl⟩
  | deleted _ _ stored => exact deleteMemoryContent_ledger stored

/-- What the operations of one batch do beside their effect on the memory itself. -/
structure BatchFrame (m : MemoryId) (operations : List MemoryAppendOperation)
    (t u : MemoryTables) : Prop where
  sound : SoundFor m t u
  referenced : Referenced t → Referenced u
  ledger : ∀ operation, operation ∈ u.operations ↔
    operation ∈ t.operations ∨ ∃ entry ∈ operations, operation = entry.operation
  tombstones : u.tombstones = t.tombstones

theorem batchFrame_appendOperation (k : MemoryKeys t)
    (proposal : entry.operation.payload.IntroducesProposal)
    (h : appendOperation codec t entry = .ok u) :
    BatchFrame entry.operation.memoryId [entry] t u := by
  have sound := soundFor_appendOperation k proposal h
  obtain ⟨stored, applied, inserted, effect, rfl⟩ := appendOperation_eq_ok h
  have written := applyOperation_effect proposal effect
  obtain ⟨same, tombstones⟩ := written.ledger
  have rows := (insert?_eq_some inserted).1
  refine ⟨sound, fun r => written.referenced r, fun operation => ?_, tombstones⟩
  have kept : (applied.advanceItem entry.operation).operations = stored := same
  rw [kept, rows operation]
  simp

theorem BatchFrame.trans {others : List MemoryAppendOperation} (a : BatchFrame m operations t u)
    (b : BatchFrame m others u v) : BatchFrame m (operations ++ others) t v where
  sound := a.sound.trans b.sound
  referenced r := b.referenced (a.referenced r)
  ledger operation := by
    rw [b.ledger, a.ledger]
    simp [or_assoc, or_and_right, exists_or]
  tombstones := b.tombstones.trans a.tombstones

theorem batchFrame_run (k : MemoryKeys t)
    (proposal : ∀ entry ∈ operations, entry.operation.payload.IntroducesProposal)
    (memory : ∀ entry ∈ operations, entry.operation.memoryId = m)
    (h : run (appendOperation codec) t operations = .ok u) : BatchFrame m operations t u := by
  induction operations generalizing t with
  | nil =>
    cases Except.ok.inj h
    exact ⟨⟨.refl m _, k⟩, id, by simp, rfl⟩
  | cons entry rest ih =>
    obtain ⟨next, first, h⟩ := bind_eq_ok_iff.mp (run_cons t entry rest ▸ h)
    have head := batchFrame_appendOperation k (proposal entry (by simp)) first
    rw [memory entry (by simp)] at head
    exact head.trans (ih head.sound.keys (fun other ho => proposal other (by simp [ho]))
      (fun other ho => memory other (by simp [ho])) h)

theorem batchFrame_openBatch {operation : MemoryOperationEnvelope} (k : MemoryKeys t)
    (h : t.openBatch operation = .ok u) : BatchFrame operation.memoryId [] t u := by
  have sound := soundFor_openBatch k h
  obtain ⟨rfl, -⟩ | ⟨row, items, -, rfl, -⟩ := openBatch_eq_ok h
  · exact ⟨sound, id, by simp, rfl⟩
  · exact ⟨sound, id, by simp, rfl⟩

theorem BatchEffect.frame (effect : BatchEffect codec operations t u) (k : MemoryKeys t)
    (proposal : ∀ entry ∈ operations, entry.operation.payload.IntroducesProposal)
    (memory : ∀ entry ∈ operations, entry.operation.memoryId = m) : BatchFrame m operations t u := by
  obtain ⟨first, opened, applied, generation, mutationGeneration, listed, h₀, h, rfl⟩ := effect
  have start := batchFrame_openBatch k h₀
  rw [memory first (List.mem_of_head? listed)] at start
  have done := start.trans (batchFrame_run start.sound.keys proposal memory h)
  exact ⟨⟨{ done.sound.agree with }, { done.sound.keys with }⟩, done.referenced, done.ledger,
    done.tombstones⟩

theorem PlannedBatch.introducesProposal {command : MemoryCommandEnvelope}
    {occurredAt : TimestampMillis} {stored : List MemoryOperationEnvelope}
    {revisions : List MemoryRevision} {planned : List PlannedOperation}
    (batch : PlannedBatch command occurredAt stored revisions planned) :
    ∀ p ∈ planned, p.1.IntroducesProposal := by
  cases batch <;> simp [MemoryOperationPayload.IntroducesProposal,
    MemoryOperationPayload.introducedRevision, MemoryRevision.fromDraft]

theorem PlannedBatch.deletes {command : MemoryCommandEnvelope} {occurredAt : TimestampMillis}
    {stored : List MemoryOperationEnvelope} {revisions : List MemoryRevision}
    {planned : List PlannedOperation} {revisionId : MemoryRevisionId}
    {content : Option MemoryRevisionContent}
    (batch : PlannedBatch command occurredAt stored revisions planned)
    (listed : (.memoryDeleted revisionId, content) ∈ planned) :
    command.payload = .deleteMemory revisionId ∧ planned = [(.memoryDeleted revisionId, none)] := by
  cases batch with
  | delete hp =>
    cases List.mem_singleton.mp listed
    exact ⟨hp, rfl⟩
  | create | createActive | propose | revise | approve | reject | retract => simp at listed

/-- A deletion of the memory, or the erasure of its session, is in the store. -/
def DeletionCommitted (t : MemoryTables) (m : MemoryId) : Prop :=
  (∃ operation ∈ t.operations, operation.memoryId = m ∧
    ∃ revisionId, operation.payload = .memoryDeleted revisionId) ∨
  ∃ row ∈ t.tombstones, row.memoryId = m

/-- What stays true of the tables when every deletion closes all revisions. -/
structure DeletionFinal (t : MemoryTables) : Prop where
  keys : MemoryKeys t
  referenced : Referenced t
  recorded : ∀ item ∈ t.items, ∃ operation ∈ t.operations, operation.memoryId = item.memoryId
  erased : ∀ m, DeletionCommitted t m → Erased m t

section Rejection

variable {command : MemoryCommandEnvelope} {occurredAt : TimestampMillis}
  {existing : List ExistingMemory} {planned : List PlannedOperation}

theorem Erased.not_hasRevision {revisionId : MemoryRevisionId} {states : List MemoryRevisionStatus}
    (e : Erased m t) (k : MemoryKeys t) (open_ : ∀ state ∈ states, state ∉ [.superseded, .deleted]) :
    ¬ HasRevision (t.loadMemoryRevisions m) revisionId states := by
  intro known
  obtain ⟨rev, hr, -, own, state⟩ := hasState_of_hasRevision k known
  exact open_ rev.state state (e.closed rev hr own).1

theorem loadMemoryOperations_ne_nil {operation : MemoryOperationEnvelope}
    (stored : operation ∈ t.operations) (own : operation.memoryId = m) :
    t.loadMemoryOperations m ≠ [] := by
  have listed : operation ∈ t.loadMemoryOperations m := by
    simp [loadMemoryOperations, stored, own]
  exact List.ne_nil_of_mem listed

/-- No batch is planned for an erased memory. -/
theorem DeletionFinal.not_planned (f : DeletionFinal t) (e : Erased command.memoryId t) :
    ¬ PlannedBatch command occurredAt (t.loadMemoryOperations command.memoryId)
      (t.loadMemoryRevisions command.memoryId) planned := by
  obtain ⟨item, hi, own⟩ := e.stored
  obtain ⟨operation, stored, same⟩ := f.recorded item hi
  have known := loadMemoryOperations_ne_nil stored (same.trans own)
  intro batch
  cases batch with
  | create _ first | createActive _ first => exact known first
  | propose _ open_ | revise _ open_ | approve _ open_ | reject _ open_ | retract _ open_
  | delete _ open_ => exact e.not_hasRevision f.keys (by simp) open_

theorem DeletionFinal.plan_rejected (f : DeletionFinal t) (e : Erased command.memoryId t) :
    ∃ error, t.plan codec command occurredAt existing = .error error := by
  cases planned : t.plan codec command occurredAt existing with
  | error error => exact ⟨error, rfl⟩
  | ok plan => exact absurd (planMemoryCommand_eq_ok planned).1 (f.not_planned e)

end Rejection

section Step

variable {action : MemoryAction}

/-- A deletion that leaves another revision open: one that later commands still accept. -/
def DeletesBesideOpen (t : MemoryTables) : MemoryAction → Prop
  | .command command _ _ => ∃ revisionId, command.payload = .deleteMemory revisionId ∧
      t.HasState revisionId command.memoryId deletableStates ∧
      ∃ other, other ≠ revisionId ∧ t.HasState other command.memoryId deletableStates
  | .eraseSession .. => False

theorem mem_closed_of_not_deletable {state : MemoryRevisionStatus} (h : state ∉ deletableStates) :
    state ∈ [.superseded, .deleted] := by
  cases state <;> simp [deletableStates] at h ⊢

theorem Erased.advanceItem {operation : MemoryOperationEnvelope} (e : Erased m t) :
    Erased m (t.advanceItem operation) := by
  have same : ∀ item : MemoryItemRow,
      ((advanced operation).apply item).memoryId = item.memoryId := fun _ => rfl
  refine { e with stored := ?_, retired := ?_ }
  · exact (exists_mem_update (P := fun id => id = m) same).mpr e.stored
  · exact (forall_mem_update
      (φ := fun item : MemoryItemRow => (item.memoryId, item.lifecycle, item.activeRevisionId))
      (P := fun columns => columns.1 = m → columns.2.1 = .deleted ∧ columns.2.2 = none)
      fun _ => rfl).mpr e.retired

theorem Erased.of_deletion {revisionId : MemoryRevisionId}
    (k : MemoryKeys t) (last : DeletesLast t entry.operation.memoryId revisionId)
    (hp : entry.operation.payload = .memoryDeleted revisionId)
    (h : appendOperation codec t entry = .ok u) : Erased entry.operation.memoryId u := by
  obtain ⟨stored, applied, -, effect, rfl⟩ := appendOperation_eq_ok h
  have proposal : entry.operation.payload.IntroducesProposal :=
    introducesProposal_of_none (by rw [hp]; rfl)
  have recorded : MemoryKeys { t with operations := stored } := { k with }
  cases applyOperation_effect proposal effect with
  | deleted hp' required deleted =>
    cases hp.symm.trans hp'
    exact (Erased.of_delete recorded required.belongs last deleted).advanceItem
  | introduced hp' =>
    rw [hp] at hp'
    cases hp'
  | approved hp' | validated hp' | activated hp' | superseded hp' | rejected hp' | retracted hp' =>
    cases hp.symm.trans hp'

/-- A committed deletion erases its memory when no other revision is open. -/
theorem Erased.of_batch {command : MemoryCommandEnvelope} {occurredAt : TimestampMillis}
    {existing : List ExistingMemory} {revisionId : MemoryRevisionId} (k : MemoryKeys t)
    (planned : PlannedBatch command occurredAt (t.loadMemoryOperations command.memoryId)
      (t.loadMemoryRevisions command.memoryId) (operations.map MemoryAppendOperation.planned))
    (memory : ∀ entry ∈ operations, entry.operation.memoryId = command.memoryId)
    (beside : ¬ DeletesBesideOpen t (.command command occurredAt existing))
    (he : entry ∈ operations) (deletes : entry.operation.payload = .memoryDeleted revisionId)
    (effect : BatchEffect codec operations t u) : Erased command.memoryId u := by
  have listed : (.memoryDeleted revisionId, entry.content) ∈
      operations.map MemoryAppendOperation.planned :=
    List.mem_map.mpr ⟨entry, he, by rw [MemoryAppendOperation.planned, deletes]⟩
  obtain ⟨hp, shape⟩ := planned.deletes listed
  obtain ⟨only, rfl, -⟩ := List.map_eq_singleton_iff.mp shape
  cases List.mem_singleton.mp he
  obtain ⟨first, opened, applied, generation, mutationGeneration, head, h₀, h, rfl⟩ := effect
  cases Option.some.inj head
  have own := memory entry he
  have same : opened = t := by
    rcases openBatch_eq_ok h₀ with ⟨same, -⟩ | ⟨-, -, -, -, -, -, -, -, -, creates⟩
    · exact same
    · simp [deletes, MemoryOperationPayload.createsItem] at creates
  subst same
  have addressed := hasState_of_hasRevision k (planned.deletable hp)
  have last : DeletesLast opened entry.operation.memoryId revisionId := by
    intro rev hr mine other
    refine mem_closed_of_not_deletable fun open_ => beside ⟨revisionId, hp, addressed, ?_⟩
    exact ⟨rev.revisionId, other, rev, hr, rfl, mine.trans own, open_⟩
  obtain ⟨deleted, appended, h⟩ := bind_eq_ok_iff.mp (run_cons opened entry [] ▸ h)
  cases Except.ok.inj h
  have erased := Erased.of_deletion k last deletes appended
  rw [own] at erased
  exact { erased with }

theorem DeletionFinal.batch {command : MemoryCommandEnvelope} {occurredAt : TimestampMillis}
    {existing : List ExistingMemory} (f : DeletionFinal t)
    (planned : PlannedBatch command occurredAt (t.loadMemoryOperations command.memoryId)
      (t.loadMemoryRevisions command.memoryId) (operations.map MemoryAppendOperation.planned))
    (memory : ∀ entry ∈ operations, entry.operation.memoryId = command.memoryId)
    (beside : ¬ DeletesBesideOpen t (.command command occurredAt existing))
    (effect : BatchEffect codec operations t u) : DeletionFinal u := by
  have proposal : ∀ entry ∈ operations, entry.operation.payload.IntroducesProposal :=
    fun entry he => planned.introducesProposal entry.planned (List.mem_map.mpr ⟨entry, he, rfl⟩)
  have frame := effect.frame f.keys proposal memory
  have pending : ¬ DeletionCommitted t command.memoryId :=
    fun committed => f.not_planned (f.erased _ committed) planned
  refine ⟨frame.sound.keys, frame.referenced f.referenced, fun item hu => ?_, fun m committed => ?_⟩
  · by_cases own : item.memoryId = command.memoryId
    · obtain ⟨first, -, -, -, -, listed, -⟩ := effect
      have head : first ∈ operations := List.mem_of_head? listed
      exact ⟨first.operation, (frame.ledger _).mpr (.inr ⟨first, head, rfl⟩),
        (memory first head).trans own.symm⟩
    · obtain ⟨operation, stored, same⟩ := f.recorded item ((frame.sound.agree.items item own).mp hu)
      exact ⟨operation, (frame.ledger _).mpr (.inl stored), same⟩
  · have cases_ : DeletionCommitted t m ∨ ∃ entry ∈ operations, entry.operation.memoryId = m ∧
        ∃ revisionId, entry.operation.payload = .memoryDeleted revisionId := by
      rcases committed with ⟨operation, stored, own, deletes⟩ | ⟨row, hr, own⟩
      · rcases (frame.ledger operation).mp stored with stored | ⟨entry, he, rfl⟩
        · exact .inl (.inl ⟨operation, stored, own, deletes⟩)
        · exact .inr ⟨entry, he, own, deletes⟩
      · exact .inl (.inr ⟨row, frame.tombstones ▸ hr, own⟩)
    rcases cases_ with committed | ⟨entry, he, own, revisionId, deletes⟩
    · have other : m ≠ command.memoryId := fun same => pending (same ▸ committed)
      exact (f.erased m committed).frame frame.sound other
    · rw [← own, memory entry he]
      exact Erased.of_batch f.keys planned memory beside he deletes effect

theorem eraseSessionMemory_referenced {sessionId : SessionId} {lastSequence : SessionSequence}
    {erasedAt : TimestampMillis} {item : MemoryItemRow} (r : Referenced t)
    (h : eraseSessionMemory sessionId lastSequence erasedAt t item = .ok u) : Referenced u := by
  obtain ⟨latest, deleted, tombstones, -, erased, -, rfl⟩ := eraseSessionMemory_eq_ok h
  have marked : KeepsTexts deleted { deleted with
      revisions := deleted.revisions.update (·.memoryId = item.memoryId) (withState .deleted) } :=
    { KeepsTexts.refl deleted with
      contents := fun _ hr => ⟨_, alter_mem_update hr, alter_congr (fun _ => rfl) _⟩ }
  exact marked.referenced (deleteMemoryContent_referenced r erased)

theorem eraseSessionMemory_operations {sessionId : SessionId} {lastSequence : SessionSequence}
    {erasedAt : TimestampMillis} {item : MemoryItemRow}
    (h : eraseSessionMemory sessionId lastSequence erasedAt t item = .ok u) :
    u.operations = t.operations := by
  obtain ⟨latest, deleted, tombstones, -, erased, -, rfl⟩ := eraseSessionMemory_eq_ok h
  exact (deleteMemoryContent_ledger erased).1

theorem DeletionFinal.eraseMemory {sessionId : SessionId} {lastSequence : SessionSequence}
    {erasedAt : TimestampMillis} {item : MemoryItemRow} (f : DeletionFinal t)
    (known : LatestStored t item)
    (h : eraseSessionMemory sessionId lastSequence erasedAt t item = .ok u) : DeletionFinal u := by
  have sound := soundFor_eraseSessionMemory f.keys known h
  have own := Erased.of_eraseSessionMemory f.keys known h
  have referenced := eraseSessionMemory_referenced f.referenced h
  obtain ⟨latest, deleted, tombstones, found, erased, inserted, rfl⟩ := eraseSessionMemory_eq_ok h
  obtain ⟨ledger, kept⟩ := deleteMemoryContent_ledger erased
  have operations : deleted.operations = t.operations := ledger
  refine ⟨sound.keys, referenced, fun row hu => ?_, fun m committed => ?_⟩
  · show ∃ operation ∈ deleted.operations, operation.memoryId = row.memoryId
    rw [operations]
    by_cases mine : row.memoryId = item.memoryId
    · obtain ⟨rev, hr, -, owner⟩ := known latest found
      obtain ⟨old, hi, same⟩ := f.keys.owned rev hr
      obtain ⟨operation, stored, recorded⟩ := f.recorded old hi
      exact ⟨operation, stored, recorded.trans (same.trans (owner.trans mine.symm))⟩
    · exact f.recorded row ((sound.agree.items row mine).mp hu)
  · by_cases mine : m = item.memoryId
    · exact mine ▸ own
    · refine (f.erased m ?_).frame sound mine
      rcases committed with ⟨operation, stored, owner, deletes⟩ | ⟨row, hr, owner⟩
      · exact .inl ⟨operation, operations ▸ stored, owner, deletes⟩
      · rcases ((insert?_eq_some inserted).1 row).mp hr with hr | rfl
        · exact .inr ⟨row, kept ▸ hr, owner⟩
        · exact absurd owner.symm mine

theorem DropsExcerpts.committed (d : DropsExcerpts t u) :
    DeletionCommitted u m ↔ DeletionCommitted t m := by
  have operations : u.operations = t.operations := by rw [d.rest]
  have tombstones : u.tombstones = t.tombstones := by rw [d.rest]
  unfold DeletionCommitted
  rw [operations, tombstones]

theorem DropsExcerpts.deletionFinal (d : DropsExcerpts t u) (f : DeletionFinal t) :
    DeletionFinal u := by
  have items : u.items = t.items := by rw [d.rest]
  have operations : u.operations = t.operations := by rw [d.rest]
  refine ⟨d.keys f.keys, d.referenced f.referenced, ?_, fun m committed => ?_⟩
  · rw [items, operations]
    exact f.recorded
  · exact d.erased (f.erased m (d.committed.mp committed))

theorem DeletionFinal.erase {sessionId : SessionId} {lastSequence : SessionSequence}
    {erasedAt : TimestampMillis} (f : DeletionFinal t)
    (h : t.eraseSessionMemoryAndEvidence sessionId lastSequence erasedAt = .ok u) :
    DeletionFinal u := by
  obtain ⟨erased, h₁, dropped⟩ := eraseSessionMemoryAndEvidence_eq_ok h
  have done : MemoryKeys erased ∧ DeletionFinal erased :=
    eraseSessionMemory_run f f.keys (latestStored_select f.keys)
      (fun s item w f _ known step => f.eraseMemory known step) h₁
  exact (dropped done.1).deletionFinal done.2

theorem DeletionCommitted.eraseMemory {sessionId : SessionId} {lastSequence : SessionSequence}
    {erasedAt : TimestampMillis} {item : MemoryItemRow} (committed : DeletionCommitted t m)
    (h : eraseSessionMemory sessionId lastSequence erasedAt t item = .ok u) :
    DeletionCommitted u m := by
  obtain ⟨latest, deleted, tombstones, -, erased, inserted, rfl⟩ := eraseSessionMemory_eq_ok h
  obtain ⟨ledger, kept⟩ := deleteMemoryContent_ledger erased
  rcases committed with ⟨operation, stored, deletes⟩ | ⟨row, hr, own⟩
  · exact .inl ⟨operation, ledger ▸ stored, deletes⟩
  · exact .inr ⟨row, ((insert?_eq_some inserted).1 row).mpr (.inl (kept ▸ hr)), own⟩

/-- A committed deletion stays in the store. -/
theorem DeletionCommitted.step (committed : DeletionCommitted t m) (k : MemoryKeys t) :
    DeletionCommitted (t.step codec action) m := by
  generalize stepped : t.step codec action = u
  cases stepped ▸ step_effect codec t action with
  | unchanged => exact committed
  | batch planned memory effect =>
    have frame := effect.frame k (fun entry he =>
      planned.introducesProposal entry.planned (List.mem_map.mpr ⟨entry, he, rfl⟩)) memory
    rcases committed with ⟨operation, stored, deletes⟩ | ⟨row, hr, own⟩
    · exact .inl ⟨operation, (frame.ledger operation).mpr (.inl stored), deletes⟩
    · exact .inr ⟨row, frame.tombstones.symm ▸ hr, own⟩
  | erased h =>
    obtain ⟨erased, h₁, dropped⟩ := eraseSessionMemoryAndEvidence_eq_ok h
    have done : MemoryKeys erased ∧ DeletionCommitted erased m :=
      eraseSessionMemory_run (I := fun s => DeletionCommitted s m) committed k
        (latestStored_select k) (fun s item w committed _ _ step => committed.eraseMemory step) h₁
    exact (dropped done.1).committed.mpr done.2

theorem DeletionFinal.step (f : DeletionFinal t) (beside : ¬ DeletesBesideOpen t action) :
    DeletionFinal (t.step codec action) := by
  generalize stepped : t.step codec action = u
  cases stepped ▸ step_effect codec t action with
  | unchanged => exact f
  | batch planned memory effect => exact f.batch planned memory beside effect
  | erased h => exact f.erase h

end Step

section Run

/-- A memory that no request can bring back: every command is rejected and no text is left. -/
structure DeletedForGood (codec : MemoryCodec) (t : MemoryTables) (m : MemoryId) : Prop where
  rejected : ∀ command occurredAt existing, command.memoryId = m →
    ∃ error, t.plan codec command occurredAt existing = .error error
  lifecycle : ∃ item ∈ t.items, item.memoryId = m ∧ item.lifecycle = .deleted
  contents : ∀ rev ∈ t.revisions, rev.memoryId = m → rev.contentId = none ∧
    ∀ blob ∈ t.blobs, blob.contentId ≠ .content rev.revisionId
  excerpts : ∀ row ∈ t.evidence, t.Belongs row.revisionId m → row.excerptContentId = none ∧
    ∀ blob ∈ t.blobs, blob.contentId ≠ .evidence row.evidenceId
  unindexed : ∀ row ∈ t.fts, row.memoryId ≠ m

theorem DeletionFinal.deletedForGood (f : DeletionFinal t) (committed : DeletionCommitted t m) :
    DeletedForGood codec t m where
  rejected command _ _ own := f.plan_rejected (own ▸ f.erased m committed)
  lifecycle := by
    obtain ⟨item, hi, own⟩ := (f.erased m committed).stored
    exact ⟨item, hi, own, ((f.erased m committed).retired item hi own).1⟩
  contents rev hr own := by
    have absent := ((f.erased m committed).closed rev hr own).2
    refine ⟨absent, fun blob hb key => ?_⟩
    rcases f.referenced blob hb with ⟨other, ho, stored⟩ | ⟨row, he, stored⟩
    · have id := f.keys.content other ho _ stored
      rw [key, ContentId.content.injEq] at id
      rw [← eq_of_key hr ho id, absent] at stored
      cases stored
    · have id := f.keys.excerpt row he _ stored
      rw [key] at id
      cases id
  excerpts row he own := by
    have absent := (f.erased m committed).excerpts row he own
    refine ⟨absent, fun blob hb key => ?_⟩
    rcases f.referenced blob hb with ⟨rev, hr, stored⟩ | ⟨other, ho, stored⟩
    · have id := f.keys.content rev hr _ stored
      rw [key] at id
      cases id
    · have id := f.keys.excerpt other ho _ stored
      rw [key, ContentId.evidence.injEq] at id
      rw [← eq_of_key he ho id, absent] at stored
      cases stored
  unindexed := (f.erased m committed).unindexed

theorem deletionFinal_empty : DeletionFinal .empty where
  keys := memoryValid_empty.keys
  referenced := by simp [Referenced, MemoryTables.empty]
  recorded := by simp [MemoryTables.empty]
  erased := by simp [DeletionCommitted, MemoryTables.empty]

theorem memoryRun_deletionFinal {actions : List MemoryAction}
    (beside : EachAfter (fun before action => ¬ DeletesBesideOpen (memoryRun codec before) action)
      actions) : DeletionFinal (memoryRun codec actions) := by
  induction actions using List.reverseRecOn with
  | nil => exact deletionFinal_empty
  | append_singleton actions action ih =>
    obtain ⟨earlier, last⟩ := eachAfter_concat_iff.mp beside
    rw [memoryRun_concat]
    exact (ih earlier).step last

theorem memoryRun_committed {before after : List MemoryAction} {m : MemoryId}
    (beside : EachAfter (fun before action => ¬ DeletesBesideOpen (memoryRun codec before) action)
      (before ++ after)) (committed : DeletionCommitted (memoryRun codec before) m) :
    DeletionCommitted (memoryRun codec (before ++ after)) m := by
  induction after using List.reverseRecOn with
  | nil => rwa [List.append_nil]
  | append_singleton after action ih =>
    rw [← List.append_assoc] at beside ⊢
    obtain ⟨earlier, -⟩ := eachAfter_concat_iff.mp beside
    rw [memoryRun_concat]
    exact (ih earlier).step (memoryRun_deletionFinal earlier).keys

/-- In a run whose deletions leave no other revision open, a deleted memory stays deleted. -/
theorem memoryRun_deletedForGood (codec : MemoryCodec) (before after : List MemoryAction)
    (m : MemoryId)
    (beside : EachAfter (fun before action => ¬ DeletesBesideOpen (memoryRun codec before) action)
      (before ++ after)) (committed : DeletionCommitted (memoryRun codec before) m) :
    DeletedForGood codec (memoryRun codec (before ++ after)) m :=
  (memoryRun_deletionFinal beside).deletedForGood (memoryRun_committed beside committed)

end Run

section Sample

def sampleRetraction : MemoryCommandEnvelope :=
  sampleMemoryCommand 4 (some ⟨6, by decide, by decide⟩) (.retractMemory (sampleId _ 1)) rfl

theorem deletedBeside_ledger : ∃ operation ∈ (memoryRun sampleMemoryCodec deletedBeside).operations.rows,
    operation.memoryId = sampleId _ 1 ∧ operation.payload = .memoryDeleted (sampleId _ 2) := by
  decide

theorem deletedBeside_retracts : ((memoryRun sampleMemoryCodec deletedBeside).plan sampleMemoryCodec
    sampleRetraction ⟨0⟩ []).isOk = true := by
  decide

theorem deletedBeside_revived : ∃ item ∈ (memoryRun sampleMemoryCodec
    (deletedBeside ++ [.command sampleRetraction ⟨0⟩ []])).items.rows,
      item.memoryId = sampleId _ 1 ∧ item.lifecycle = .retracted := by
  decide

theorem memoryRun_deleted_revived :
    DeletionCommitted (memoryRun sampleMemoryCodec deletedBeside) (sampleId _ 1) ∧
      ¬ DeletedForGood sampleMemoryCodec (memoryRun sampleMemoryCodec deletedBeside) (sampleId _ 1) ∧
      ¬ DeletedForGood sampleMemoryCodec (memoryRun sampleMemoryCodec
        (deletedBeside ++ [.command sampleRetraction ⟨0⟩ []])) (sampleId _ 1) := by
  refine ⟨?_, fun final => ?_, fun final => ?_⟩
  · obtain ⟨operation, stored, own, deletes⟩ := deletedBeside_ledger
    exact .inl ⟨operation, stored, own, _, deletes⟩
  · obtain ⟨error, rejected⟩ := final.rejected sampleRetraction ⟨0⟩ [] rfl
    have accepted := deletedBeside_retracts
    rw [rejected] at accepted
    cases accepted
  · obtain ⟨item, hi, own, deleted⟩ := final.lifecycle
    obtain ⟨other, ho, same, retracted⟩ := deletedBeside_revived
    rw [eq_of_key hi ho (own.trans same.symm), retracted] at deleted
    cases deleted

/-- The only revision is deleted. -/
def deletedAlone : List MemoryAction :=
  [sampleCreation, sampleDeletion thirdMemorySequence (sampleId _ 1)]

theorem deletedAlone_ledger : ∃ operation ∈ (memoryRun sampleMemoryCodec deletedAlone).operations.rows,
    operation.memoryId = sampleId _ 1 ∧ operation.payload = .memoryDeleted (sampleId _ 1) := by
  decide

theorem sampleCreation_alone : ∀ rev ∈ (memoryRun sampleMemoryCodec [sampleCreation]).revisions.rows,
    rev.revisionId = sampleId _ 1 := by
  decide

theorem memoryRun_deletedForGood_sample : DeletedForGood sampleMemoryCodec
    (memoryRun sampleMemoryCodec (deletedAlone ++ [sampleProposal])) (sampleId _ 1) := by
  refine memoryRun_deletedForGood _ _ _ _ ?_ ?_
  · refine eachAfter_cons_iff.mpr ⟨?_, eachAfter_cons_iff.mpr ⟨?_, eachAfter_cons_iff.mpr ⟨?_,
      eachAfter_nil⟩⟩⟩
    · rintro ⟨revisionId, hp, -⟩
      cases hp
    · rintro ⟨revisionId, hp, -, other, different, rev, hr, rfl, -⟩
      cases hp
      exact different (sampleCreation_alone rev hr)
    · rintro ⟨revisionId, hp, -⟩
      cases hp
  · obtain ⟨operation, stored, own, deletes⟩ := deletedAlone_ledger
    exact .inl ⟨operation, stored, own, _, deletes⟩

end Sample

end AutoHarness
