import AutoHarness.MemoryPlanned
import AutoHarness.MemoryWrites

namespace AutoHarness

open FallibleRun KeyedTable MemoryTables

variable {t u v : MemoryTables} {m : MemoryId} {codec : MemoryCodec}
  {entry : MemoryAppendOperation} {operation : MemoryOperationEnvelope}

theorem soundFor_advanceItem (k : MemoryKeys t) :
    SoundFor operation.memoryId t (t.advanceItem operation) := by
  refine ⟨{ AgreeOutside.refl _ t with items := ?_ }, { k with
    owned := ?_, current := ?_, latest := ?_, numbered := ?_, checked := ?_ }⟩
  · intro item other
    exact mem_update_of_ne (φ := MemoryItemRow.memoryId) (fun row _ same => by simpa using same)
      (fun _ => rfl) other
  · intro rev hr
    obtain ⟨item, hi, own⟩ := k.owned rev hr
    exact ⟨_, alter_mem_update hi, (alter_congr (fun _ => rfl) item).trans own⟩
  · exact (forall_mem_update (φ := fun item : MemoryItemRow => (item.memoryId, item.activeRevisionId))
      (P := fun columns => ∀ id, columns.2 = some id → t.Belongs id columns.1) fun _ => rfl).mpr
        k.current
  · exact (forall_mem_update (φ := fun item : MemoryItemRow => (item.memoryId, item.latestRevisionId))
      (P := fun columns => ∀ id, columns.2 = some id → t.Belongs id columns.1) fun _ => rfl).mpr
        k.latest
  · exact (forall_mem_update (φ := fun item : MemoryItemRow => (item.memoryId, item.latestRevision))
      (P := fun columns => ∀ n,
        (∃ rev ∈ t.revisions, rev.memoryId = columns.1 ∧ rev.metadata.revision.get = n) ↔
          1 ≤ n ∧ n ≤ columns.2) fun _ => rfl).mpr k.numbered
  · exact (forall_mem_update (φ := MemoryItemRow.check) (P := fun check => check = true)
      fun _ => rfl).mpr k.checked

theorem insertOperation_eq_ok (h : t.insertOperation operation = .ok u) :
    ∃ operations, t.operations.insert? operation = some operations ∧ u = { t with operations } := by
  unfold insertOperation at h
  split at h
  next => cases h
  next =>
    split at h
    next operations inserted => exact ⟨operations, inserted, (Except.ok.inj h).symm⟩
    next => cases h

theorem appendOperation_eq_ok (h : appendOperation codec t entry = .ok u) :
    ∃ operations applied, t.operations.insert? entry.operation = some operations ∧
      ({ t with operations } : MemoryTables).applyOperation codec entry false = .ok applied ∧
      u = applied.advanceItem entry.operation := by
  unfold appendOperation at h
  obtain ⟨_, -, h⟩ := bind_eq_ok_iff.mp h
  obtain ⟨_, inserted, h⟩ := bind_eq_ok_iff.mp h
  obtain ⟨operations, stored, rfl⟩ := insertOperation_eq_ok inserted
  obtain ⟨applied, effect, h⟩ := bind_eq_ok_iff.mp h
  exact ⟨operations, applied, stored, effect, (Except.ok.inj h).symm⟩

theorem soundFor_appendOperation (k : MemoryKeys t)
    (proposal : entry.operation.payload.IntroducesProposal)
    (h : appendOperation codec t entry = .ok u) : SoundFor entry.operation.memoryId t u := by
  obtain ⟨operations, applied, -, effect, rfl⟩ := appendOperation_eq_ok h
  have recorded : SoundFor entry.operation.memoryId t { t with operations } :=
    ⟨{ AgreeOutside.refl _ t with }, { k with }⟩
  have second := recorded.trans ((applyOperation_effect proposal effect).soundFor recorded.keys)
  exact second.trans (soundFor_advanceItem second.keys)

theorem openBatch_eq_ok (h : t.openBatch operation = .ok u) :
    (u = t ∧ operation.payload.createsItem = false) ∨
      ∃ row items, t.items.insert? row = some items ∧ u = { t with items } ∧
      row.memoryId = operation.memoryId ∧ row.lifecycle = .proposed ∧ row.latestRevision = 0 ∧
      row.latestRevisionId = none ∧ row.activeRevisionId = none ∧ operation.payload.createsItem = true := by
  unfold openBatch at h
  split at h
  next creates =>
    unfold insertMemoryItemShell at h
    split at h
    next =>
      split at h
      next => cases h
      next =>
        split at h
        next items inserted =>
          exact .inr ⟨_, items, inserted, (Except.ok.inj h).symm, rfl, rfl, rfl, rfl, rfl, creates⟩
        next => cases h
    next => cases h
  next idle => exact .inl ⟨(Except.ok.inj h).symm, by simpa using idle⟩

theorem soundFor_openBatch (k : MemoryKeys t) (h : t.openBatch operation = .ok u) :
    SoundFor operation.memoryId t u := by
  obtain ⟨rfl, -⟩ | ⟨row, items, inserted, rfl, memory, lifecycle, latest, unset, idle, -⟩ :=
    openBatch_eq_ok h
  · exact ⟨.refl _ u, k⟩
  · obtain ⟨rows, fresh⟩ := insert?_eq_some inserted
    refine ⟨{ AgreeOutside.refl _ t with items := ?_ }, { k with
      owned := ?_, current := ?_, latest := ?_, numbered := ?_, checked := ?_ }⟩
    · intro item other
      refine (rows item).trans (or_iff_left ?_)
      rintro rfl
      exact other memory
    · intro rev hr
      obtain ⟨item, hi, own⟩ := k.owned rev hr
      exact ⟨item, (rows item).mpr (.inl hi), own⟩
    · intro item hu id active
      rcases (rows item).mp hu with hi | rfl
      · exact k.current item hi id active
      · simp [idle] at active
    · intro item hu id last
      rcases (rows item).mp hu with hi | rfl
      · exact k.latest item hi id last
      · simp [unset] at last
    · intro item hu n
      rcases (rows item).mp hu with hi | rfl
      · exact k.numbered item hi n
      · refine iff_of_false ?_ (by omega)
        rintro ⟨rev, hr, own, -⟩
        obtain ⟨other, hi, same⟩ := k.owned rev hr
        exact fresh other hi (same.trans own)
    · intro item hu
      rcases (rows item).mp hu with hi | rfl
      · exact k.checked item hi
      · simp [MemoryItemRow.check, lifecycle, idle]

theorem closeBatch_eq_ok {changed : Bool} (h : t.closeBatch changed = .ok u) :
    ∃ generation mutationGeneration, u = { t with generation, mutationGeneration } := by
  have mutated : ∀ {s w : MemoryTables}, s.incrementMutationGeneration = .ok w →
      ∃ mutationGeneration, w = { s with mutationGeneration } := by
    intro s w hw
    unfold incrementMutationGeneration at hw
    split at hw
    next => exact ⟨_, (Except.ok.inj hw).symm⟩
    next => cases hw
  unfold closeBatch at h
  split at h
  next =>
    obtain ⟨counted, h₁, h⟩ := bind_eq_ok_iff.mp h
    unfold incrementGeneration at h₁
    split at h₁
    next =>
      cases Except.ok.inj h₁
      obtain ⟨mutationGeneration, rfl⟩ := mutated h
      exact ⟨_, mutationGeneration, rfl⟩
    next => cases h₁
  next =>
    obtain ⟨mutationGeneration, rfl⟩ := mutated h
    exact ⟨t.generation, mutationGeneration, rfl⟩

/-- The writes of a committed batch, without the counters. -/
def BatchEffect (codec : MemoryCodec) (operations : List MemoryAppendOperation)
    (t u : MemoryTables) : Prop :=
  ∃ first opened applied generation mutationGeneration,
    operations.head? = some first ∧ t.openBatch first.operation = .ok opened ∧
      run (appendOperation codec) opened operations = .ok applied ∧
      u = { applied with generation, mutationGeneration }

theorem encodeAndValidateBatch_head {request : MemoryAppendBatchRequest}
    (h : encodeAndValidateBatch codec request = .ok operation) :
    ∃ first, request.operations.head? = some first ∧ operation = first.operation := by
  unfold encodeAndValidateBatch at h
  split at h
  next => cases h
  next first rest listed =>
    obtain ⟨_, -, h⟩ := bind_eq_ok_iff.mp h
    exact ⟨first, by rw [listed]; rfl, (Except.ok.inj h).symm⟩

theorem commitBatch_effect {first : MemoryAppendOperation} {operations : List MemoryAppendOperation}
    (listed : operations.head? = some first)
    (h : t.commitBatch codec first.operation operations = .ok u) :
    BatchEffect codec operations t u := by
  unfold commitBatch at h
  obtain ⟨opened, h₁, h⟩ := bind_eq_ok_iff.mp h
  obtain ⟨applied, h₂, h⟩ := bind_eq_ok_iff.mp h
  obtain ⟨generation, mutationGeneration, rfl⟩ := closeBatch_eq_ok h
  exact ⟨first, opened, applied, generation, mutationGeneration, listed, h₁, h₂, rfl⟩

theorem appendMemoryBatch_effect {request : MemoryAppendBatchRequest}
    {receipt : MemoryAppendReceipt} (h : t.appendMemoryBatch codec request = .ok (receipt, u)) :
    u = t ∨ BatchEffect codec request.operations t u := by
  unfold appendMemoryBatch at h
  obtain ⟨first, encoded, h⟩ := bind_eq_ok_iff.mp h
  obtain ⟨existing, -, h⟩ := bind_eq_ok_iff.mp h
  split at h
  next =>
    obtain ⟨_, -, h⟩ := bind_eq_ok_iff.mp h
    cases Except.ok.inj h
    exact .inl rfl
  next =>
    split at h
    next => cases h
    next =>
      obtain ⟨_, -, h⟩ := bind_eq_ok_iff.mp h
      obtain ⟨committed, written, h⟩ := bind_eq_ok_iff.mp h
      cases Except.ok.inj h
      obtain ⟨entry, listed, rfl⟩ := encodeAndValidateBatch_head encoded
      exact .inr (commitBatch_effect listed written)

end AutoHarness
