import AutoHarness.MemoryDeletion

namespace AutoHarness

open FallibleRun KeyedTable MemoryTables

variable {t u v : MemoryTables} {m : MemoryId} {codec : MemoryCodec}
  {entry : MemoryAppendOperation} {operation : MemoryOperationEnvelope}
  {operations : List MemoryAppendOperation} {command : MemoryCommandEnvelope}

namespace MemoryTables

/-- Every memory with the sequence of its last operation. -/
def sequences (t : MemoryTables) : List (MemoryId × Nat) :=
  t.items.rows.map fun item => (item.memoryId, item.lastSequence)

theorem mem_sequences {pair : MemoryId × Nat} :
    pair ∈ t.sequences ↔ ∃ item ∈ t.items, (item.memoryId, item.lastSequence) = pair :=
  List.mem_map

theorem sequences_unique {n n' : Nat} (h : (m, n) ∈ t.sequences) (h' : (m, n') ∈ t.sequences) :
    n = n' := by
  obtain ⟨item, hi, same⟩ := mem_sequences.mp h
  obtain ⟨other, ho, same'⟩ := mem_sequences.mp h'
  obtain ⟨id, last⟩ := Prod.mk.inj same
  obtain ⟨id', last'⟩ := Prod.mk.inj same'
  rw [← last, ← last', eq_of_key hi ho (id.trans id'.symm)]

theorem sequences_update {p : MemoryItemRow → Bool} {f : RowMap MemoryItemRow.memoryId}
    (same : ∀ row, (f.apply row).lastSequence = row.lastSequence) :
    ({ t with items := t.items.update p f } : MemoryTables).sequences = t.sequences := by
  unfold sequences update
  rw [List.map_map]
  refine List.map_congr_left fun row _ => ?_
  have id : (alter p f row).memoryId = row.memoryId := alter_congr f.keeps row
  have last : (alter p f row).lastSequence = row.lastSequence := alter_congr same row
  simp only [Function.comp_apply, id, last]

end MemoryTables

/-- A write that leaves the ledger alone, and the columns that refer to it but for those of the
given operation. -/
structure KeepsColumns (id : Option MemoryOperationId) (t u : MemoryTables) : Prop where
  sequences : u.sequences = t.sequences
  introduced : ∀ rev ∈ u.revisions,
    (∃ old ∈ t.revisions, old.introducedOperationId = rev.introducedOperationId) ∨
      id = some rev.introducedOperationId
  validated : ∀ row ∈ u.validations, row ∈ t.validations ∨ id = some row.operationId

namespace KeepsColumns

variable {id : Option MemoryOperationId}

theorem refl (t : MemoryTables) : KeepsColumns id t t :=
  ⟨rfl, fun rev hr => .inl ⟨rev, hr, rfl⟩, fun _ hv => .inl hv⟩

theorem trans (a : KeepsColumns id t u) (b : KeepsColumns id u v) : KeepsColumns id t v where
  sequences := b.sequences.trans a.sequences
  introduced rev hr := by
    rcases b.introduced rev hr with ⟨mid, hu, same⟩ | new
    · rcases a.introduced mid hu with ⟨old, ht, same'⟩ | new
      · exact .inl ⟨old, ht, same'.trans same⟩
      · exact .inr (same ▸ new)
    · exact .inr new
  validated row hv := (b.validated row hv).elim (a.validated row) .inr

theorem weaken (a : KeepsColumns none t u) : KeepsColumns id t u where
  sequences := a.sequences
  introduced rev hr := (a.introduced rev hr).imp_right nofun
  validated row hv := (a.validated row hv).imp_right nofun

theorem updateRevisions {p : MemoryRevisionRow → Bool} {f : RowMap MemoryRevisionRow.revisionId}
    (same : ∀ row, (f.apply row).introducedOperationId = row.introducedOperationId) :
    KeepsColumns none t { t with revisions := t.revisions.update p f } where
  sequences := rfl
  introduced rev hr := by
    obtain ⟨old, ht, rfl⟩ := mem_update.mp hr
    exact .inl ⟨old, ht, (alter_congr same old).symm⟩
  validated _ hv := .inl hv

theorem setState {revisionId : MemoryRevisionId} {state : MemoryRevisionStatus} :
    KeepsColumns none t (t.setState revisionId state) :=
  updateRevisions fun _ => rfl

theorem updateItem {f : RowMap MemoryItemRow.memoryId} (h : t.updateItem m f = .ok u)
    (same : ∀ row, (f.apply row).lastSequence = row.lastSequence) : KeepsColumns none t u := by
  obtain ⟨rfl, -⟩ := updateItem_eq_ok h
  exact { refl t with sequences := sequences_update same }

theorem activate {revisionId : MemoryRevisionId}
    (h : t.activateRevision m revisionId true = .ok u) : KeepsColumns none t u := by
  obtain ⟨cleared, indexed, h₁, h₂, h₃⟩ := activateRevision_eq_ok h
  have first : KeepsColumns none t cleared := by
    obtain ⟨item, -, -, ⟨rfl, -⟩ | ⟨current, -, -, rfl⟩⟩ := deactivateCurrentRevision_eq_ok h₁
    · exact refl _
    · have marked : KeepsColumns none t (t.setState current .superseded) := setState
      exact { marked with }
  have second : KeepsColumns none cleared indexed := by
    have marked : KeepsColumns none cleared (cleared.setState revisionId .active) := setState
    obtain ⟨-, -, -, -, fts, -, -, -, rfl⟩ := addRevisionToFts_eq_ok h₂
    exact { marked with }
  exact (first.trans second).trans (updateItem h₃ fun _ => rfl)

theorem delete {revisionId : MemoryRevisionId} (h : t.deleteMemoryContent m revisionId = .ok u) :
    KeepsColumns none t u := by
  have cleared : KeepsColumns none t { t with
      revisions := t.revisions.update (·.memoryId = m) withoutContent } := updateRevisions fun _ => rfl
  have first : KeepsColumns none t (t.eraseContent m) := { cleared with }
  exact (first.trans setState).trans (updateItem (deleteMemoryContent_eq_ok h) fun _ => rfl)

theorem introduce {revision : MemoryRevision} (i : Introduces operation revision t u) :
    KeepsColumns (some operation.operationId) t u where
  sequences := by
    have rows : u.sequences = ({ t with items := u.items } : MemoryTables).sequences := rfl
    rw [rows, i.items]
    exact sequences_update fun _ => rfl
  introduced rev hr := by
    rcases (i.revisions rev).mp hr with hr | rfl
    · exact .inl ⟨rev, hr, rfl⟩
    · exact .inr rfl
  validated row hv := .inl (i.validations ▸ hv)

end KeepsColumns

theorem OperationEffect.columns (effect : OperationEffect codec entry t u) :
    KeepsColumns (some entry.operation.operationId) t u := by
  cases effect with
  | introduced _ stored => exact .introduce stored
  | approved _ _ introduced => exact (KeepsColumns.introduce introduced).trans KeepsColumns.setState.weaken
  | validated _ stored =>
    obtain ⟨validations, inserted, rfl⟩ := insertValidation_eq_ok stored
    have rows := (insert?_eq_some inserted).1
    refine { KeepsColumns.refl t with validated := fun row hv => ?_ }
    rcases (rows row).mp hv with hv | rfl
    · exact .inl hv
    · exact .inr rfl
  | activated _ _ stored => exact (KeepsColumns.activate stored).weaken
  | @superseded supersededId =>
    have marked : KeepsColumns none t (t.setState supersededId .superseded) := .setState
    exact { marked.weaken with }
  | rejected _ _ stored =>
    exact (KeepsColumns.setState.trans (.updateItem stored fun _ => rfl)).weaken
  | @retracted retractedId _ _ _ stored =>
    have marked : KeepsColumns none t (t.setState retractedId .retracted) := .setState
    have first : KeepsColumns none t
        ((t.setState retractedId .retracted).removeRevisionFromFts retractedId) :=
      { marked with }
    exact (first.trans (.updateItem stored fun _ => rfl)).weaken
  | deleted _ _ stored => exact (KeepsColumns.delete stored).weaken

/-- The tables refer to operations of the ledger, whose sequences the items count. An item may be
fresh: without an operation yet. -/
structure MemoryLedger (t : MemoryTables) : Prop where
  keys : MemoryKeys t
  referenced : Referenced t
  last : ∀ id n, (id, n) ∈ t.sequences → n = 0 ∨
    ∃ operation ∈ t.operations, operation.memoryId = id ∧ operation.sequence.get = n
  bounded : ∀ operation ∈ t.operations, ∃ n, (operation.memoryId, n) ∈ t.sequences ∧
    operation.sequence.get ≤ n
  introduced : ∀ rev ∈ t.revisions, ∃ operation ∈ t.operations,
    operation.operationId = rev.introducedOperationId
  validated : ∀ row ∈ t.validations, ∃ operation ∈ t.operations,
    operation.operationId = row.operationId

/-- Every memory but the given one has an operation. -/
def StartedBut (m : MemoryId) (t : MemoryTables) : Prop :=
  ∀ id n, (id, n) ∈ t.sequences → id ≠ m → 0 < n

def Started (t : MemoryTables) : Prop := ∀ id n, (id, n) ∈ t.sequences → 0 < n

theorem mem_sequences_advanceItem {id : MemoryId} {n : Nat} :
    (id, n) ∈ (t.advanceItem operation).sequences ↔
      (id ≠ operation.memoryId ∧ (id, n) ∈ t.sequences) ∨
        (id = operation.memoryId ∧ n = operation.sequence.get ∧ ∃ old, (id, old) ∈ t.sequences) := by
  simp only [mem_sequences, Prod.mk.injEq]
  constructor
  · rintro ⟨item, hu, rfl, rfl⟩
    obtain ⟨old, hi, rfl⟩ := mem_update.mp hu
    by_cases own : old.memoryId = operation.memoryId
    · rw [alter, if_pos (by simpa using own)]
      exact .inr ⟨own, rfl, old.lastSequence, old, hi, rfl, rfl⟩
    · rw [alter, if_neg (by simpa using own)]
      exact .inl ⟨own, old, hi, rfl, rfl⟩
  · rintro (⟨other, item, hi, rfl, rfl⟩ | ⟨rfl, rfl, old, item, hi, own, -⟩)
    · refine ⟨item, mem_update.mpr ⟨item, hi, ?_⟩, rfl, rfl⟩
      rw [alter, if_neg (by simpa using other)]
    · refine ⟨_, alter_mem_update hi, ?_⟩
      simp [alter, own, advanced]

section Append

variable {base : Nat}

/-- The next operation of a memory keeps the tables tied to the ledger. -/
theorem MemoryLedger.append (l : MemoryLedger t)
    (known : (entry.operation.memoryId, base) ∈ t.sequences)
    (next : entry.operation.sequence.get = base + 1)
    (proposal : entry.operation.payload.IntroducesProposal)
    (h : appendOperation codec t entry = .ok u) :
    MemoryLedger u ∧ (entry.operation.memoryId, base + 1) ∈ u.sequences := by
  have frame := batchFrame_appendOperation l.keys proposal h
  obtain ⟨recorded, applied, inserted, effect, rfl⟩ := appendOperation_eq_ok h
  have rows := (insert?_eq_some inserted).1
  have columns := (applyOperation_effect proposal effect).columns
  have sequences : applied.sequences = t.sequences := columns.sequences
  have ledger := frame.ledger
  simp only [List.mem_singleton, exists_eq_left] at ledger
  have kept : ∀ operation ∈ t.operations, operation ∈ (applied.advanceItem entry.operation).operations :=
    fun operation ho => (ledger operation).mpr (.inl ho)
  have added : entry.operation ∈ (applied.advanceItem entry.operation).operations :=
    (ledger _).mpr (.inr rfl)
  have known' : (entry.operation.memoryId, base + 1) ∈
      (applied.advanceItem entry.operation).sequences := by
    rw [mem_sequences_advanceItem, sequences]
    exact .inr ⟨rfl, next.symm, base, known⟩
  refine ⟨⟨frame.sound.keys, frame.referenced l.referenced, ?_, ?_, ?_, ?_⟩, known'⟩
  · intro id n counted
    rw [mem_sequences_advanceItem, sequences] at counted
    rcases counted with ⟨-, counted⟩ | ⟨rfl, rfl, -⟩
    · refine (l.last id n counted).imp_right ?_
      rintro ⟨operation, ho, same⟩
      exact ⟨operation, kept operation ho, same⟩
    · exact .inr ⟨entry.operation, added, rfl, rfl⟩
  · intro operation ho
    rcases (ledger operation).mp ho with ho | rfl
    · obtain ⟨n, counted, le⟩ := l.bounded operation ho
      by_cases own : operation.memoryId = entry.operation.memoryId
      · rw [own] at counted
        have same := sequences_unique counted known
        exact ⟨base + 1, own ▸ known', by omega⟩
      · refine ⟨n, ?_, le⟩
        rw [mem_sequences_advanceItem, sequences]
        exact .inl ⟨own, counted⟩
    · exact ⟨base + 1, known', by omega⟩
  · intro rev hr
    rcases columns.introduced rev hr with ⟨old, ht, same⟩ | new
    · obtain ⟨operation, ho, id⟩ := l.introduced old ht
      exact ⟨operation, kept operation ho, id.trans same⟩
    · exact ⟨entry.operation, added, Option.some.inj new⟩
  · intro row hv
    rcases columns.validated row hv with hv | new
    · obtain ⟨operation, ho, id⟩ := l.validated row hv
      exact ⟨operation, kept operation ho, id⟩
    · exact ⟨entry.operation, added, Option.some.inj new⟩

theorem StartedBut.append (s : StartedBut entry.operation.memoryId t)
    (proposal : entry.operation.payload.IntroducesProposal)
    (h : appendOperation codec t entry = .ok u) : Started u := by
  obtain ⟨recorded, applied, -, effect, rfl⟩ := appendOperation_eq_ok h
  have columns := (applyOperation_effect proposal effect).columns
  have sequences : applied.sequences = t.sequences := columns.sequences
  intro id n counted
  rw [mem_sequences_advanceItem, sequences] at counted
  rcases counted with ⟨other, counted⟩ | ⟨-, rfl, -⟩
  · exact s id n counted other
  · exact entry.operation.sequence.positive

theorem MemoryLedger.run {prior : Option MemoryOperationId} (l : MemoryLedger t)
    (known : (command.memoryId, base) ∈ t.sequences)
    (chained : Chained codec.toFactCodec command base prior operations)
    (proposal : ∀ entry ∈ operations, entry.operation.payload.IntroducesProposal)
    (h : run (appendOperation codec) t operations = .ok u) : MemoryLedger u := by
  induction operations generalizing t base prior with
  | nil =>
    cases Except.ok.inj h
    exact l
  | cons entry rest ih =>
    obtain ⟨next, first, h⟩ := bind_eq_ok_iff.mp (run_cons t entry rest ▸ h)
    obtain ⟨linked, chained⟩ := chained
    have counted := l.append (linked.memory ▸ known) linked.sequence (proposal entry (by simp)) first
    rw [linked.memory] at counted
    exact ih counted.1 counted.2 chained (fun other ho => proposal other (by simp [ho])) h

theorem StartedBut.run {first : MemoryAppendOperation} (s : StartedBut command.memoryId t)
    (memory : ∀ entry ∈ first :: operations, entry.operation.memoryId = command.memoryId)
    (proposal : ∀ entry ∈ first :: operations, entry.operation.payload.IntroducesProposal)
    (h : run (appendOperation codec) t (first :: operations) = .ok u) : Started u := by
  induction operations generalizing t first with
  | nil =>
    obtain ⟨next, appended, h⟩ := bind_eq_ok_iff.mp (run_cons t first [] ▸ h)
    cases Except.ok.inj h
    rw [← memory first (by simp)] at s
    exact s.append (proposal first (by simp)) appended
  | cons second rest ih =>
    obtain ⟨next, appended, h⟩ := bind_eq_ok_iff.mp (run_cons t first (second :: rest) ▸ h)
    rw [← memory first (by simp)] at s
    have started := s.append (proposal first (by simp)) appended
    exact ih (fun id n counted _ => started id n counted) (fun entry he => memory entry (by simp [he]))
      (fun entry he => proposal entry (by simp [he])) h

end Append

section Open

theorem MemoryLedger.open_ (l : MemoryLedger t) (h : t.openBatch operation = .ok u) :
    MemoryLedger u ∧ u.operations = t.operations ∧
      ((u = t ∧ operation.payload.createsItem = false) ∨
        (operation.payload.createsItem = true ∧
          (∀ pair, pair ∈ u.sequences ↔ pair ∈ t.sequences ∨ pair = (operation.memoryId, 0)) ∧
          ∀ n, (operation.memoryId, n) ∉ t.sequences)) := by
  have sound := soundFor_openBatch l.keys h
  unfold openBatch insertMemoryItemShell at h
  split at h
  next creates =>
    split at h
    next scope kind revision payload =>
      split at h
      next => cases h
      next =>
        split at h
        next items inserted =>
          cases Except.ok.inj h
          obtain ⟨rows, fresh⟩ := insert?_eq_some inserted
          have counted : ∀ pair, pair ∈ ({ t with items } : MemoryTables).sequences ↔
              pair ∈ t.sequences ∨ pair = (operation.memoryId, 0) := by
            intro pair
            simp only [mem_sequences]
            constructor
            · rintro ⟨item, hu, rfl⟩
              rcases (rows item).mp hu with hi | rfl
              · exact .inl ⟨item, hi, rfl⟩
              · exact .inr rfl
            · rintro (⟨item, hi, rfl⟩ | rfl)
              · exact ⟨item, (rows item).mpr (.inl hi), rfl⟩
              · exact ⟨_, (rows _).mpr (.inr rfl), rfl⟩
          refine ⟨⟨sound.keys, l.referenced, fun id n hm => ?_, fun operation ho => ?_, l.introduced,
            l.validated⟩, rfl, .inr ⟨creates, counted, fun n hm => ?_⟩⟩
          · rcases (counted (id, n)).mp hm with hm | new
            · exact l.last id n hm
            · exact .inl (Prod.mk.inj new).2
          · obtain ⟨n, hm, le⟩ := l.bounded operation ho
            exact ⟨n, (counted _).mpr (.inl hm), le⟩
          · obtain ⟨item, hi, same⟩ := mem_sequences.mp hm
            exact fresh item hi (Prod.mk.inj same).1
        next => cases h
    next => cases h
  next idle =>
    cases Except.ok.inj h
    exact ⟨l, rfl, .inl ⟨rfl, by simpa using idle⟩⟩

end Open

section Load

theorem getLast?_of_sorted {α : Type} {f : α → Nat} {xs : List α} {x : α}
    (sorted : xs.Pairwise fun a b => f a ≤ f b) (hx : x ∈ xs) (greatest : ∀ y ∈ xs, f y ≤ f x) :
    xs.getLast?.map f = some (f x) := by
  cases final : xs.getLast? with
  | none =>
    rw [List.getLast?_eq_none_iff.mp final] at hx
    cases hx
  | some last =>
    obtain ⟨init, rfl⟩ := List.getLast?_eq_some_iff.mp final
    have upper := greatest last (by simp)
    have lower : f x ≤ f last := by
      rcases List.mem_append.mp hx with hx | hx
      · exact (List.pairwise_append.mp sorted).2.2 x hx last (by simp)
      · rw [List.mem_singleton.mp hx]
    simp only [Option.map_some, Option.some.injEq]
    omega

/-- The last loaded operation carries the sequence that the item counts. -/
theorem lastSequenceOf_load (l : MemoryLedger t) (s : Started t) :
    lastSequenceOf (t.loadMemoryOperations m) = t.currentMemorySequence m := by
  have listed : ∀ operation, operation ∈ t.loadMemoryOperations m ↔
      operation ∈ t.operations ∧ operation.memoryId = m := by
    intro operation
    simp [loadMemoryOperations]
  have sorted : (t.loadMemoryOperations m).Pairwise fun a b => a.sequence.get ≤ b.sequence.get :=
    List.pairwise_insertionSort _ _
  unfold lastSequenceOf currentMemorySequence
  cases found : t.items.find? m with
  | none =>
    have empty : t.loadMemoryOperations m = [] := by
      refine List.eq_nil_iff_forall_not_mem.mpr fun operation hm => ?_
      obtain ⟨ho, own⟩ := (listed operation).mp hm
      obtain ⟨n, counted, -⟩ := l.bounded operation ho
      obtain ⟨item, hi, same⟩ := mem_sequences.mp counted
      exact find?_eq_none_iff.mp found item hi ((Prod.mk.inj same).1.trans own)
    simp [empty]
  | some item =>
    obtain ⟨hi, own⟩ := find?_eq_some_iff.mp found
    have counted : (m, item.lastSequence) ∈ t.sequences := mem_sequences.mpr ⟨item, hi, by rw [own]⟩
    have positive := s _ _ counted
    rcases l.last _ _ counted with none_ | ⟨operation, ho, mine, number⟩
    · omega
    · have hm := (listed operation).mpr ⟨ho, mine⟩
      have greatest : ∀ other ∈ t.loadMemoryOperations m,
          other.sequence.get ≤ operation.sequence.get := by
        intro other hl
        obtain ⟨ho', own'⟩ := (listed other).mp hl
        obtain ⟨n, counted', upper⟩ := l.bounded other ho'
        rw [own'] at counted'
        have same := sequences_unique counted' counted
        omega
      rw [getLast?_of_sorted (f := fun operation => operation.sequence.get) sorted hm greatest]
      simp [number]

theorem currentMemorySequence_mem (positive : t.currentMemorySequence m ≠ 0) :
    (m, t.currentMemorySequence m) ∈ t.sequences := by
  unfold currentMemorySequence at positive ⊢
  cases found : t.items.find? m with
  | none => simp [found] at positive
  | some item =>
    obtain ⟨hi, own⟩ := find?_eq_some_iff.mp found
    exact mem_sequences.mpr ⟨item, hi, by rw [own]; rfl⟩

end Load

section Batch

variable {occurredAt : TimestampMillis} {stored : List MemoryOperationEnvelope}
  {revisions : List MemoryRevision} {planned : List PlannedOperation}
  {request : MemoryAppendBatchRequest}

theorem AdmittedBatch.head_creates {codec : FactCodec}
    (h : AdmittedBatch codec command occurredAt stored revisions planned) :
    ∃ p rest, planned = p :: rest ∧ p.1.createsItem = command.payload.createsItem := by
  cases h with
  | create hp | createActive hp | propose hp | revise hp | approve hp | reject hp | retract hp
  | delete hp => exact ⟨_, _, rfl, by rw [hp]; rfl⟩

theorem Planned.head_creates {codec : FactCodec}
    (h : Planned codec command occurredAt stored revisions request) :
    ∃ first rest, request.operations = first :: rest ∧
      first.operation.payload.createsItem = command.payload.createsItem := by
  obtain ⟨p, rest, listed, creates⟩ := h.admitted.head_creates
  obtain ⟨first, rest, split, rfl, -⟩ := List.map_eq_cons_iff.mp listed
  exact ⟨first, rest, split, creates⟩

theorem Planned.proposals {codec : FactCodec}
    (h : Planned codec command occurredAt stored revisions request) :
    ∀ entry ∈ request.operations, entry.operation.payload.IntroducesProposal :=
  fun entry he => h.admitted.toPlanned.introducesProposal entry.planned
    (List.mem_map.mpr ⟨entry, he, rfl⟩)

/-- The state in which a planned batch is applied: its memory is there, and counted up to the
sequence that the plan starts from. -/
theorem MemoryLedger.opened {first : MemoryAppendOperation} {rest : List MemoryAppendOperation}
    (l : MemoryLedger t) (s : Started t)
    (h : Planned codec.toFactCodec command occurredAt (t.loadMemoryOperations command.memoryId)
      revisions request) (listed : request.operations = first :: rest)
    (opened : t.openBatch first.operation = .ok u) :
    MemoryLedger u ∧ StartedBut command.memoryId u ∧
      (command.memoryId, request.expectedLastSequence) ∈ u.sequences := by
  obtain ⟨head, tail, split, creates⟩ := h.head_creates
  rw [listed] at split
  cases split
  have memory : first.operation.memoryId = command.memoryId :=
    h.memory first (by simp [listed])
  obtain ⟨ledger, -, ⟨rfl, idle⟩ | ⟨creating, counted, -⟩⟩ := l.open_ opened
  · refine ⟨ledger, fun id n hm _ => s id n hm, ?_⟩
    have positive : lastSequenceOf (u.loadMemoryOperations command.memoryId) ≠ 0 := by
      have none_ := h.creates
      rw [← creates, idle] at none_
      simpa using none_.symm
    rw [lastSequenceOf_load l s] at positive
    rw [h.base, lastSequenceOf_load l s]
    exact currentMemorySequence_mem positive
  · have zero : lastSequenceOf (t.loadMemoryOperations command.memoryId) = 0 := by
      have some_ := h.creates
      rw [← creates, creating] at some_
      simpa using some_.symm
    refine ⟨ledger, fun id n hm other => ?_, ?_⟩
    · rcases (counted (id, n)).mp hm with hm | new
      · exact s id n hm
      · exact absurd ((Prod.mk.inj new).1.trans memory) other
    · rw [h.base, zero, ← memory]
      exact (counted _).mpr (.inr rfl)

theorem MemoryLedger.batch (l : MemoryLedger t) (s : Started t)
    (h : Planned codec.toFactCodec command occurredAt (t.loadMemoryOperations command.memoryId)
      revisions request) (effect : BatchEffect codec request.operations t u) :
    MemoryLedger u ∧ Started u := by
  obtain ⟨first, opened, applied, generation, mutationGeneration, listed, h₀, h₁, rfl⟩ := effect
  obtain ⟨rest, split⟩ := List.head?_eq_some_iff.mp listed
  obtain ⟨ledger, started, known⟩ := l.opened s h split h₀
  have chained := h.chained
  rw [← h.base] at chained
  have done := ledger.run known chained h.proposals h₁
  have memory := h.memory
  have proposals := h.proposals
  rw [split] at h₁ memory proposals
  have counted : Started applied := started.run memory proposals h₁
  exact ⟨{ done with keys := { done.keys with } }, counted⟩

end Batch

section Erase

variable {sessionId : SessionId} {lastSequence : SessionSequence} {erasedAt : TimestampMillis}
  {item : MemoryItemRow}

theorem MemoryLedger.of_columns (l : MemoryLedger t) (keys : MemoryKeys u) (referenced : Referenced u)
    (columns : KeepsColumns none t u) (operations : u.operations = t.operations) :
    MemoryLedger u where
  keys := keys
  referenced := referenced
  last id n counted := by
    rw [operations]
    exact l.last id n (columns.sequences ▸ counted)
  bounded operation ho := by
    rw [columns.sequences]
    exact l.bounded operation (operations ▸ ho)
  introduced rev hr := by
    rw [operations]
    rcases columns.introduced rev hr with ⟨old, ht, same⟩ | new
    · rw [← same]
      exact l.introduced old ht
    · cases new
  validated row hv := by
    rw [operations]
    rcases columns.validated row hv with hv | new
    · exact l.validated row hv
    · cases new

theorem KeepsColumns.eraseMemory
    (h : eraseSessionMemory sessionId lastSequence erasedAt t item = .ok u) :
    KeepsColumns none t u := by
  obtain ⟨latest, deleted, tombstones, -, erased, -, rfl⟩ := eraseSessionMemory_eq_ok h
  have marked : KeepsColumns none deleted { deleted with
      revisions := deleted.revisions.update (·.memoryId = item.memoryId) (withState .deleted) } :=
    .updateRevisions fun _ => rfl
  exact (KeepsColumns.delete erased).trans { marked with }

theorem DropsExcerpts.columns (d : DropsExcerpts t u) : KeepsColumns none t u := by
  rw [d.rest]
  exact { KeepsColumns.refl t with }

theorem MemoryLedger.erase (l : MemoryLedger t)
    (h : t.eraseSessionMemoryAndEvidence sessionId lastSequence erasedAt = .ok u) :
    MemoryLedger u ∧ u.sequences = t.sequences ∧ u.operations = t.operations := by
  obtain ⟨erased, h₁, dropped⟩ := eraseSessionMemoryAndEvidence_eq_ok h
  have done : MemoryKeys erased ∧ (MemoryLedger erased ∧ KeepsColumns none t erased ∧
      erased.operations = t.operations) := by
    refine eraseSessionMemory_run
      (I := fun s => MemoryLedger s ∧ KeepsColumns none t s ∧ s.operations = t.operations)
      ⟨l, .refl t, rfl⟩ l.keys (latestStored_select l.keys) ?_ h₁
    rintro s item w ⟨ledger, columns, same⟩ k known step
    have next := KeepsColumns.eraseMemory step
    have operations := eraseSessionMemory_operations step
    refine ⟨?_, columns.trans next, operations.trans same⟩
    exact ledger.of_columns (soundFor_eraseSessionMemory k known step).keys
      (eraseSessionMemory_referenced ledger.referenced step) next operations
  obtain ⟨keys, ledger, columns, same⟩ := done
  have drops := dropped keys
  have operations : u.operations = erased.operations := by rw [drops.rest]
  refine ⟨?_, drops.columns.sequences.trans columns.sequences, operations.trans same⟩
  exact ledger.of_columns (drops.keys keys) (drops.referenced ledger.referenced) drops.columns operations

end Erase

section Run

/-- The commands of a run. -/
def MemoryAction.command? : MemoryAction → Option MemoryCommandEnvelope
  | .command command _ _ => some command
  | .eraseSession .. => none

/-- Every stored operation stems from a command of the run whose first operation is stored. -/
def Sourced (codec : FactCodec) (commands : List MemoryCommandEnvelope) (t : MemoryTables) : Prop :=
  ∀ operation ∈ t.operations, ∃ command ∈ commands,
    (∃ stage, operation.operationId = operationId codec command stage) ∧
      ∃ first ∈ t.operations, first.causation = .command command.commandId

theorem Chained.linked {codec : FactCodec} {base : Nat} {prior : Option MemoryOperationId}
    (chained : Chained codec command base prior operations) (he : entry ∈ operations) :
    ∃ base prior, Linked codec command base prior entry.operation := by
  induction operations generalizing base prior with
  | nil => cases he
  | cons first rest ih =>
    rcases List.mem_cons.mp he with rfl | he
    · exact ⟨base, prior, chained.1⟩
    · exact ih chained.2 he

/-- What holds of the tables after every run. -/
structure MemoryReached (codec : MemoryCodec) (actions : List MemoryAction) (t : MemoryTables) :
    Prop where
  ledger : MemoryLedger t
  started : Started t
  sourced : Sourced codec.toFactCodec (actions.filterMap MemoryAction.command?) t

theorem Sourced.mono {codec : FactCodec} {commands more : List MemoryCommandEnvelope}
    (s : Sourced codec commands t) (operations : u.operations = t.operations) :
    Sourced codec (commands ++ more) u := by
  intro operation ho
  rw [operations] at ho ⊢
  obtain ⟨command, hc, rest⟩ := s operation ho
  exact ⟨command, List.mem_append_left _ hc, rest⟩

theorem MemoryReached.step {actions : List MemoryAction} {action : MemoryAction}
    (r : MemoryReached codec actions t) :
    MemoryReached codec (actions ++ [action]) (t.step codec action) := by
  have unchanged : MemoryReached codec (actions ++ [action]) t := by
    refine ⟨r.ledger, r.started, ?_⟩
    rw [List.filterMap_append]
    exact r.sourced.mono rfl
  cases action with
  | command command occurredAt existing =>
    unfold MemoryTables.step
    dsimp only
    split
    next => exact unchanged
    next plan accepted =>
      have planned := planMemoryCommand_planned accepted
      split
      next => exact unchanged
      next receipt next_ appended =>
        rcases appendMemoryBatch_effect appended with rfl | effect
        · exact unchanged
        · have frame := effect.frame r.ledger.keys planned.proposals planned.memory
          obtain ⟨ledger, started⟩ := r.ledger.batch r.started planned effect
          refine ⟨ledger, started, fun operation ho => ?_⟩
          rw [List.filterMap_append]
          rcases (frame.ledger operation).mp ho with ho | ⟨entry, he, rfl⟩
          · obtain ⟨earlier, hc, stage, first, hf, cause⟩ := r.sourced operation ho
            exact ⟨earlier, List.mem_append_left _ hc, stage, first,
              (frame.ledger first).mpr (.inl hf), cause⟩
          · obtain ⟨base, prior, linked⟩ := planned.chained.linked he
            obtain ⟨first, rest, listed, -⟩ := planned.head_creates
            have chained := planned.chained
            rw [listed] at chained
            refine ⟨command, by simp [MemoryAction.command?], ⟨_, linked.id⟩, first.operation, ?_,
              chained.1.causation⟩
            exact (frame.ledger _).mpr (.inr ⟨first, by simp [listed], rfl⟩)
  | eraseSession sessionId lastSequence erasedAt =>
    unfold MemoryTables.step
    dsimp only
    split
    next => exact unchanged
    next next_ erased =>
      obtain ⟨ledger, sequences, operations⟩ := r.ledger.erase erased
      refine ⟨ledger, fun id n counted => r.started id n (sequences ▸ counted), ?_⟩
      rw [List.filterMap_append]
      exact r.sourced.mono operations

theorem memoryRun_reached (codec : MemoryCodec) (actions : List MemoryAction) :
    MemoryReached codec actions (memoryRun codec actions) := by
  induction actions using List.reverseRecOn with
  | nil =>
    have empty : (MemoryTables.empty).sequences = [] := rfl
    refine ⟨⟨memoryValid_empty.keys, ?_, ?_, ?_, ?_, ?_⟩, ?_, ?_⟩ <;>
      simp [memoryRun, Referenced, Started, Sourced, empty] <;> simp [MemoryTables.empty]
  | append_singleton actions action ih =>
    rw [memoryRun_concat]
    exact ih.step

end Run

end AutoHarness
