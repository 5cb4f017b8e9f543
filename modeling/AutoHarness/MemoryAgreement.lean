import AutoHarness.MemoryEncoding

namespace AutoHarness

open FallibleRun KeyedTable MemoryTables

variable {t u : MemoryTables} {codec : MemoryCodec} {command : MemoryCommandEnvelope}
  {base : Nat} {prior : Option MemoryOperationId} {entry : MemoryAppendOperation}
  {rest entries : List MemoryAppendOperation}

section Batch

variable {occurredAt : TimestampMillis} {stored : List MemoryOperationEnvelope}
  {draft : MemoryRevisionDraft} {request : MemoryAppendBatchRequest}

theorem requireNextRevision_number {m : MemoryId} {item : MemoryItemRow} (k : MemoryKeys t)
    (hi : item ∈ t.items) (own : item.memoryId = m)
    (h : requireNextRevision (t.loadMemoryRevisions m) draft = .ok ()) :
    draft.revision.get = item.latestRevision + 1 := by
  have expected : draft.revision.get =
      (((t.loadMemoryRevisions m).getLast?.map fun revision => revision.revision.get + 1).getD 1) := by
    simp only [requireNextRevision] at h
    split at h
    next accepted => exact accepted.1
    next => cases h
  rw [expected]
  have sorted : (t.loadMemoryRevisions m).Pairwise fun a b => a.revision.get ≤ b.revision.get := by
    unfold loadMemoryRevisions
    rw [List.pairwise_map]
    exact List.pairwise_insertionSort _ _
  have listed : ∀ revision ∈ t.loadMemoryRevisions m, ∃ rev ∈ t.revisions, rev.memoryId = m ∧
      rev.metadata.revision.get = revision.revision.get := by
    intro revision hm
    simp only [loadMemoryRevisions, List.mem_map, List.mem_insertionSort, mem_select,
      decide_eq_true_eq] at hm
    obtain ⟨row, ⟨hr, memory⟩, rfl⟩ := hm
    exact ⟨row, hr, memory, rfl⟩
  have bounded : ∀ revision ∈ t.loadMemoryRevisions m, revision.revision.get ≤ item.latestRevision := by
    intro revision hm
    obtain ⟨rev, hr, memory, number⟩ := listed revision hm
    exact ((k.numbered item hi _).mp ⟨rev, hr, memory.trans own.symm, number⟩).2
  by_cases none_ : item.latestRevision = 0
  · have empty : t.loadMemoryRevisions m = [] := by
      refine List.eq_nil_iff_forall_not_mem.mpr fun revision hm => ?_
      have positive := revision.revision.positive
      have upper := bounded revision hm
      omega
    simp [empty, none_]
  · obtain ⟨rev, hr, memory, number⟩ := (k.numbered item hi item.latestRevision).mpr ⟨by omega, le_rfl⟩
    have hm : rev.metadata.withStatus rev.state ∈ t.loadMemoryRevisions m := by
      simp only [loadMemoryRevisions, List.mem_map, List.mem_insertionSort, mem_select,
        decide_eq_true_eq]
      exact ⟨rev, ⟨hr, memory.trans own⟩, rfl⟩
    have last := getLast?_of_sorted (f := fun revision => revision.revision.get) sorted hm
      fun other ho => by
        have upper := bounded other ho
        change other.revision.get ≤ rev.metadata.revision.get
        omega
    obtain ⟨final, found, same⟩ := Option.map_eq_some_iff.mp last
    change final.revision.get = rev.metadata.revision.get at same
    simp only [found, Option.map_some, Option.getD_some]
    omega

/-- What the store takes for granted of a command and its plan: room for the draft, a first
revision that is numbered so, and sizes within their limits. -/
structure CommandRoom (codec : MemoryCodec) (t : MemoryTables) (command : MemoryCommandEnvelope)
    (request : MemoryAppendBatchRequest) : Prop where
  draft : ∀ draft, command.payload.draft? = some draft → DraftRoom codec t draft
  first : ∀ scope kind draft, command.payload = .createMemory scope kind draft → draft.revision.get = 1
  operations : ∀ entry ∈ request.operations,
    codec.operationBytes entry.operation ≤ maxMemoryOperationBytes
  validations : ∀ entry ∈ request.operations, ∀ id validation,
    entry.operation.payload = .revisionValidated id validation →
      codec.validationBytes validation ≤ 65536
  generation : t.generation < maxSequence
  mutationGeneration : t.mutationGeneration < maxSequence

theorem hasState_exists {m : MemoryId} {id : MemoryRevisionId} {states : List MemoryRevisionStatus}
    (h : t.HasState id m states) : ∀ other, some id = some other →
      ∃ rev ∈ t.revisions, rev.revisionId = other := by
  intro other same
  cases Option.some.inj same
  obtain ⟨rev, hr, named, -⟩ := h
  exact ⟨rev, hr, named⟩

/-- The operations of an admitted batch go through one after the other. -/
theorem Ready.batch {revisions : List MemoryRevision} (r : Ready codec command base none entries t)
    (batch : AdmittedBatch codec.toFactCodec command occurredAt stored revisions
      (entries.map MemoryAppendOperation.planned))
    (room : ∀ draft, command.payload.draft? = some draft → DraftRoom codec t draft)
    (number : ∀ draft, command.payload.draft? = some draft → ∃ item ∈ t.items,
      item.memoryId = command.memoryId ∧ draft.revision.get = item.latestRevision + 1)
    (states : ∀ id states, HasRevision revisions id states → t.HasState id command.memoryId states)
    (short : ∀ entry ∈ entries, ∀ id validation,
      entry.operation.payload = .revisionValidated id validation →
        codec.validationBytes validation ≤ 65536) :
    ∃ u, run (appendOperation codec) t entries = .ok u := by
  have finished : ∀ u : MemoryTables, ∃ w, run (appendOperation codec) u [] = .ok w :=
    fun u => ⟨u, rfl⟩
  generalize shape : entries.map MemoryAppendOperation.planned = planned at batch
  cases batch with
  | @create scope kind draft validation hp first admitted =>
    obtain ⟨entry₁, rest, rfl, p₁, shape⟩ := List.map_eq_cons_iff.mp shape
    obtain ⟨entry₂, rest, rfl, p₂, shape⟩ := List.map_eq_cons_iff.mp shape
    cases List.map_eq_nil_iff.mp shape
    have draft? : command.payload.draft? = some draft := by rw [hp]; rfl
    obtain ⟨s₁, h₁, r₁, stored₁, -⟩ := r.introduce (room draft draft?)
      (.inl ⟨scope, kind, (planned_eq p₁).1⟩) (planned_eq p₁).2 (number draft draft?) nofun
    obtain ⟨s₂, h₂, -, -, -⟩ := r₁.validate (planned_eq p₂).1 stored₁ admitted.validated.symm
      (short entry₂ (by simp) _ _ (planned_eq p₂).1)
    exact run_cons_ok h₁ (run_cons_ok h₂ (finished s₂))
  | @createActive scope kind draft validation hp first admitted accepted =>
    obtain ⟨entry₁, rest, rfl, p₁, shape⟩ := List.map_eq_cons_iff.mp shape
    obtain ⟨entry₂, rest, rfl, p₂, shape⟩ := List.map_eq_cons_iff.mp shape
    obtain ⟨entry₃, rest, rfl, p₃, shape⟩ := List.map_eq_cons_iff.mp shape
    cases List.map_eq_nil_iff.mp shape
    have draft? : command.payload.draft? = some draft := by rw [hp]; rfl
    obtain ⟨s₁, h₁, r₁, stored₁, -⟩ := r.introduce (room draft draft?)
      (.inl ⟨scope, kind, (planned_eq p₁).1⟩) (planned_eq p₁).2 (number draft draft?) nofun
    obtain ⟨s₂, h₂, r₂, stored₂, -⟩ := r₁.validate (planned_eq p₂).1 stored₁
      admitted.validated.symm (short entry₂ (by simp) _ _ (planned_eq p₂).1)
    obtain ⟨s₃, h₃, -⟩ := r₂.activate (planned_eq p₃).1 stored₂
    exact run_cons_ok h₁ (run_cons_ok h₂ (run_cons_ok h₃ (finished s₃)))
  | @propose draft prior validation hp known next admitted =>
    obtain ⟨entry₁, rest, rfl, p₁, shape⟩ := List.map_eq_cons_iff.mp shape
    obtain ⟨entry₂, rest, rfl, p₂, shape⟩ := List.map_eq_cons_iff.mp shape
    cases List.map_eq_nil_iff.mp shape
    have draft? : command.payload.draft? = some draft := by rw [hp]; rfl
    obtain ⟨s₁, h₁, r₁, stored₁, -⟩ := r.introduce (room draft draft?)
      (.inr (.inl (planned_eq p₁).1)) (planned_eq p₁).2 (number draft draft?)
      (hasState_exists (states _ _ known))
    obtain ⟨s₂, h₂, -, -, -⟩ := r₁.validate (planned_eq p₂).1 stored₁ admitted.validated.symm
      (short entry₂ (by simp) _ _ (planned_eq p₂).1)
    exact run_cons_ok h₁ (run_cons_ok h₂ (finished s₂))
  | @revise draft prior validation hp known next admitted accepted =>
    obtain ⟨entry₁, rest, rfl, p₁, shape⟩ := List.map_eq_cons_iff.mp shape
    obtain ⟨entry₂, rest, rfl, p₂, shape⟩ := List.map_eq_cons_iff.mp shape
    obtain ⟨entry₃, rest, rfl, p₃, shape⟩ := List.map_eq_cons_iff.mp shape
    obtain ⟨entry₄, rest, rfl, p₄, shape⟩ := List.map_eq_cons_iff.mp shape
    cases List.map_eq_nil_iff.mp shape
    have draft? : command.payload.draft? = some draft := by rw [hp]; rfl
    have active := states _ _ known
    obtain ⟨s₁, h₁, r₁, stored₁, kept⟩ := r.introduce (room draft draft?)
      (.inr (.inr (planned_eq p₁).1)) (planned_eq p₁).2 (number draft draft?)
      (hasState_exists active)
    obtain ⟨s₂, h₂, r₂, stored₂, same⟩ := r₁.validate (planned_eq p₂).1 stored₁
      admitted.validated.symm (short entry₂ (by simp) _ _ (planned_eq p₂).1)
    obtain ⟨s₃, h₃, r₃, successor, others⟩ := r₂.activate (planned_eq p₃).1 stored₂
    obtain ⟨rev, hr, named, owner, state⟩ := active
    have replaced : s₂.HasState prior command.memoryId [.active, .superseded] :=
      ⟨rev, same ▸ kept rev hr, named, owner, by simpa using .inl (List.mem_singleton.mp state)⟩
    have different : prior ≠ draft.revisionId := named ▸ (room draft draft?).fresh rev hr
    obtain ⟨s₄, h₄, -⟩ := r₃.supersede (planned_eq p₄).1 (others prior different replaced) successor
    exact run_cons_ok h₁ (run_cons_ok h₂ (run_cons_ok h₃ (run_cons_ok h₄ (finished s₄))))
  | @approve proposal draft prior validation hp known replaced next admitted accepted =>
    obtain ⟨entry₁, rest, rfl, p₁, shape⟩ := List.map_eq_cons_iff.mp shape
    obtain ⟨entry₂, rest, rfl, p₂, shape⟩ := List.map_eq_cons_iff.mp shape
    obtain ⟨entry₃, rest, rfl, p₃, shape⟩ := List.map_eq_cons_iff.mp shape
    obtain ⟨entry₄, rest, rfl, p₄, shape⟩ := List.map_eq_cons_iff.mp shape
    cases List.map_eq_nil_iff.mp shape
    have draft? : command.payload.draft? = some draft := by rw [hp]; rfl
    have open_ := states _ _ known
    have exists_ : ∀ other, some prior = some other → ∃ rev ∈ t.revisions, rev.revisionId = other := by
      rcases replaced with rfl | active
      · exact hasState_exists open_
      · exact hasState_exists (states _ _ active)
    obtain ⟨s₁, h₁, r₁, stored₁, kept, settled⟩ := r.approve (room draft draft?) (planned_eq p₁).1
      (planned_eq p₁).2 open_ (number draft draft?) exists_
    obtain ⟨s₂, h₂, r₂, stored₂, same⟩ := r₁.validate (planned_eq p₂).1 stored₁
      admitted.validated.symm (short entry₂ (by simp) _ _ (planned_eq p₂).1)
    obtain ⟨s₃, h₃, r₃, successor, others⟩ := r₂.activate (planned_eq p₃).1 stored₂
    have settled₂ : s₂.HasState prior command.memoryId [.active, .superseded] := by
      rcases replaced with rfl | active
      · obtain ⟨rev, hr, named, owner, state⟩ := settled
        exact ⟨rev, same ▸ hr, named, owner, by simpa using .inr (List.mem_singleton.mp state)⟩
      · obtain ⟨rev, hr, named, owner, state⟩ := states _ _ active
        obtain ⟨old, ho, named', -, state'⟩ := open_
        have apart : rev.revisionId ≠ proposal := by
          intro clash
          have equal := eq_of_key hr ho (clash.trans named'.symm)
          rw [equal, List.mem_singleton.mp state'] at state
          simp at state
        exact ⟨rev, same ▸ kept rev hr apart, named, owner,
          by simpa using .inl (List.mem_singleton.mp state)⟩
    obtain ⟨rev, hr, named⟩ := exists_ prior rfl
    have different : prior ≠ draft.revisionId := named ▸ (room draft draft?).fresh rev hr
    obtain ⟨s₄, h₄, -⟩ := r₃.supersede (planned_eq p₄).1 (others prior different settled₂) successor
    exact run_cons_ok h₁ (run_cons_ok h₂ (run_cons_ok h₃ (run_cons_ok h₄ (finished s₄))))
  | reject hp known =>
    obtain ⟨entry₁, rest, rfl, p₁, shape⟩ := List.map_eq_cons_iff.mp shape
    cases List.map_eq_nil_iff.mp shape
    have memory := r.chained.1.memory
    obtain ⟨s₁, h₁, -⟩ := r.progress fun operations _ =>
      applyOperation_rejected (planned_eq p₁).1 (memory ▸ states _ _ known)
    exact run_cons_ok h₁ (finished s₁)
  | retract hp known =>
    obtain ⟨entry₁, rest, rfl, p₁, shape⟩ := List.map_eq_cons_iff.mp shape
    cases List.map_eq_nil_iff.mp shape
    have memory := r.chained.1.memory
    obtain ⟨s₁, h₁, -⟩ := r.progress fun operations _ =>
      applyOperation_retracted (planned_eq p₁).1 (memory ▸ states _ _ known)
    exact run_cons_ok h₁ (finished s₁)
  | delete hp known =>
    obtain ⟨entry₁, rest, rfl, p₁, shape⟩ := List.map_eq_cons_iff.mp shape
    cases List.map_eq_nil_iff.mp shape
    have memory := r.chained.1.memory
    obtain ⟨s₁, h₁, -⟩ := r.progress fun operations _ =>
      applyOperation_deleted (planned_eq p₁).1 (memory ▸ states _ _ known)
    exact run_cons_ok h₁ (finished s₁)

end Batch

end AutoHarness
