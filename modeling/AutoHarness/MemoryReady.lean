import AutoHarness.MemoryProgress

namespace AutoHarness

open FallibleRun KeyedTable MemoryTables

variable {t u : MemoryTables} {codec : MemoryCodec} {command : MemoryCommandEnvelope}
  {base : Nat} {prior : Option MemoryOperationId} {entry : MemoryAppendOperation}
  {rest entries : List MemoryAppendOperation}

section Ready

/-- The cause that the next operation names can be found, or is a command new to the ledger. -/
def Caused (command : MemoryCommandEnvelope) (base : Nat) (t : MemoryTables) :
    Option MemoryOperationId → Prop
  | none => ∀ operation ∈ t.operations, operation.causation ≠ .command command.commandId
  | some id => ∃ operation ∈ t.operations, operation.operationId = id ∧
      operation.memoryId = command.memoryId ∧ operation.sequence.get = base

/-- The tables between two operations of a planned batch, with the operations still to come. -/
structure Ready (codec : MemoryCodec) (command : MemoryCommandEnvelope) (base : Nat)
    (prior : Option MemoryOperationId) (entries : List MemoryAppendOperation) (t : MemoryTables) :
    Prop where
  ledger : MemoryLedger t
  known : (command.memoryId, base) ∈ t.sequences
  caused : Caused command base t prior
  chained : Chained codec.toFactCodec command base prior entries
  proposals : ∀ entry ∈ entries, entry.operation.payload.IntroducesProposal
  distinct : (entries.map (·.operation.operationId)).Nodup
  unused : ∀ entry ∈ entries, ∀ operation ∈ t.operations,
    operation.operationId ≠ entry.operation.operationId

theorem Ready.item (r : Ready codec command base prior entries t) :
    ∃ item ∈ t.items, item.memoryId = command.memoryId := by
  obtain ⟨item, hi, same⟩ := mem_sequences.mp r.known
  exact ⟨item, hi, (Prod.mk.inj same).1⟩

theorem Ready.validateCausation (r : Ready codec command base prior (entry :: rest) t) :
    t.validateMemoryCausation entry.operation = .ok () := by
  obtain ⟨linked, -⟩ := r.chained
  unfold validateMemoryCausation
  rw [linked.causation]
  cases prior with
  | none => rfl
  | some id =>
    obtain ⟨operation, ho, same, own, number⟩ := r.caused
    have found : t.operations.find? id = some operation := find?_eq_some_iff.mpr ⟨ho, same⟩
    simp only [Option.elim_some, found]
    refine if_neg ?_
    rw [linked.memory, linked.sequence, own, number]
    rintro (other | later)
    · exact other rfl
    · omega

theorem Ready.insertOperation (r : Ready codec command base prior (entry :: rest) t) :
    ∃ operations, t.insertOperation entry.operation = .ok { t with operations } ∧
      t.operations.insert? entry.operation = some operations := by
  obtain ⟨linked, -⟩ := r.chained
  obtain ⟨operations, inserted⟩ := insert?_of_fresh (r.unused entry (by simp))
  refine ⟨operations, ?_, inserted⟩
  unfold MemoryTables.insertOperation
  rw [if_neg, inserted]
  intro clash
  obtain ⟨other, ho, shared⟩ := List.any_eq_true.mp clash
  simp only [sharesKey, Bool.or_eq_true, Bool.and_eq_true, decide_eq_true_eq] at shared
  rcases shared with ⟨own, number⟩ | cause
  · obtain ⟨n, counted, le⟩ := r.ledger.bounded other ho
    rw [own, linked.memory] at counted
    have same := sequences_unique counted r.known
    have next := linked.sequence
    rw [← number] at next
    omega
  · rw [linked.causation] at cause
    cases prior with
    | none =>
      exact r.caused other ho (of_decide_eq_true cause)
    | some id => simp at cause

/-- One operation of a planned batch is appended whenever its writes go through. -/
theorem Ready.progress (r : Ready codec command base prior (entry :: rest) t)
    (applies : ∀ operations, t.operations.insert? entry.operation = some operations →
      ∃ w, ({ t with operations } : MemoryTables).applyOperation codec entry false = .ok w) :
    ∃ u, appendOperation codec t entry = .ok u ∧
      Ready codec command (base + 1) (some entry.operation.operationId) rest u := by
  obtain ⟨operations, recorded, inserted⟩ := r.insertOperation
  obtain ⟨applied, effect⟩ := applies operations inserted
  have appended : appendOperation codec t entry = .ok (applied.advanceItem entry.operation) := by
    unfold appendOperation
    rw [r.validateCausation, ok_bind, recorded, ok_bind, effect, ok_bind]
  refine ⟨_, appended, ?_⟩
  obtain ⟨linked, chained⟩ := r.chained
  have proposal := r.proposals entry (by simp)
  have counted := r.ledger.append (linked.memory ▸ r.known) linked.sequence proposal appended
  rw [linked.memory] at counted
  have frame := batchFrame_appendOperation r.ledger.keys proposal appended
  have ledger := frame.ledger
  simp only [List.mem_singleton, exists_eq_left] at ledger
  obtain ⟨apart, distinct⟩ := List.nodup_cons.mp r.distinct
  refine ⟨counted.1, counted.2, ?_, chained, fun other ho => r.proposals other (by simp [ho]),
    distinct, fun other ho operation hu => ?_⟩
  · exact ⟨entry.operation, (ledger _).mpr (.inr rfl), rfl, linked.memory, linked.sequence⟩
  · rcases (ledger operation).mp hu with hu | rfl
    · exact r.unused other (by simp [ho]) operation hu
    · intro same
      exact apart (List.mem_map.mpr ⟨other, ho, same.symm⟩)

theorem run_cons_ok (first : appendOperation codec t entry = .ok u)
    (remaining : ∃ w, run (appendOperation codec) u rest = .ok w) :
    ∃ w, run (appendOperation codec) t (entry :: rest) = .ok w := by
  obtain ⟨w, ran⟩ := remaining
  exact ⟨w, by rw [run_cons, first, ok_bind, ran]⟩

end Ready

section Introduce

variable {m : MemoryId} {operation : MemoryOperationEnvelope} {revision : MemoryRevision}
  {draft : MemoryRevisionDraft} {occurredAt : TimestampMillis}
  {superseded : Option MemoryRevisionId}

/-- The revision that a command brings. -/
def MemoryCommandPayload.draft? : MemoryCommandPayload → Option MemoryRevisionDraft
  | .createMemory _ _ draft | .proposeRevision draft _ | .reviseMemory draft _
  | .approveProposal _ draft => some draft
  | _ => none

/-- What the store takes for granted of a draft: identities that are new to it, excerpts that match
their hashes and keys that fit their columns. -/
structure DraftRoom (codec : MemoryCodec) (t : MemoryTables) (draft : MemoryRevisionDraft) : Prop where
  fresh : ∀ rev ∈ t.revisions, rev.revisionId ≠ draft.revisionId
  unknown : ∀ evidence ∈ draft.evidence, ∀ row ∈ t.evidence, row.evidenceId ≠ evidence.evidenceId
  distinct : (draft.evidence.map (·.evidenceId)).Nodup
  hashed : ∀ evidence ∈ draft.evidence, ∀ excerpt, evidence.excerpt = some excerpt →
    evidence.excerptHash = some (codec.sha256 (utf8Bytes excerpt.value))
  short : (ContentId.content draft.revisionId).text.utf8ByteSize ≤ 512
  shortEvidence : ∀ evidence ∈ draft.evidence, evidence.excerpt ≠ none →
    (ContentId.evidence evidence.evidenceId).text.utf8ByteSize ≤ 512

theorem mem_revisionSidecar {sidecar : MemoryEvidenceContent}
    (h : sidecar ∈ (revisionSidecar draft).evidence) : ∃ evidence ∈ draft.evidence,
      evidence.evidenceId = sidecar.evidenceId ∧ evidence.excerpt = some sidecar.excerpt := by
  obtain ⟨evidence, he, made⟩ := List.mem_filterMap.mp h
  obtain ⟨excerpt, found, rfl⟩ := Option.map_eq_some_iff.mp made
  exact ⟨evidence, he, rfl, found⟩

/-- The draft of a command finds room in the store. -/
theorem DraftRoom.insertRevision (room : DraftRoom codec t draft) (k : MemoryKeys t) (r : Referenced t)
    (next : ∃ item ∈ t.items, item.memoryId = operation.memoryId ∧
      draft.revision.get = item.latestRevision + 1)
    (unused : ∀ rev ∈ t.revisions, rev.introducedOperationId ≠ operation.operationId)
    (supersedes : ∀ id, superseded = some id → ∃ rev ∈ t.revisions, rev.revisionId = id) :
    ∃ u, t.insertRevision operation (.fromDraft .proposed draft occurredAt superseded)
      (some (revisionSidecar draft)) = .ok u := by
  have ids : ((draft.evidence.map MemoryEvidenceMetadata.fromEvidence).map (·.evidenceId)) =
      draft.evidence.map (·.evidenceId) := by
    rw [List.map_map]
    rfl
  refine insertRevision_ok k r ⟨next, room.fresh, unused, supersedes, room.short⟩ rfl
    (ids ▸ room.distinct) ?_ ?_ ?_
  · intro metadata hm
    obtain ⟨evidence, he, rfl⟩ := List.mem_map.mp hm
    exact room.unknown evidence he
  · intro metadata hm sidecar hs same
    obtain ⟨evidence, he, rfl⟩ := List.mem_map.mp hm
    obtain ⟨source, hd, id, found⟩ := mem_revisionSidecar hs
    have equal : source = evidence :=
      List.inj_on_of_nodup_map room.distinct hd he (id.trans same)
    have hash := room.hashed evidence he _ (equal ▸ found)
    change evidence.excerptHash ≠ none
    rw [hash]
    nofun
  · intro sidecar hs
    obtain ⟨source, hd, id, found⟩ := mem_revisionSidecar hs
    rw [← id]
    exact room.shortEvidence source hd (by rw [found]; nofun)

theorem insertRevision_stored {content : MemoryRevisionContent} (k : MemoryKeys t)
    (proposed : revision.status = .proposed)
    (h : t.insertRevision operation revision (some content) = .ok u) :
    Stored u operation.memoryId revision ∧ ∀ rev ∈ t.revisions, rev ∈ u.revisions := by
  have introduced := insertRevision_introduces proposed h
  have blob : ∃ blob ∈ u.blobs, blob.contentId = .content revision.revisionId := by
    unfold insertRevision at h
    split at h
    next => cases h
    next => cases h
    next content item found same =>
      split at h
      next => cases h
      next =>
        obtain ⟨_, inserted, h⟩ := bind_eq_ok_iff.mp h
        obtain ⟨blobs, stored, rfl⟩ := insertBlob_eq_ok inserted
        obtain ⟨_, insertedRow, h⟩ := bind_eq_ok_iff.mp h
        obtain ⟨revisions, -, rfl⟩ := insertRevisionRow_eq_ok insertedRow
        obtain ⟨attached, folded, h⟩ := bind_eq_ok_iff.mp h
        rw [applyRevisionProjection, if_neg (by simp [proposed])] at h
        obtain ⟨rfl, -⟩ := updateItem_eq_ok h
        have kept := (insertEvidence_foldlM folded).keptBlobs
        exact ⟨_, kept _ (((insert?_eq_some stored).1 _).mpr (.inr rfl)), rfl⟩
  obtain ⟨blob, hb, key⟩ := blob
  refine ⟨⟨⟨operation.introducedRow revision, (introduced.revisions _).mpr (.inr rfl), rfl, rfl,
    proposed, rfl, blob, hb, ?_⟩, fun row hf same => ?_⟩,
    fun rev hr => (introduced.revisions rev).mpr (.inl hr)⟩
  · rw [key]
    rfl
  · rw [introduced.fts] at hf
    obtain ⟨rev, hr, id, -⟩ := k.indexed row hf
    exact introduced.fresh rev hr (id.trans same)

theorem Stored.advanceItem (s : Stored t m revision) : Stored (t.advanceItem operation) m revision :=
  ⟨s.row, s.unindexed⟩

theorem planned_eq {p : PlannedOperation} (h : entry.planned = p) :
    entry.operation.payload = p.1 ∧ entry.content = p.2 := by
  rw [← h]
  exact ⟨rfl, rfl⟩

/-- The payloads that only introduce a revision. -/
def MemoryOperationPayload.Introducing (payload : MemoryOperationPayload)
    (revision : MemoryRevision) : Prop :=
  (∃ scope kind, payload = .memoryCreated scope kind revision) ∨
    payload = .revisionProposed revision ∨ payload = .memoryRevised revision

theorem applyOperation_introducing (hp : entry.operation.payload.Introducing revision) :
    t.applyOperation codec entry false =
      t.insertRevision entry.operation revision entry.content := by
  obtain ⟨scope, kind, hp⟩ | hp | hp := hp <;> simp only [applyOperation, hp] <;> rfl

theorem Ready.introduce (r : Ready codec command base prior (entry :: rest) t)
    (room : DraftRoom codec t draft)
    (hp : entry.operation.payload.Introducing (.fromDraft .proposed draft occurredAt superseded))
    (content : entry.content = some (revisionSidecar draft))
    (next : ∃ item ∈ t.items, item.memoryId = command.memoryId ∧
      draft.revision.get = item.latestRevision + 1)
    (supersedes : ∀ id, superseded = some id → ∃ rev ∈ t.revisions, rev.revisionId = id) :
    ∃ u, appendOperation codec t entry = .ok u ∧
      Ready codec command (base + 1) (some entry.operation.operationId) rest u ∧
      Stored u command.memoryId (.fromDraft .proposed draft occurredAt superseded) ∧
      ∀ rev ∈ t.revisions, rev ∈ u.revisions := by
  have memory := r.chained.1.memory
  have unused : ∀ rev ∈ t.revisions, rev.introducedOperationId ≠ entry.operation.operationId := by
    intro rev hr same
    obtain ⟨operation, ho, id⟩ := r.ledger.introduced rev hr
    exact r.unused entry (by simp) operation ho (id.trans same)
  have applies : ∀ operations, t.operations.insert? entry.operation = some operations →
      ∃ w, ({ t with operations } : MemoryTables).applyOperation codec entry false = .ok w := by
    intro operations _
    have keys : MemoryKeys { t with operations } := { r.ledger.keys with }
    have space : DraftRoom codec { t with operations } draft := { room with }
    rw [applyOperation_introducing hp, content]
    exact space.insertRevision keys r.ledger.referenced (memory ▸ next) unused supersedes
  obtain ⟨u, appended, ready⟩ := r.progress applies
  obtain ⟨operations, applied, -, effect, rfl⟩ := appendOperation_eq_ok appended
  have keys : MemoryKeys { t with operations } := { r.ledger.keys with }
  rw [applyOperation_introducing hp, content] at effect
  obtain ⟨stored, kept⟩ := insertRevision_stored keys rfl effect
  rw [memory] at stored
  exact ⟨_, appended, ready, stored.advanceItem, kept⟩

theorem Ready.approve {proposal : MemoryRevisionId}
    (r : Ready codec command base prior (entry :: rest) t) (room : DraftRoom codec t draft)
    (hp : entry.operation.payload =
      .proposalApproved proposal (.fromDraft .proposed draft occurredAt superseded))
    (content : entry.content = some (revisionSidecar draft))
    (known : t.HasState proposal command.memoryId [.proposed])
    (next : ∃ item ∈ t.items, item.memoryId = command.memoryId ∧
      draft.revision.get = item.latestRevision + 1)
    (supersedes : ∀ id, superseded = some id → ∃ rev ∈ t.revisions, rev.revisionId = id) :
    ∃ u, appendOperation codec t entry = .ok u ∧
      Ready codec command (base + 1) (some entry.operation.operationId) rest u ∧
      Stored u command.memoryId (.fromDraft .proposed draft occurredAt superseded) ∧
      (∀ rev ∈ t.revisions, rev.revisionId ≠ proposal → rev ∈ u.revisions) ∧
      u.HasState proposal command.memoryId [.superseded] := by
  have memory := r.chained.1.memory
  have unused : ∀ rev ∈ t.revisions, rev.introducedOperationId ≠ entry.operation.operationId := by
    intro rev hr same
    obtain ⟨operation, ho, id⟩ := r.ledger.introduced rev hr
    exact r.unused entry (by simp) operation ho (id.trans same)
  obtain ⟨old, hold, named, owner, state⟩ := known
  have other : proposal ≠ draft.revisionId := named ▸ room.fresh old hold
  have inserts : ∀ operations, ∃ w, ({ t with operations } : MemoryTables).insertRevision
      entry.operation (.fromDraft .proposed draft occurredAt superseded)
        (some (revisionSidecar draft)) = .ok w := by
    intro operations
    have keys : MemoryKeys { t with operations } := { r.ledger.keys with }
    have space : DraftRoom codec { t with operations } draft := { room with }
    exact space.insertRevision keys r.ledger.referenced (memory ▸ next) unused supersedes
  have stores : ∀ operations w, ({ t with operations } : MemoryTables).insertRevision
      entry.operation (.fromDraft .proposed draft occurredAt superseded)
        (some (revisionSidecar draft)) = .ok w →
      Stored w command.memoryId (.fromDraft .proposed draft occurredAt superseded) ∧
        ∀ rev ∈ t.revisions, rev ∈ w.revisions := by
    intro operations w inserted
    have keys : MemoryKeys { t with operations } := { r.ledger.keys with }
    have result := insertRevision_stored keys rfl inserted
    rw [memory] at result
    exact result
  have applied : ∀ operations w, ({ t with operations } : MemoryTables).insertRevision
      entry.operation (.fromDraft .proposed draft occurredAt superseded)
        (some (revisionSidecar draft)) = .ok w →
      ({ t with operations } : MemoryTables).applyOperation codec entry false =
        .ok (w.setState proposal .superseded) := by
    intro operations w inserted
    have required : ({ t with operations } : MemoryTables).requireRevisionState
        entry.operation.memoryId proposal [.proposed] = .ok () :=
      requireRevisionState_ok ⟨old, hold, named, owner.trans memory.symm, state⟩
    have marked : w.setRevisionState proposal .superseded = .ok (w.setState proposal .superseded) :=
      setRevisionState_ok ⟨old, (stores operations w inserted).2 old hold, named, rfl⟩ nofun
    simp only [applyOperation, hp, required, ok_bind, introduceRevision, Bool.false_eq_true, if_false,
      content, inserted, marked]
  obtain ⟨u, appended, ready⟩ := r.progress fun operations _ => by
    obtain ⟨w, inserted⟩ := inserts operations
    exact ⟨_, applied operations w inserted⟩
  obtain ⟨operations, done, -, effect, rfl⟩ := appendOperation_eq_ok appended
  obtain ⟨w, inserted⟩ := inserts operations
  rw [applied operations w inserted] at effect
  cases Except.ok.inj effect
  obtain ⟨stored, kept⟩ := stores operations w inserted
  refine ⟨_, appended, ready, ⟨?_, stored.unindexed⟩, fun rev hr different => ?_, ?_⟩
  · obtain ⟨rev, hr, same, own, proposed, metadata, linked⟩ := stored.row
    have different : rev.revisionId ≠ proposal := by
      rw [same]
      exact other.symm
    refine ⟨rev, mem_setState.mpr ⟨rev, hr, ?_⟩, same, own, proposed, metadata, linked⟩
    rw [if_neg different]
  · refine mem_setState.mpr ⟨rev, kept rev hr, ?_⟩
    rw [if_neg different]
  · refine ⟨_, mem_setState.mpr ⟨old, kept old hold, rfl⟩, named, owner, ?_⟩
    simp [named]

end Introduce

section Follow

variable {revision : MemoryRevision} {validation : MemoryValidationResult}

theorem Ready.validate (r : Ready codec command base prior (entry :: rest) t)
    (hp : entry.operation.payload = .revisionValidated revision.revisionId validation)
    (s : Stored t command.memoryId revision)
    (hash : revision.contentHash = validation.contentHash)
    (short : codec.validationBytes validation ≤ 65536) :
    ∃ u, appendOperation codec t entry = .ok u ∧
      Ready codec command (base + 1) (some entry.operation.operationId) rest u ∧
      Stored u command.memoryId revision ∧ u.revisions = t.revisions := by
  have memory := r.chained.1.memory
  have unused : ∀ row ∈ t.validations, row.operationId ≠ entry.operation.operationId := by
    intro row hv same
    obtain ⟨operation, ho, id⟩ := r.ledger.validated row hv
    exact r.unused entry (by simp) operation ho (id.trans same)
  obtain ⟨u, appended, ready⟩ := r.progress fun operations _ =>
    applyOperation_validated hp (memory ▸ ⟨s.row, s.unindexed⟩) hash short unused
  obtain ⟨operations, applied, -, effect, rfl⟩ := appendOperation_eq_ok appended
  simp only [applyOperation, hp] at effect
  obtain ⟨_, -, effect⟩ := bind_eq_ok_iff.mp effect
  obtain ⟨_, -, effect⟩ := bind_eq_ok_iff.mp effect
  obtain ⟨validations, -, rfl⟩ := insertValidation_eq_ok effect
  exact ⟨_, appended, ready, ⟨s.row, s.unindexed⟩, rfl⟩

/-- What an activation does to the states of the revisions. -/
theorem activateRevision_states {m : MemoryId} {revisionId : MemoryRevisionId}
    (h : t.activateRevision m revisionId true = .ok u) :
    ∀ rev ∈ t.revisions, ∃ new ∈ u.revisions, new.revisionId = rev.revisionId ∧
      new.memoryId = rev.memoryId ∧ (rev.revisionId = revisionId → new.state = .active) ∧
      (rev.revisionId ≠ revisionId → new.state = rev.state ∨ new.state = .superseded) := by
  obtain ⟨cleared, indexed, h₁, h₂, h₃⟩ := activateRevision_eq_ok h
  obtain ⟨rfl, -⟩ := updateItem_eq_ok h₃
  obtain ⟨-, -, -, -, fts, -, -, -, rfl⟩ := addRevisionToFts_eq_ok h₂
  intro rev hr
  have first : ∃ mid ∈ cleared.revisions, mid.revisionId = rev.revisionId ∧
      mid.memoryId = rev.memoryId ∧ (mid.state = rev.state ∨ mid.state = .superseded) := by
    obtain ⟨_, -, -, ⟨rfl, -⟩ | ⟨current, -, -, rfl⟩⟩ := deactivateCurrentRevision_eq_ok h₁
    · exact ⟨rev, hr, rfl, rfl, .inl rfl⟩
    · refine ⟨_, mem_setState.mpr ⟨rev, hr, rfl⟩, rfl, rfl, ?_⟩
      dsimp only
      split
      · exact .inr rfl
      · exact .inl rfl
  obtain ⟨mid, hm, same, own, state⟩ := first
  refine ⟨_, mem_setState.mpr ⟨mid, hm, rfl⟩, same, own, fun id => ?_, fun other => ?_⟩
  · exact if_pos (same.trans id)
  · dsimp only
    rw [if_neg (same ▸ other)]
    exact state

theorem Ready.activate (r : Ready codec command base prior (entry :: rest) t)
    (hp : entry.operation.payload = .revisionActivated revision.revisionId)
    (s : Stored t command.memoryId revision) :
    ∃ u, appendOperation codec t entry = .ok u ∧
      Ready codec command (base + 1) (some entry.operation.operationId) rest u ∧
      u.HasState revision.revisionId command.memoryId [.active] ∧
      ∀ id, id ≠ revision.revisionId → t.HasState id command.memoryId [.active, .superseded] →
        u.HasState id command.memoryId [.active, .superseded] := by
  have memory := r.chained.1.memory
  obtain ⟨u, appended, ready⟩ := r.progress fun operations _ =>
    applyOperation_activated hp (memory ▸ ⟨s.row, s.unindexed⟩) (memory ▸ r.item)
  obtain ⟨operations, applied, -, effect, rfl⟩ := appendOperation_eq_ok appended
  simp only [applyOperation, hp] at effect
  obtain ⟨_, -, effect⟩ := bind_eq_ok_iff.mp effect
  have states := activateRevision_states effect
  refine ⟨_, appended, ready, ?_, fun id other known => ?_⟩
  · obtain ⟨rev, hr, same, own, -⟩ := s.row
    obtain ⟨new, hn, id, owner, active, -⟩ := states rev hr
    exact ⟨new, hn, id.trans same, owner.trans own, by simp [active same]⟩
  · obtain ⟨rev, hr, same, own, state⟩ := known
    obtain ⟨new, hn, named, owner, -, kept⟩ := states rev hr
    refine ⟨new, hn, named.trans same, owner.trans own, ?_⟩
    rcases kept (same ▸ other) with kept | kept
    · rw [kept]
      exact state
    · simp [kept]

theorem Ready.supersede {supersededId byId : MemoryRevisionId}
    (r : Ready codec command base prior (entry :: rest) t)
    (hp : entry.operation.payload = .revisionSuperseded supersededId byId)
    (known : t.HasState supersededId command.memoryId [.active, .superseded])
    (successor : t.HasState byId command.memoryId [.active]) :
    ∃ u, appendOperation codec t entry = .ok u ∧
      Ready codec command (base + 1) (some entry.operation.operationId) rest u := by
  have memory := r.chained.1.memory
  exact r.progress fun operations _ => applyOperation_superseded hp (memory ▸ known)
    (memory ▸ successor)

end Follow

end AutoHarness
