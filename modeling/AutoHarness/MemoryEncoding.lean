import AutoHarness.MemoryReady

namespace AutoHarness

open FallibleRun KeyedTable MemoryTables

variable {t u : MemoryTables} {codec : MemoryCodec} {command : MemoryCommandEnvelope}
  {base : Nat} {prior : Option MemoryOperationId} {entry : MemoryAppendOperation}
  {rest entries : List MemoryAppendOperation}

section Encoding

variable {draft : MemoryRevisionDraft} {occurredAt : TimestampMillis}
  {stored : List MemoryOperationEnvelope} {revisions : List MemoryRevision}
  {request : MemoryAppendBatchRequest}

/-- The excerpts that a draft brings match the hashes of its metadata. -/
theorem matchExcerpts_ok {codec : FactCodec} {evidence : List MemoryEvidence}
    (distinct : (evidence.map (·.evidenceId)).Nodup)
    (hashed : ∀ e ∈ evidence, ∀ excerpt, e.excerpt = some excerpt →
      e.excerptHash = some (codec.sha256 (utf8Bytes excerpt.value))) :
    matchExcerpts codec (evidence.filterMap fun e => e.excerpt.map fun excerpt => ⟨e.evidenceId, excerpt⟩)
      (evidence.map .fromEvidence) = .ok () := by
  induction evidence with
  | nil => rfl
  | cons e rest ih =>
    obtain ⟨apart, distinct⟩ := List.nodup_cons.mp distinct
    have later := ih distinct fun other ho => hashed other (by simp [ho])
    cases found : e.excerpt with
    | none =>
      have unhashed : e.excerptHash = none := by
        have paired := e.paired
        rw [found] at paired
        exact Option.isNone_iff_eq_none.mp (by simpa using paired.symm)
      have absent : (rest.filterMap fun e => e.excerpt.map fun excerpt =>
          (⟨e.evidenceId, excerpt⟩ : MemoryEvidenceContent)).find?
            (·.evidenceId = e.evidenceId) = none := by
        refine List.find?_eq_none.mpr fun sidecar hs same => apart ?_
        obtain ⟨other, ho, made⟩ := List.mem_filterMap.mp hs
        obtain ⟨excerpt, -, rfl⟩ := Option.map_eq_some_iff.mp made
        exact List.mem_map.mpr ⟨other, ho, by simpa using same⟩
      simp only [List.filterMap_cons, found, Option.map_none, List.map_cons, matchExcerpts,
        MemoryEvidenceMetadata.fromEvidence, unhashed, absent]
      exact later
    | some excerpt =>
      have hash := hashed e (by simp) excerpt found
      simp only [List.filterMap_cons, found, Option.map_some, List.map_cons, matchExcerpts,
        MemoryEvidenceMetadata.fromEvidence, hash, List.find?_cons, decide_true, if_true,
        List.erase_cons_head]
      exact later

/-- Each operation of an admitted batch brings nothing, or the contents of its draft. -/
theorem AdmittedBatch.sidecars {codec : FactCodec} {planned : List PlannedOperation}
    (h : AdmittedBatch codec command occurredAt stored revisions planned) :
    ∀ p ∈ planned, (p.1.introducedRevision = none ∧ p.2 = none) ∨
      ∃ draft validation superseded, command.payload.draft? = some draft ∧
        DraftAdmitted codec draft validation ∧
        p.1.introducedRevision = some (.fromDraft .proposed draft occurredAt superseded) ∧
        p.2 = some (revisionSidecar draft) := by
  intro p hm
  cases h with
  | create hp _ admitted | createActive hp _ admitted | propose hp _ _ admitted
  | revise hp _ _ admitted | approve hp _ _ _ admitted =>
    rcases List.mem_cons.mp hm with rfl | hm
    · exact .inr ⟨_, _, _, by rw [hp]; rfl, admitted, rfl, rfl⟩
    · simp only [List.mem_cons, List.not_mem_nil, or_false] at hm
      rcases hm with rfl | rfl | rfl | rfl <;> exact .inl ⟨rfl, rfl⟩
  | reject | retract | delete =>
    rw [List.mem_singleton.mp hm]
    exact .inl ⟨rfl, rfl⟩

theorem sidecarIds_sublist (evidence : List MemoryEvidence) :
    ((evidence.filterMap fun e => e.excerpt.map fun excerpt =>
      (⟨e.evidenceId, excerpt⟩ : MemoryEvidenceContent)).map (·.evidenceId)).Sublist
        (evidence.map (·.evidenceId)) := by
  induction evidence with
  | nil => exact .slnil
  | cons e rest ih =>
    cases found : e.excerpt with
    | none =>
      simp only [List.filterMap_cons, found, Option.map_none, List.map_cons]
      exact ih.cons _
    | some excerpt =>
      simp only [List.filterMap_cons, found, Option.map_some, List.map_cons]
      exact ih.cons_cons _

theorem encodeAndValidate_ok {p : PlannedOperation} (planned : entry.planned = p)
    (schema : entry.operation.schemaVersion = memorySchemaV1)
    (short : codec.operationBytes entry.operation ≤ maxMemoryOperationBytes)
    (room : ∀ draft, command.payload.draft? = some draft → DraftRoom codec t draft)
    (sidecar : (p.1.introducedRevision = none ∧ p.2 = none) ∨
      ∃ draft validation superseded, command.payload.draft? = some draft ∧
        DraftAdmitted codec.toFactCodec draft validation ∧
        p.1.introducedRevision = some (.fromDraft .proposed draft occurredAt superseded) ∧
        p.2 = some (revisionSidecar draft)) : encodeAndValidate codec entry = .ok () := by
  obtain ⟨payload, content⟩ := planned_eq planned
  have checked : validateContentSidecar codec.toFactCodec entry = .ok () := by
    unfold validateContentSidecar
    rw [payload, content]
    rcases sidecar with ⟨none₁, none₂⟩ | ⟨draft, validation, superseded, draft?, admitted, revision, some_⟩
    · rw [none₁, none₂]
    · rw [revision, some_]
      have space := room draft draft?
      have ids : ((revisionSidecar draft).evidence.map (·.evidenceId)).Nodup :=
        space.distinct.sublist (sidecarIds_sublist draft.evidence)
      dsimp only
      rw [if_neg, if_neg (not_not.mpr ids)]
      · exact matchExcerpts_ok space.distinct space.hashed
      · rintro (other | secret | hash)
        · exact other rfl
        · exact admitted.shareable secret
        · exact hash admitted.content
  unfold encodeAndValidate
  rw [if_neg (not_not.mpr schema)]
  simp only [checked, ok_bind]
  rw [if_neg (by omega)]
  rfl

theorem BatchScan.step_ok {first : MemoryOperationEnvelope} {scan : BatchScan}
    (linked : Linked codec.toFactCodec command base prior entry.operation)
    (memory : first.memoryId = command.memoryId)
    (correlation : first.correlationId = command.correlationId)
    (expected : scan.expected = base + 1) (start : prior = none ↔ scan.operationIds = [])
    (commands : prior = none → scan.commandIds = [])
    (cause : ∀ id, prior = some id → id ∈ scan.operationIds)
    (fresh : entry.operation.operationId ∉ scan.operationIds)
    (creates : prior ≠ none → entry.operation.payload.createsItem = false)
    (encoded : encodeAndValidate codec entry = .ok ()) :
    ∃ commandIds, BatchScan.step codec first scan entry =
      .ok ⟨base + 2, entry.operation.operationId :: scan.operationIds, commandIds⟩ := by
  unfold BatchScan.step
  dsimp only
  rw [if_neg]
  · rw [linked.causation]
    cases prior with
    | none =>
      have empty := start.mp rfl
      refine ⟨[command.commandId], ?_⟩
      simp [empty, commands rfl, encoded, expected]
    | some id =>
      refine ⟨scan.commandIds, ?_⟩
      have listed := cause id rfl
      simp [listed, encoded, expected]
  · rintro (other | other | other | ⟨later, created⟩ | repeated)
    · exact other (linked.memory.trans memory.symm)
    · exact other (linked.correlation.trans correlation.symm)
    · exact other (by rw [linked.sequence, expected])
    · have follows : prior ≠ none := fun none_ => later (start.mp none_)
      rw [creates follows] at created
      cases created
    · exact fresh repeated

theorem BatchScan.run_ok {first : MemoryOperationEnvelope} {scan : BatchScan}
    (chained : Chained codec.toFactCodec command base prior entries)
    (memory : first.memoryId = command.memoryId)
    (correlation : first.correlationId = command.correlationId)
    (expected : scan.expected = base + 1) (start : prior = none ↔ scan.operationIds = [])
    (commands : prior = none → scan.commandIds = [])
    (cause : ∀ id, prior = some id → id ∈ scan.operationIds)
    (distinct : (entries.map (·.operation.operationId)).Nodup)
    (fresh : ∀ entry ∈ entries, entry.operation.operationId ∉ scan.operationIds)
    (creates : ∀ entry ∈ (if prior = none then entries.tail else entries),
      entry.operation.payload.createsItem = false)
    (encoded : ∀ entry ∈ entries, encodeAndValidate codec entry = .ok ()) :
    ∃ result, run (BatchScan.step codec first) scan entries = .ok result := by
  induction entries generalizing base prior scan with
  | nil => exact ⟨scan, rfl⟩
  | cons entry rest ih =>
    obtain ⟨linked, chained⟩ := chained
    obtain ⟨apart, distinct⟩ := List.nodup_cons.mp distinct
    have alone : prior ≠ none → entry.operation.payload.createsItem = false := by
      intro follows
      rw [if_neg follows] at creates
      exact creates entry (by simp)
    obtain ⟨commandIds, stepped⟩ := BatchScan.step_ok linked memory correlation expected start commands
      cause (fresh entry (by simp)) alone (encoded entry (by simp))
    have tail : ∀ other ∈ rest, other.operation.payload.createsItem = false := by
      intro other ho
      split at creates
      · exact creates other ho
      · exact creates other (by simp [ho])
    have remaining : ∃ result, run (BatchScan.step codec first)
        ⟨base + 2, entry.operation.operationId :: scan.operationIds, commandIds⟩ rest =
          .ok result := by
      refine ih chained rfl (by simp) nofun (fun id same => ?_) distinct (fun other ho => ?_) ?_
        fun other ho => encoded other (by simp [ho])
      · cases Option.some.inj same
        simp
      · simp only [List.mem_cons, not_or]
        refine ⟨fun same => apart (List.mem_map.mpr ⟨other, ho, same⟩), fresh other (by simp [ho])⟩
      · rw [if_neg nofun]
        exact tail
    obtain ⟨result, ran⟩ := remaining
    exact ⟨result, by rw [run_cons, stepped, ok_bind, ran]⟩

end Encoding

end AutoHarness
