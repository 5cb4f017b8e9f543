import AutoHarness.AggregateLog
import AutoHarness.MemoryErasure

namespace AutoHarness

open FallibleRun KeyedTable MemoryTables

variable {t u v : MemoryTables} {m : MemoryId} {codec : MemoryCodec}
  {entry : MemoryAppendOperation} {operations : List MemoryAppendOperation}
  {command : MemoryCommandEnvelope}

section Batch

/-- The first operation of a planned batch is applied, then the others. -/
theorem run_planned_cons {p : PlannedOperation} {rest : List PlannedOperation}
    (planned : operations.map MemoryAppendOperation.planned = p :: rest)
    (memory : ∀ entry ∈ operations, entry.operation.memoryId = m)
    (h : run (appendOperation codec) t operations = .ok u) :
    ∃ entry tail next, entry.operation.payload = p.1 ∧ entry.operation.memoryId = m ∧
      appendOperation codec t entry = .ok next ∧
      tail.map MemoryAppendOperation.planned = rest ∧
      (∀ entry ∈ tail, entry.operation.memoryId = m) ∧
      run (appendOperation codec) next tail = .ok u := by
  obtain ⟨entry, tail, rfl, rfl, rfl⟩ := List.map_eq_cons_iff.mp planned
  obtain ⟨next, first, h⟩ := bind_eq_ok_iff.mp (run_cons t entry tail ▸ h)
  exact ⟨entry, tail, next, rfl, memory entry (by simp), first, rfl,
    fun other ho => memory other (by simp [ho]), h⟩

theorem append_introduced {revision : MemoryRevision}
    (hp : entry.operation.payload.introducedRevision = some revision)
    (proposed : revision.status = .proposed) (h : appendOperation codec t entry = .ok u) :
    ∀ rev ∈ u.revisions, rev.revisionId = revision.revisionId → rev.metadata = revision := by
  have proposal : entry.operation.payload.IntroducesProposal := by
    intro other same
    cases Option.some.inj (hp.symm.trans same)
    exact proposed
  have fresh_row : ∀ {s w : MemoryTables}, Introduces entry.operation revision s w →
      ∀ rev ∈ w.revisions, rev.revisionId = revision.revisionId → rev.metadata = revision := by
    intro s w stored rev hr same
    rcases (stored.revisions rev).mp hr with hr | rfl
    · exact absurd same (stored.fresh rev hr)
    · rfl
  obtain ⟨recorded, applied, -, effect, rfl⟩ := appendOperation_eq_ok h
  cases applyOperation_effect proposal effect with
  | introduced hp' stored =>
    cases Option.some.inj (hp.symm.trans hp')
    exact fun rev hr same => fresh_row stored rev hr same
  | approved hp' _ introduced =>
    rw [hp'] at hp
    cases Option.some.inj hp
    intro rev hu same
    obtain ⟨old, hr, rfl⟩ := mem_setState.mp hu
    exact fresh_row introduced old hr same
  | validated hp' | activated hp' | superseded hp' | rejected hp' | retracted hp' | deleted hp' =>
    rw [hp'] at hp
    cases hp

theorem append_validated {revisionId : MemoryRevisionId} {validation : MemoryValidationResult}
    (hp : entry.operation.payload = .revisionValidated revisionId validation)
    (h : appendOperation codec t entry = .ok u) :
    (∀ rev ∈ u.revisions, rev ∈ t.revisions) ∧
      ∃ row ∈ u.validations, row.revisionId = revisionId ∧ row.validation = validation := by
  have proposal : entry.operation.payload.IntroducesProposal := by
    intro revision same
    rw [hp] at same
    cases same
  obtain ⟨recorded, applied, -, effect, rfl⟩ := appendOperation_eq_ok h
  cases applyOperation_effect proposal effect with
  | validated hp' stored =>
    cases hp.symm.trans hp'
    obtain ⟨validations, inserted, rfl⟩ := insertValidation_eq_ok stored
    exact ⟨fun _ hr => hr, _, ((insert?_eq_some inserted).1 _).mpr (.inr rfl), rfl, rfl⟩
  | introduced hp' =>
    rw [hp] at hp'
    cases hp'
  | approved hp' | activated hp' | superseded hp' | rejected hp' | retracted hp' | deleted hp' =>
    cases hp.symm.trans hp'

theorem granted_of_validated {draft : MemoryRevisionDraft} {validation : MemoryValidationResult}
    {revision : MemoryRevision} {accepting : MemoryAppendOperation}
    (accepted : isExplicitAccepted draft validation = true)
    (origin : revision.origin = draft.origin) (trust : revision.trustClass = draft.trustClass)
    (stored : ∀ rev ∈ t.revisions, rev.revisionId = draft.revisionId → rev.metadata = revision)
    (hp : accepting.operation.payload = .revisionValidated draft.revisionId validation)
    (h : appendOperation codec t accepting = .ok u) : Granted u draft.revisionId := by
  simp only [isExplicitAccepted, Bool.and_eq_true, decide_eq_true_eq] at accepted
  obtain ⟨kept, row, hv, about, same⟩ := append_validated hp h
  refine ⟨fun rev hr id => ?_, row, hv, about, by rw [same, accepted.2]⟩
  rw [stored rev (kept rev hr) id, origin, trust]
  exact accepted.1

theorem introducesProposal_of_none {payload : MemoryOperationPayload}
    (none_ : payload.introducedRevision = none) : payload.IntroducesProposal := by
  intro revision some_
  simp [none_] at some_

theorem operationAllowed_of_introduced {payload : MemoryOperationPayload} {revision : MemoryRevision}
    (hp : payload.introducedRevision = some revision) : OperationAllowed t m payload := by
  cases payload <;> trivial

/-- The first two operations of a batch that brings a revision: it is stored and validated. -/
theorem MemoryValid.introduce (valid : MemoryValid t) {payload : MemoryOperationPayload}
    {draft : MemoryRevisionDraft} {validation : MemoryValidationResult} {occurredAt : TimestampMillis}
    {prior : Option MemoryRevisionId} {content : Option MemoryRevisionContent}
    {rest : List PlannedOperation}
    (planned : operations.map MemoryAppendOperation.planned =
      (payload, content) :: (.revisionValidated draft.revisionId validation, none) :: rest)
    (hp : payload.introducedRevision = some (.fromDraft .proposed draft occurredAt prior))
    (memory : ∀ entry ∈ operations, entry.operation.memoryId = m)
    (h : run (appendOperation codec) t operations = .ok u) :
    ∃ tail next, MemoryValid next ∧
      (isExplicitAccepted draft validation = true → Granted next draft.revisionId) ∧
      tail.map MemoryAppendOperation.planned = rest ∧
      (∀ entry ∈ tail, entry.operation.memoryId = m) ∧
      run (appendOperation codec) next tail = .ok u := by
  obtain ⟨first, tail, stored, hp₁, own₁, h₁, planned, memory, h⟩ :=
    run_planned_cons planned memory h
  obtain ⟨second, tail, next, hp₂, own₂, h₂, planned, memory, h⟩ :=
    run_planned_cons planned memory h
  have introduced : first.operation.payload.introducedRevision =
      some (.fromDraft .proposed draft occurredAt prior) := by
    rw [hp₁]
    exact hp
  have proposal : first.operation.payload.IntroducesProposal := by
    intro revision same
    cases Option.some.inj (introduced.symm.trans same)
    rfl
  have valid₁ := valid.append proposal (operationAllowed_of_introduced introduced) h₁
  have valid₂ := valid₁.append (introducesProposal_of_none (by rw [hp₂]; rfl))
    (by rw [hp₂]; trivial) h₂
  refine ⟨tail, next, valid₂, fun accepted => ?_, planned, memory, h⟩
  exact granted_of_validated accepted rfl rfl (append_introduced introduced rfl h₁) hp₂ h₂

theorem MemoryValid.activate {rest : List PlannedOperation} {revisionId : MemoryRevisionId}
    (valid : MemoryValid t) (granted : Granted t revisionId)
    (planned : operations.map MemoryAppendOperation.planned =
      (.revisionActivated revisionId, none) :: rest)
    (memory : ∀ entry ∈ operations, entry.operation.memoryId = m)
    (h : run (appendOperation codec) t operations = .ok u) :
    ∃ tail next, MemoryValid next ∧ tail.map MemoryAppendOperation.planned = rest ∧
      (∀ entry ∈ tail, entry.operation.memoryId = m) ∧
      run (appendOperation codec) next tail = .ok u := by
  obtain ⟨first, tail, next, hp, own, h₁, planned, memory, h⟩ := run_planned_cons planned memory h
  refine ⟨tail, next, valid.append (introducesProposal_of_none (by rw [hp]; rfl)) ?_ h₁,
    planned, memory, h⟩
  rw [hp]
  exact granted

/-- The last operation of a batch, when it introduces no revision. -/
theorem MemoryValid.last {payload : MemoryOperationPayload} (valid : MemoryValid t)
    (planned : operations.map MemoryAppendOperation.planned = [(payload, none)])
    (none_ : payload.introducedRevision = none) (allowed : OperationAllowed t m payload)
    (memory : ∀ entry ∈ operations, entry.operation.memoryId = m)
    (h : run (appendOperation codec) t operations = .ok u) : MemoryValid u := by
  obtain ⟨first, tail, next, hp, own, h₁, planned, -, h⟩ := run_planned_cons planned memory h
  cases List.map_eq_nil_iff.mp planned
  cases Except.ok.inj h
  refine valid.append (introducesProposal_of_none (hp ▸ none_)) ?_ h₁
  rw [hp, own]
  exact allowed

theorem MemoryValid.replace {revisionId prior : MemoryRevisionId} (valid : MemoryValid t)
    (granted : Granted t revisionId) (different : prior ≠ revisionId)
    (planned : operations.map MemoryAppendOperation.planned =
      [(.revisionActivated revisionId, none), (.revisionSuperseded prior revisionId, none)])
    (memory : ∀ entry ∈ operations, entry.operation.memoryId = m)
    (h : run (appendOperation codec) t operations = .ok u) : MemoryValid u := by
  obtain ⟨tail, next, valid, planned, memory, h⟩ := valid.activate granted planned memory h
  exact valid.last planned rfl different memory h

/-- A planned batch keeps the invariant, unless it deletes beside an active revision. -/
theorem MemoryValid.batch {occurredAt : TimestampMillis} {stored : List MemoryOperationEnvelope}
    {revisions : List MemoryRevision} (valid : MemoryValid t)
    (batch : PlannedBatch command occurredAt stored revisions
      (operations.map MemoryAppendOperation.planned))
    (memory : ∀ entry ∈ operations, entry.operation.memoryId = command.memoryId)
    (deletes : ∀ revisionId, command.payload = .deleteMemory revisionId →
      DeletesActive t command.memoryId revisionId)
    (effect : BatchEffect codec operations t u) : MemoryValid u := by
  obtain ⟨first, opened, applied, generation, mutationGeneration, listed, h₀, h, rfl⟩ := effect
  have ready := valid.opened h₀
  have done : MemoryValid applied := by
    generalize shape : operations.map MemoryAppendOperation.planned = planned at batch
    cases batch with
    | create hp _ | propose hp _ =>
      obtain ⟨tail, next, valid, -, planned, -, h⟩ := ready.introduce shape rfl memory h
      cases List.map_eq_nil_iff.mp planned
      cases Except.ok.inj h
      exact valid
    | createActive hp _ accepted =>
      obtain ⟨tail, next, valid, granted, planned, memory, h⟩ := ready.introduce shape rfl memory h
      exact valid.last planned rfl (granted accepted) memory h
    | revise hp _ different accepted | approve hp _ different accepted =>
      obtain ⟨tail, next, valid, granted, planned, memory, h⟩ := ready.introduce shape rfl memory h
      exact valid.replace (granted accepted) different planned memory h
    | reject | retract => exact ready.last shape rfl trivial memory h
    | @delete revisionId hp _ =>
      refine ready.last shape rfl ?_ memory h
      have same : opened = t := by
        obtain ⟨same, -⟩ | ⟨-, -, -, -, -, -, -, -, -, creates⟩ := openBatch_eq_ok h₀
        · exact same
        · obtain ⟨entry, rfl, planned⟩ := List.map_eq_singleton_iff.mp shape
          cases Option.some.inj listed
          have payload : first.operation.payload = .memoryDeleted revisionId :=
            congrArg Prod.fst planned
          simp [payload, MemoryOperationPayload.createsItem] at creates
      rw [same]
      exact deletes revisionId hp
  refine ⟨{ done.keys with }, fun m => { done.lifecycle m with
    eligible := fun rev hr own active => ?_ }⟩
  exact ((done.lifecycle m).eligible rev hr own active).transfer rfl rfl rfl (fun _ hb _ => hb)
    fun _ hv => hv

end Batch

/-- The states in which a revision may be deleted. -/
def deletableStates : List MemoryRevisionStatus := [.proposed, .active, .rejected, .retracted]

theorem hasState_of_hasRevision {revisionId : MemoryRevisionId} {states : List MemoryRevisionStatus}
    (k : MemoryKeys t) (h : HasRevision (t.loadMemoryRevisions m) revisionId states) :
    t.HasState revisionId m states := by
  obtain ⟨revision, hm, rfl, state⟩ := h
  simp only [loadMemoryRevisions, List.mem_map, List.mem_insertionSort, mem_select,
    decide_eq_true_eq] at hm
  obtain ⟨row, ⟨hr, own⟩, rfl⟩ := hm
  exact ⟨row, hr, (k.named row hr).symm, own, state⟩

theorem PlannedBatch.deletable {occurredAt : TimestampMillis} {revisionId : MemoryRevisionId}
    {stored : List MemoryOperationEnvelope} {revisions : List MemoryRevision}
    {planned : List PlannedOperation} (h : PlannedBatch command occurredAt stored revisions planned)
    (hp : command.payload = .deleteMemory revisionId) :
    HasRevision revisions revisionId deletableStates := by
  cases h with
  | delete hp' known =>
    cases hp.symm.trans hp'
    exact known
  | create hp' | createActive hp' | propose hp' | revise hp' | approve hp' | reject hp'
  | retract hp' => cases hp.symm.trans hp'

section Step

variable {occurredAt : TimestampMillis} {existing : List ExistingMemory} {action : MemoryAction}

/-- A step writes nothing, or commits a planned batch, or erases a session. -/
inductive StepEffect (codec : MemoryCodec) (t : MemoryTables) : MemoryAction → MemoryTables → Prop
  | unchanged {action : MemoryAction} : StepEffect codec t action t
  | batch {command : MemoryCommandEnvelope} {occurredAt : TimestampMillis}
      {existing : List ExistingMemory} {operations : List MemoryAppendOperation} {u : MemoryTables}
      (planned : PlannedBatch command occurredAt (t.loadMemoryOperations command.memoryId)
        (t.loadMemoryRevisions command.memoryId) (operations.map MemoryAppendOperation.planned))
      (memory : ∀ entry ∈ operations, entry.operation.memoryId = command.memoryId)
      (effect : BatchEffect codec operations t u) :
      StepEffect codec t (.command command occurredAt existing) u
  | erased {sessionId : SessionId} {lastSequence : SessionSequence} {erasedAt : TimestampMillis}
      {u : MemoryTables}
      (h : t.eraseSessionMemoryAndEvidence sessionId lastSequence erasedAt = .ok u) :
      StepEffect codec t (.eraseSession sessionId lastSequence erasedAt) u

theorem step_effect (codec : MemoryCodec) (t : MemoryTables) (action : MemoryAction) :
    StepEffect codec t action (t.step codec action) := by
  cases action with
  | command command occurredAt existing =>
    unfold MemoryTables.step
    dsimp only
    split
    next => exact .unchanged
    next plan planned =>
      split
      next => exact .unchanged
      next receipt next_ appended =>
        obtain ⟨batch, memory⟩ := planMemoryCommand_eq_ok planned
        rcases appendMemoryBatch_effect appended with rfl | effect
        · exact .unchanged
        · exact .batch batch memory effect
  | eraseSession sessionId lastSequence erasedAt =>
    unfold MemoryTables.step
    dsimp only
    split
    next => exact .unchanged
    next erased => exact .erased erased

/-- A deletion that leaves another revision active: it names a revision that may be deleted but
is not the active one. -/
def DeletesBesideActive (t : MemoryTables) : MemoryAction → Prop
  | .command command _ _ => ∃ revisionId, command.payload = .deleteMemory revisionId ∧
      t.HasState revisionId command.memoryId [.proposed, .rejected, .retracted] ∧
      ∃ item ∈ t.items, item.memoryId = command.memoryId ∧ item.activeRevisionId ≠ none
  | .eraseSession .. => False

theorem MemoryValid.deletesActive {revisionId : MemoryRevisionId} (valid : MemoryValid t)
    (hp : command.payload = .deleteMemory revisionId)
    (known : t.HasState revisionId command.memoryId deletableStates)
    (beside : ¬ DeletesBesideActive t (.command command occurredAt existing)) :
    DeletesActive t command.memoryId revisionId := by
  intro item hi own id current
  obtain ⟨rev, hr, same, memory, state⟩ := known
  by_cases active : rev.state = .active
  · have only := ((valid.lifecycle _).single item hi own rev hr memory).mp active
    rw [← same]
    exact Option.some.inj (current.symm.trans only)
  · have open_ : rev.state ∈ [.proposed, .rejected, .retracted] := by
      simpa [deletableStates, active] using state
    have found : item.activeRevisionId ≠ none := by simp [current]
    exact absurd ⟨revisionId, hp, ⟨rev, hr, same, memory, open_⟩, item, hi, own, found⟩ beside

theorem MemoryValid.step (valid : MemoryValid t) (beside : ¬ DeletesBesideActive t action) :
    MemoryValid (t.step codec action) := by
  generalize stepped : t.step codec action = u
  cases stepped ▸ step_effect codec t action with
  | unchanged => exact valid
  | batch planned memory effect =>
    refine valid.batch planned memory (fun revisionId hp => ?_) effect
    have known := hasState_of_hasRevision valid.keys (planned.deletable hp)
    exact valid.deletesActive hp known beside
  | erased h => exact valid.erase h

end Step

section Run

/-- The memory tables after a run of requests on an empty store. -/
def memoryRun (codec : MemoryCodec) (actions : List MemoryAction) : MemoryTables :=
  actions.foldl (fun t action => t.step codec action) .empty

theorem memoryRun_concat (codec : MemoryCodec) (actions : List MemoryAction) (action : MemoryAction) :
    memoryRun codec (actions ++ [action]) = (memoryRun codec actions).step codec action := by
  simp [memoryRun]

theorem memoryValid_empty : MemoryValid .empty where
  keys := by constructor <;> simp [MemoryTables.empty, Belongs]
  lifecycle m := by constructor <;> simp [MemoryTables.empty]

/-- What the tables say about the lifecycle of every memory. -/
structure MemoryConsistent (t : MemoryTables) : Prop where
  atMostOne : ∀ rev ∈ t.revisions, ∀ other ∈ t.revisions, rev.memoryId = other.memoryId →
    rev.state = .active → other.state = .active → rev = other
  current : ∀ item ∈ t.items, ∀ id, item.activeRevisionId = some id ↔
    ∃ rev ∈ t.revisions, rev.memoryId = item.memoryId ∧ rev.revisionId = id ∧ rev.state = .active
  lifecycle : ∀ item ∈ t.items, (item.lifecycle = .active ↔ item.activeRevisionId ≠ none)
  numbers : ∀ item ∈ t.items, ∀ n,
    (∃ rev ∈ t.revisions, rev.memoryId = item.memoryId ∧ rev.metadata.revision.get = n) ↔
      1 ≤ n ∧ n ≤ item.latestRevision
  numberedOnce : ∀ rev ∈ t.revisions, ∀ other ∈ t.revisions, rev.memoryId = other.memoryId →
    rev.metadata.revision.get = other.metadata.revision.get → rev = other
  eligible : ∀ rev ∈ t.revisions, rev.state = .active → Eligible t rev
  indexed : ∀ id, (∃ row ∈ t.fts, row.revisionId = id) ↔
    ∃ rev ∈ t.revisions, rev.revisionId = id ∧ rev.state = .active

theorem MemoryValid.consistent (valid : MemoryValid t) : MemoryConsistent t where
  atMostOne rev hr other ho same active active' := by
    obtain ⟨item, hi, owner⟩ := valid.keys.owned rev hr
    have first := ((valid.lifecycle _).single item hi owner rev hr rfl).mp active
    have second := ((valid.lifecycle _).single item hi owner other ho same.symm).mp active'
    exact eq_of_key hr ho (Option.some.inj (first.symm.trans second))
  current item hi id := by
    constructor
    · intro current
      obtain ⟨rev, hr, same, own⟩ := valid.keys.current item hi id current
      refine ⟨rev, hr, own, same, ?_⟩
      exact ((valid.lifecycle _).single item hi rfl rev hr own).mpr (same ▸ current)
    · rintro ⟨rev, hr, own, rfl, active⟩
      exact ((valid.lifecycle _).single item hi rfl rev hr own).mp active
  lifecycle item hi := by
    have checked := valid.keys.checked item hi
    cases active : item.activeRevisionId <;> simpa [MemoryItemRow.check, active] using checked
  numbers := valid.keys.numbered
  numberedOnce rev hr other ho same number :=
    eq_of_key hr ho (valid.keys.distinct rev hr other ho same number)
  eligible rev hr active := (valid.lifecycle _).eligible rev hr rfl active
  indexed id := by
    constructor
    · rintro ⟨row, hf, rfl⟩
      obtain ⟨rev, hr, same, own⟩ := valid.keys.indexed row hf
      exact ⟨rev, hr, same, ((valid.lifecycle _).indexed rev hr rfl).mp ⟨row, hf, same.symm⟩⟩
    · rintro ⟨rev, hr, rfl, active⟩
      exact ((valid.lifecycle _).indexed rev hr rfl).mpr active

theorem memoryRun_valid {actions : List MemoryAction}
    (beside : EachAfter (fun before action => ¬ DeletesBesideActive (memoryRun codec before) action)
      actions) : MemoryValid (memoryRun codec actions) := by
  induction actions using List.reverseRecOn with
  | nil => exact memoryValid_empty
  | append_singleton actions action ih =>
    obtain ⟨earlier, last⟩ := eachAfter_concat_iff.mp beside
    rw [memoryRun_concat]
    exact (ih earlier).step last

/-- A run in which no deletion leaves another revision active keeps the lifecycle consistent. -/
theorem memoryRun_consistent (codec : MemoryCodec) (actions : List MemoryAction)
    (beside : EachAfter (fun before action => ¬ DeletesBesideActive (memoryRun codec before) action)
      actions) : MemoryConsistent (memoryRun codec actions) :=
  (memoryRun_valid beside).consistent

end Run

section Sample

/-- The texts that the sample run hashes, with their SHA-256 digests. -/
def sampleDigests : List (List UInt8 × Sha256Digest) :=
  let stage (command stage : String) := hashField (hashField (hashField [] command) "id-1") stage
  [((CanonicalEncoder.new.field "memory_content_v1" (utf8Bytes "Prefers tabs")).bytes,
      ⟨"9f95a263e84cb4daf1f7c65bff02bbc561883893f992e976642e47f1f4ec54d3", by decide⟩),
    (stage "id-1" "create",
      ⟨"b6e7311691562051279b69e4e6ef0384b815974bedf2c31d267fd5f1cdf78cda", by decide⟩),
    (stage "id-1" "validate",
      ⟨"8e2daabb1b3ff7dbf9fbd62733725ac23fb689280c3368ff37c5d8251641e450", by decide⟩),
    (stage "id-1" "activate",
      ⟨"5e7a88fe8baf5b8e2866f916f5109f32c4cd7d924fe34af3baa0293cdc190003", by decide⟩),
    (stage "id-2" "propose",
      ⟨"6e0f0ab4e6be8896885d57a7e4cbe2f55651d6c4b1283426d825b264cdc5b543", by decide⟩),
    (stage "id-2" "validate",
      ⟨"7483281ee3d4d49c40c87f238e9519b81b4f8add55e77100e9eb4df5eb49e784", by decide⟩),
    (stage "id-3" "delete",
      ⟨"740b084d72b01f62cbf2c3551d0571dff95950c1d61684797276726704591b78", by decide⟩),
    (stage "id-4" "retract",
      ⟨"27b7db6c5e14eb5d736bab82c84ae9b5160b32559eec54a0cb8556b5123c6b1c", by decide⟩)]

def sampleMemoryCodec : MemoryCodec where
  sha256 bytes := (sampleDigests.lookup bytes).getD sampleHash
  callJson _ := []
  operationBytes _ := 512
  validationBytes _ := 128

def sampleDraft (revision : MemoryRevisionNumber) : MemoryRevisionDraft where
  revisionId := sampleId _ revision.get
  revision := revision
  subjectKey := none
  content := ⟨"Prefers tabs", by decide, by decide⟩
  contentHash := normalizedContentHash sampleMemoryCodec.toFactCodec "Prefers tabs"
  origin := .explicitUser
  trustClass := .userApproved
  confidence := ⟨10000, by decide⟩
  sensitivity := .public_
  validity := .indefinite
  evidence := []
  relations := []
  evidenceBound := by decide
  relationBound := by decide

/-- A command of the sample memory after the given sequence. -/
def sampleMemoryCommand (n : Nat) (expected : Option MemorySequence) (payload : MemoryCommandPayload)
    (creates : payload.createsItem = expected.isNone) : MemoryCommandEnvelope :=
  ⟨sampleId _ n, sampleId _ 1, expected, sampleCorrelation, payload, creates⟩

def thirdMemorySequence : MemorySequence := ⟨3, by decide, by decide⟩

def fifthMemorySequence : MemorySequence := ⟨5, by decide, by decide⟩

def sampleCreation : MemoryAction :=
  .command (sampleMemoryCommand 1 none (.createMemory (.user (sampleId _ 1)) .preference
    (sampleDraft ⟨1, le_rfl, SessionSequence.first.bounded⟩)) rfl) ⟨0⟩ []

def sampleProposal : MemoryAction :=
  .command (sampleMemoryCommand 2 (some thirdMemorySequence)
    (.proposeRevision (sampleDraft ⟨2, by decide, by decide⟩) (sampleId _ 1)) rfl) ⟨0⟩ []

def sampleDeletion (expected : MemorySequence) (revisionId : MemoryRevisionId) : MemoryAction :=
  .command (sampleMemoryCommand 3 (some expected) (.deleteMemory revisionId) rfl) ⟨0⟩ []

/-- The first revision is active, the second one proposed beside it. -/
def proposedMemory : List MemoryAction := [sampleCreation, sampleProposal]

/-- The proposal is deleted while the first revision is active. -/
def deletedBeside : List MemoryAction :=
  proposedMemory ++ [sampleDeletion fifthMemorySequence (sampleId _ 2)]

theorem deletedBeside_active : ∃ rev ∈ (memoryRun sampleMemoryCodec deletedBeside).revisions.rows,
    ∃ item ∈ (memoryRun sampleMemoryCodec deletedBeside).items.rows,
      rev.memoryId = item.memoryId ∧ rev.state = .active ∧ rev.contentId = none ∧
        item.lifecycle = .deleted ∧ item.activeRevisionId = none := by
  decide

theorem memoryRun_inconsistent : ¬ MemoryConsistent (memoryRun sampleMemoryCodec deletedBeside) := by
  intro consistent
  obtain ⟨rev, hr, item, hi, own, active, -, -, idle⟩ := deletedBeside_active
  have current := (consistent.current item hi _).mpr ⟨rev, hr, own, rfl, active⟩
  simp [idle] at current

theorem proposedMemory_active : ∀ rev ∈ (memoryRun sampleMemoryCodec proposedMemory).revisions.rows,
    rev.revisionId = sampleId _ 1 → rev.state = .active := by
  decide

theorem memoryRun_consistent_sample : MemoryConsistent (memoryRun sampleMemoryCodec
    (proposedMemory ++ [sampleDeletion fifthMemorySequence (sampleId _ 1)])) := by
  refine memoryRun_consistent _ _ (eachAfter_concat_iff.mpr ⟨?_, ?_⟩)
  · intro before action after split
    have listed : action ∈ proposedMemory := by simp [split]
    rcases List.mem_pair.mp listed with rfl | rfl
    · rintro ⟨revisionId, hp, -⟩
      cases hp
    · rintro ⟨revisionId, hp, -⟩
      cases hp
  · rintro ⟨revisionId, hp, ⟨rev, hr, same, -, state⟩, -⟩
    cases hp
    have active := proposedMemory_active rev hr same
    simp [active] at state

end Sample

end AutoHarness
