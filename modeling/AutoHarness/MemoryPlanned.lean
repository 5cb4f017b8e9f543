import AutoHarness.MemoryPlan

namespace AutoHarness

open FallibleRun

/-- What an operation of a batch asks the store to do. -/
abbrev PlannedOperation := MemoryOperationPayload × Option MemoryRevisionContent

def MemoryAppendOperation.planned (entry : MemoryAppendOperation) : PlannedOperation :=
  (entry.operation.payload, entry.content)

/-- A builder that has collected the given operations for its memory. -/
structure BatchBuilder.Holds (batch : BatchBuilder) (command : MemoryCommandEnvelope)
    (planned : List PlannedOperation) : Prop where
  sameCommand : batch.command = command
  operations : batch.operations.map MemoryAppendOperation.planned = planned
  memory : ∀ entry ∈ batch.operations, entry.operation.memoryId = command.memoryId

theorem BatchBuilder.new_holds (command : MemoryCommandEnvelope) (occurredAt : TimestampMillis)
    (baseSequence : Nat) : (BatchBuilder.new command occurredAt baseSequence).Holds command [] :=
  ⟨rfl, rfl, by simp [BatchBuilder.new]⟩

/-- The step of a command that an operation stands for. -/
def MemoryOperationPayload.stage : MemoryOperationPayload → MemoryStage
  | .memoryCreated .. => .create
  | .revisionProposed .. => .propose
  | .memoryRevised .. => .revise
  | .revisionValidated .. => .validate
  | .proposalApproved .. => .approve
  | .revisionActivated .. => .activate
  | .revisionSuperseded .. => .supersede
  | .revisionRejected .. => .reject
  | .memoryRetracted .. => .retract
  | .memoryDeleted .. => .delete

/-- An operation as the builder makes it, the next one of its memory and caused by the one before
it. -/
structure Linked (codec : FactCodec) (command : MemoryCommandEnvelope) (base : Nat)
    (prior : Option MemoryOperationId) (operation : MemoryOperationEnvelope) : Prop where
  schema : operation.schemaVersion = memorySchemaV1
  id : operation.operationId = operationId codec command operation.payload.stage
  memory : operation.memoryId = command.memoryId
  sequence : operation.sequence.get = base + 1
  causation : operation.causation = prior.elim (.command command.commandId) .operation
  correlation : operation.correlationId = command.correlationId

def Chained (codec : FactCodec) (command : MemoryCommandEnvelope) :
    Nat → Option MemoryOperationId → List MemoryAppendOperation → Prop
  | _, _, [] => True
  | base, prior, entry :: rest => Linked codec command base prior entry.operation ∧
      Chained codec command (base + 1) (some entry.operation.operationId) rest

theorem Chained.concat {codec : FactCodec} {command : MemoryCommandEnvelope} {base : Nat}
    {prior : Option MemoryOperationId} {entries : List MemoryAppendOperation}
    {entry : MemoryAppendOperation} (chained : Chained codec command base prior entries)
    (linked : Linked codec command (base + entries.length)
      ((entries.getLast?.map (·.operation.operationId)).or prior) entry.operation) :
    Chained codec command base prior (entries ++ [entry]) := by
  induction entries generalizing base prior with
  | nil => exact ⟨by simpa using linked, trivial⟩
  | cons first rest ih =>
    refine ⟨chained.1, ih chained.2 ?_⟩
    have last : ((first :: rest).getLast?.map (·.operation.operationId)).or prior =
        (rest.getLast?.map (·.operation.operationId)).or (some first.operation.operationId) := by
      cases h : rest.getLast? <;> simp [List.getLast?_cons, h]
    rw [last, List.length_cons] at linked
    have next : base + 1 + rest.length = base + (rest.length + 1) := by omega
    rw [next]
    exact linked

/-- A builder whose operations form a chain from the given sequence on. -/
structure BatchBuilder.Builds (codec : FactCodec) (batch : BatchBuilder)
    (command : MemoryCommandEnvelope) (base : Nat) (planned : List PlannedOperation) : Prop
    extends batch.Holds command planned where
  start : batch.baseSequence = base
  prior : batch.previousOperationId = batch.operations.getLast?.map (·.operation.operationId)
  chained : Chained codec command base none batch.operations

theorem BatchBuilder.new_builds (codec : FactCodec) (command : MemoryCommandEnvelope)
    (occurredAt : TimestampMillis) (base : Nat) :
    (BatchBuilder.new command occurredAt base).Builds codec command base [] :=
  ⟨BatchBuilder.new_holds command occurredAt base, rfl, rfl, trivial⟩

section Planned

variable {codec : FactCodec} {batch next : BatchBuilder} {command : MemoryCommandEnvelope}
  {planned : List PlannedOperation} {stage : MemoryStage} {payload : MemoryOperationPayload}
  {content : Option MemoryRevisionContent} {revisions : List MemoryRevision}

theorem BatchBuilder.Holds.push (holds : batch.Holds command planned)
    (h : batch.push codec stage payload content = .ok next) :
    next.Holds command (planned ++ [(payload, content)]) := by
  obtain ⟨rfl, rfl, memory⟩ := holds
  unfold BatchBuilder.push at h
  split at h
  next => cases h
  next =>
    split at h
    next => cases h
    next =>
      cases h
      refine ⟨rfl, by simp [MemoryAppendOperation.planned, MemoryOperationEnvelope.newV1], ?_⟩
      intro entry hm
      rcases List.mem_append.mp hm with hm | hm
      · exact memory entry hm
      · rw [List.mem_singleton.mp hm]
        rfl

theorem BatchBuilder.Builds.push {base : Nat} (builds : batch.Builds codec command base planned)
    (h : batch.push codec stage payload content = .ok next) (same : payload.stage = stage) :
    next.Builds codec command base (planned ++ [(payload, content)]) := by
  have holds := builds.toHolds.push h
  obtain ⟨⟨rfl, -, -⟩, rfl, prior, chained⟩ := builds
  unfold BatchBuilder.push at h
  split at h
  next => cases h
  next =>
    split at h
    next => cases h
    next sequence numbered =>
      cases h
      refine ⟨holds, rfl, by simp [MemoryOperationEnvelope.newV1], chained.concat ?_⟩
      refine ⟨rfl, by rw [← same]; rfl, rfl, MemorySequence.new_eq_some_iff.mp numbered, ?_, rfl⟩
      rw [← prior, Option.or_none]
      cases batch.previousOperationId <;> rfl

theorem requireRevision_eq_ok {revisionId : MemoryRevisionId} {states : List MemoryRevisionStatus}
    {revision : MemoryRevision} (h : requireRevision revisions revisionId states = .ok revision) :
    revision ∈ revisions ∧ revision.revisionId = revisionId ∧ revision.status ∈ states := by
  unfold requireRevision at h
  split at h
  next found =>
    split at h
    next allowed =>
      cases h
      exact ⟨List.mem_of_find?_eq_some found, by simpa using List.find?_some found, allowed⟩
    next => cases h
  next => cases h

theorem requireNextRevision_eq_ok {candidate : MemoryRevisionDraft} {u : Unit}
    (h : requireNextRevision revisions candidate = .ok u) :
    ∀ revision ∈ revisions, revision.revisionId ≠ candidate.revisionId := by
  simp only [requireNextRevision] at h
  split at h
  next accepted => exact accepted.2
  next => cases h

theorem validateSnapshot_eq_ok {operations : List MemoryOperationEnvelope} {actual : Nat} {u : Unit}
    (h : validateSnapshot command operations revisions actual = .ok u)
    (creates : command.payload.createsItem = true) : actual = 0 := by
  unfold validateSnapshot at h
  rw [if_pos creates] at h
  split at h
  next => cases h
  next =>
    split at h
    next accepted => exact accepted.2
    next => cases h

/-- A revision with the given identity is stored under one of the given states. -/
def HasRevision (revisions : List MemoryRevision) (revisionId : MemoryRevisionId)
    (states : List MemoryRevisionStatus) : Prop :=
  ∃ revision ∈ revisions, revision.revisionId = revisionId ∧ revision.status ∈ states

theorem hasRevision_of_require {revisionId : MemoryRevisionId} {states : List MemoryRevisionStatus}
    {revision : MemoryRevision} (h : requireRevision revisions revisionId states = .ok revision) :
    HasRevision revisions revisionId states := by
  obtain ⟨hm, same, allowed⟩ := requireRevision_eq_ok h
  exact ⟨revision, hm, same, allowed⟩

theorem requireSuperseded_eq_ok {superseded proposal : MemoryRevisionId} {u : Unit}
    (h : requireSuperseded revisions superseded proposal = .ok u) :
    superseded = proposal ∨ HasRevision revisions superseded [.active] := by
  unfold requireSuperseded at h
  split at h
  next =>
    obtain ⟨_, current, -⟩ := bind_eq_ok_iff.mp h
    exact .inr (hasRevision_of_require current)
  next same => exact .inl (not_not.mp same)

theorem HasRevision.ne {revisionId new : MemoryRevisionId} {states : List MemoryRevisionStatus}
    (known : HasRevision revisions revisionId states)
    (fresh : ∀ revision ∈ revisions, revision.revisionId ≠ new) : revisionId ≠ new := by
  obtain ⟨revision, hm, rfl, -⟩ := known
  exact fresh revision hm

/-- The batches that the planner makes from a command and the stored revisions. -/
inductive PlannedBatch (command : MemoryCommandEnvelope) (occurredAt : TimestampMillis)
    (operations : List MemoryOperationEnvelope) (revisions : List MemoryRevision) :
    List PlannedOperation → Prop
  | create {scope memoryKind draft validation}
      (hp : command.payload = .createMemory scope memoryKind draft) (first : operations = []) :
      PlannedBatch command occurredAt operations revisions
        [(.memoryCreated scope memoryKind (.fromDraft .proposed draft occurredAt none),
            some (revisionSidecar draft)),
          (.revisionValidated draft.revisionId validation, none)]
  | createActive {scope memoryKind draft validation}
      (hp : command.payload = .createMemory scope memoryKind draft) (first : operations = [])
      (accepted : isExplicitAccepted draft validation = true) :
      PlannedBatch command occurredAt operations revisions
        [(.memoryCreated scope memoryKind (.fromDraft .proposed draft occurredAt none),
            some (revisionSidecar draft)),
          (.revisionValidated draft.revisionId validation, none),
          (.revisionActivated draft.revisionId, none)]
  | propose {draft prior validation} (hp : command.payload = .proposeRevision draft prior)
      (known : HasRevision revisions prior [.active]) :
      PlannedBatch command occurredAt operations revisions
        [(.revisionProposed (.fromDraft .proposed draft occurredAt (some prior)),
            some (revisionSidecar draft)),
          (.revisionValidated draft.revisionId validation, none)]
  | revise {draft prior validation} (hp : command.payload = .reviseMemory draft prior)
      (known : HasRevision revisions prior [.active]) (different : prior ≠ draft.revisionId)
      (accepted : isExplicitAccepted draft validation = true) :
      PlannedBatch command occurredAt operations revisions
        [(.memoryRevised (.fromDraft .proposed draft occurredAt (some prior)),
            some (revisionSidecar draft)),
          (.revisionValidated draft.revisionId validation, none),
          (.revisionActivated draft.revisionId, none),
          (.revisionSuperseded prior draft.revisionId, none)]
  | approve {proposal draft prior validation}
      (hp : command.payload = .approveProposal proposal draft)
      (known : HasRevision revisions proposal [.proposed]) (different : prior ≠ draft.revisionId)
      (accepted : isExplicitAccepted draft validation = true) :
      PlannedBatch command occurredAt operations revisions
        [(.proposalApproved proposal (.fromDraft .proposed draft occurredAt (some prior)),
            some (revisionSidecar draft)),
          (.revisionValidated draft.revisionId validation, none),
          (.revisionActivated draft.revisionId, none),
          (.revisionSuperseded prior draft.revisionId, none)]
  | reject {revisionId reason} (hp : command.payload = .rejectRevision revisionId reason)
      (known : HasRevision revisions revisionId [.proposed]) :
      PlannedBatch command occurredAt operations revisions
        [(.revisionRejected revisionId reason, none)]
  | retract {revisionId} (hp : command.payload = .retractMemory revisionId)
      (known : HasRevision revisions revisionId [.active]) :
      PlannedBatch command occurredAt operations revisions [(.memoryRetracted revisionId, none)]
  | delete {revisionId} (hp : command.payload = .deleteMemory revisionId)
      (known : HasRevision revisions revisionId [.proposed, .active, .rejected, .retracted]) :
      PlannedBatch command occurredAt operations revisions [(.memoryDeleted revisionId, none)]

theorem validateRevision_admits {scope : MemoryScope} {kind : MemoryKind}
    {draft : MemoryRevisionDraft} {existing : List ExistingMemory} {exclude : Option MemoryId}
    {validation : MemoryValidationResult}
    (h : validateRevision codec scope kind draft existing exclude = .ok validation)
    (passed : validation.status ≠ .rejected) : DraftAdmitted codec draft validation := by
  unfold validateRevision at h
  dsimp only at h
  generalize kept : existing.filter (fun candidate => exclude ≠ some candidate.memoryId) = rest at h
  cases found : analyze codec ⟨[scope], .sensitive⟩ scope kind draft rest with
  | error e =>
    rw [found] at h
    cases h
  | ok result =>
    rw [found] at h
    cases Except.ok.inj h
    exact analyze_admits found passed

theorem isExplicitAccepted_passed {draft : MemoryRevisionDraft} {validation : MemoryValidationResult}
    (h : isExplicitAccepted draft validation = true) : validation.status ≠ .rejected := by
  simp only [isExplicitAccepted, Bool.and_eq_true, decide_eq_true_eq] at h
  rw [h.2]
  decide

/-- The planned batches with everything that the planner has checked for them. -/
inductive AdmittedBatch (codec : FactCodec) (command : MemoryCommandEnvelope)
    (occurredAt : TimestampMillis) (operations : List MemoryOperationEnvelope)
    (revisions : List MemoryRevision) : List PlannedOperation → Prop
  | create {scope memoryKind draft validation}
      (hp : command.payload = .createMemory scope memoryKind draft) (first : operations = [])
      (admitted : DraftAdmitted codec draft validation) :
      AdmittedBatch codec command occurredAt operations revisions
        [(.memoryCreated scope memoryKind (.fromDraft .proposed draft occurredAt none),
            some (revisionSidecar draft)),
          (.revisionValidated draft.revisionId validation, none)]
  | createActive {scope memoryKind draft validation}
      (hp : command.payload = .createMemory scope memoryKind draft) (first : operations = [])
      (admitted : DraftAdmitted codec draft validation)
      (accepted : isExplicitAccepted draft validation = true) :
      AdmittedBatch codec command occurredAt operations revisions
        [(.memoryCreated scope memoryKind (.fromDraft .proposed draft occurredAt none),
            some (revisionSidecar draft)),
          (.revisionValidated draft.revisionId validation, none),
          (.revisionActivated draft.revisionId, none)]
  | propose {draft prior validation} (hp : command.payload = .proposeRevision draft prior)
      (known : HasRevision revisions prior [.active])
      (next : requireNextRevision revisions draft = .ok ())
      (admitted : DraftAdmitted codec draft validation) :
      AdmittedBatch codec command occurredAt operations revisions
        [(.revisionProposed (.fromDraft .proposed draft occurredAt (some prior)),
            some (revisionSidecar draft)),
          (.revisionValidated draft.revisionId validation, none)]
  | revise {draft prior validation} (hp : command.payload = .reviseMemory draft prior)
      (known : HasRevision revisions prior [.active])
      (next : requireNextRevision revisions draft = .ok ())
      (admitted : DraftAdmitted codec draft validation)
      (accepted : isExplicitAccepted draft validation = true) :
      AdmittedBatch codec command occurredAt operations revisions
        [(.memoryRevised (.fromDraft .proposed draft occurredAt (some prior)),
            some (revisionSidecar draft)),
          (.revisionValidated draft.revisionId validation, none),
          (.revisionActivated draft.revisionId, none),
          (.revisionSuperseded prior draft.revisionId, none)]
  | approve {proposal draft prior validation}
      (hp : command.payload = .approveProposal proposal draft)
      (known : HasRevision revisions proposal [.proposed])
      (replaced : prior = proposal ∨ HasRevision revisions prior [.active])
      (next : requireNextRevision revisions draft = .ok ())
      (admitted : DraftAdmitted codec draft validation)
      (accepted : isExplicitAccepted draft validation = true) :
      AdmittedBatch codec command occurredAt operations revisions
        [(.proposalApproved proposal (.fromDraft .proposed draft occurredAt (some prior)),
            some (revisionSidecar draft)),
          (.revisionValidated draft.revisionId validation, none),
          (.revisionActivated draft.revisionId, none),
          (.revisionSuperseded prior draft.revisionId, none)]
  | reject {revisionId reason} (hp : command.payload = .rejectRevision revisionId reason)
      (known : HasRevision revisions revisionId [.proposed]) :
      AdmittedBatch codec command occurredAt operations revisions
        [(.revisionRejected revisionId reason, none)]
  | retract {revisionId} (hp : command.payload = .retractMemory revisionId)
      (known : HasRevision revisions revisionId [.active]) :
      AdmittedBatch codec command occurredAt operations revisions
        [(.memoryRetracted revisionId, none)]
  | delete {revisionId} (hp : command.payload = .deleteMemory revisionId)
      (known : HasRevision revisions revisionId [.proposed, .active, .rejected, .retracted]) :
      AdmittedBatch codec command occurredAt operations revisions
        [(.memoryDeleted revisionId, none)]

theorem AdmittedBatch.toPlanned {occurredAt : TimestampMillis}
    {operations : List MemoryOperationEnvelope}
    (h : AdmittedBatch codec command occurredAt operations revisions planned) :
    PlannedBatch command occurredAt operations revisions planned := by
  cases h with
  | create hp first => exact .create hp first
  | createActive hp first _ accepted => exact .createActive hp first accepted
  | propose hp known => exact .propose hp known
  | revise hp known next _ accepted =>
    exact .revise hp known (known.ne (requireNextRevision_eq_ok next)) accepted
  | @approve proposal draft prior _ hp known replaced next _ accepted =>
    have different : prior ≠ draft.revisionId := by
      rcases replaced with rfl | active
      · exact known.ne (requireNextRevision_eq_ok next)
      · exact active.ne (requireNextRevision_eq_ok next)
    exact .approve hp known different accepted
  | reject hp known => exact .reject hp known
  | retract hp known => exact .retract hp known
  | delete hp known => exact .delete hp known

/-- The sequence that the planner takes for the last one of a memory. -/
def lastSequenceOf (operations : List MemoryOperationEnvelope) : Nat :=
  (operations.getLast?.map (·.sequence.get)).getD 0

/-- Everything an accepted plan promises. -/
structure Planned (codec : FactCodec) (command : MemoryCommandEnvelope)
    (occurredAt : TimestampMillis) (operations : List MemoryOperationEnvelope)
    (revisions : List MemoryRevision) (batch : MemoryAppendBatchRequest) : Prop where
  admitted : AdmittedBatch codec command occurredAt operations revisions
    (batch.operations.map MemoryAppendOperation.planned)
  memory : ∀ entry ∈ batch.operations, entry.operation.memoryId = command.memoryId
  base : batch.expectedLastSequence = lastSequenceOf operations
  chained : Chained codec command (lastSequenceOf operations) none batch.operations
  creates : command.payload.createsItem = decide (lastSequenceOf operations = 0)

theorem BatchBuilder.Builds.finish {occurredAt : TimestampMillis}
    {operations : List MemoryOperationEnvelope}
    (builds : batch.Builds codec command (lastSequenceOf operations) planned)
    (creates : command.payload.createsItem = decide (lastSequenceOf operations = 0))
    (admitted : AdmittedBatch codec command occurredAt operations revisions planned)
    (validation : Option MemoryValidationResult) :
    Planned codec command occurredAt operations revisions (batch.finish validation).batch := by
  obtain ⟨⟨-, rfl, memory⟩, base, -, chained⟩ := builds
  exact ⟨admitted, memory, base, chained, creates⟩

theorem getLast?_sequence_eq_zero {operations : List MemoryOperationEnvelope}
    (h : (operations.getLast?.map (·.sequence.get)).getD 0 = 0) : operations = [] := by
  cases found : operations.getLast? with
  | none => simpa using found
  | some last =>
    have positive := last.sequence.positive
    simp only [found, Option.map_some, Option.getD_some] at h
    omega

theorem validateSnapshot_creates {operations : List MemoryOperationEnvelope} {actual : Nat} {u : Unit}
    (h : validateSnapshot command operations revisions actual = .ok u) :
    command.payload.createsItem = decide (actual = 0) := by
  unfold validateSnapshot at h
  split at h
  next => cases h
  next =>
    split at h
    next creates =>
      split at h
      next accepted => simp [creates, accepted.2]
      next => cases h
    next other =>
      split at h
      next =>
        split at h
        next accepted =>
          have positive : actual ≠ 0 := by omega
          simp [positive, other]
        next => cases h
      next => cases h

/-- Inversion of the planner with all that it has checked. -/
theorem planMemoryCommand_planned {occurredAt : TimestampMillis}
    {operations : List MemoryOperationEnvelope} {existing : List ExistingMemory}
    {plan : MemoryCommandPlan}
    (h : planMemoryCommand codec command occurredAt operations revisions existing = .ok plan) :
    Planned codec command occurredAt operations revisions plan.batch := by
  unfold planMemoryCommand at h
  obtain ⟨_, snapshot, h⟩ := bind_eq_ok_iff.mp h
  have creates := validateSnapshot_creates snapshot
  have start := BatchBuilder.new_builds codec command occurredAt (lastSequenceOf operations)
  split at h
  next scope memoryKind draft hp =>
    have creating : command.payload.createsItem = true := by rw [hp]; rfl
    have first := getLast?_sequence_eq_zero (validateSnapshot_eq_ok snapshot creating)
    obtain ⟨validation, checked, h⟩ := bind_eq_ok_iff.mp h
    split at h
    next => cases h
    next passed =>
      have admitted := validateRevision_admits checked passed
      obtain ⟨introduced, h₁, h⟩ := bind_eq_ok_iff.mp h
      obtain ⟨validated, h₂, h⟩ := bind_eq_ok_iff.mp h
      have builds := (start.push h₁ rfl).push h₂ rfl
      split at h
      next accepted =>
        obtain ⟨activated, h₃, h⟩ := bind_eq_ok_iff.mp h
        cases h
        exact (builds.push h₃ rfl).finish creates (.createActive hp first admitted accepted) _
      next =>
        cases h
        exact builds.finish creates (.create hp first admitted) _
  next draft prior hp =>
    obtain ⟨_, -, h⟩ := bind_eq_ok_iff.mp h
    obtain ⟨_, known, h⟩ := bind_eq_ok_iff.mp h
    obtain ⟨_, -, h⟩ := bind_eq_ok_iff.mp h
    obtain ⟨_, next_, h⟩ := bind_eq_ok_iff.mp h
    obtain ⟨validation, checked, h⟩ := bind_eq_ok_iff.mp h
    split at h
    next => cases h
    next passed =>
      obtain ⟨introduced, h₁, h⟩ := bind_eq_ok_iff.mp h
      obtain ⟨validated, h₂, h⟩ := bind_eq_ok_iff.mp h
      cases h
      exact ((start.push h₁ rfl).push h₂ rfl).finish creates
        (.propose hp (hasRevision_of_require known) next_ (validateRevision_admits checked passed)) _
  next draft prior hp =>
    obtain ⟨_, -, h⟩ := bind_eq_ok_iff.mp h
    obtain ⟨_, known, h⟩ := bind_eq_ok_iff.mp h
    obtain ⟨_, -, h⟩ := bind_eq_ok_iff.mp h
    obtain ⟨_, next_, h⟩ := bind_eq_ok_iff.mp h
    obtain ⟨validation, checked, h⟩ := bind_eq_ok_iff.mp h
    split at h
    next => cases h
    next refused =>
      have accepted : isExplicitAccepted draft validation = true := by simpa using refused
      have admitted := validateRevision_admits checked (isExplicitAccepted_passed accepted)
      obtain ⟨introduced, h₁, h⟩ := bind_eq_ok_iff.mp h
      obtain ⟨validated, h₂, h⟩ := bind_eq_ok_iff.mp h
      obtain ⟨activated, h₃, h⟩ := bind_eq_ok_iff.mp h
      obtain ⟨superseded, h₄, h⟩ := bind_eq_ok_iff.mp h
      cases h
      exact ((((start.push h₁ rfl).push h₂ rfl).push h₃ rfl).push h₄ rfl).finish creates
        (.revise hp (hasRevision_of_require known) next_ admitted accepted) _
  next proposal draft hp =>
    obtain ⟨_, -, h⟩ := bind_eq_ok_iff.mp h
    obtain ⟨revision, known, h⟩ := bind_eq_ok_iff.mp h
    obtain ⟨_, active, h⟩ := bind_eq_ok_iff.mp h
    obtain ⟨_, -, h⟩ := bind_eq_ok_iff.mp h
    obtain ⟨_, next_, h⟩ := bind_eq_ok_iff.mp h
    obtain ⟨validation, checked, h⟩ := bind_eq_ok_iff.mp h
    split at h
    next => cases h
    next refused =>
      simp only [Bool.or_eq_true, Bool.not_eq_true', decide_eq_true_eq, not_or,
        Bool.not_eq_false] at refused
      have admitted := validateRevision_admits checked (isExplicitAccepted_passed refused.1)
      obtain ⟨introduced, h₁, h⟩ := bind_eq_ok_iff.mp h
      obtain ⟨validated, h₂, h⟩ := bind_eq_ok_iff.mp h
      obtain ⟨activated, h₃, h⟩ := bind_eq_ok_iff.mp h
      obtain ⟨superseded, h₄, h⟩ := bind_eq_ok_iff.mp h
      cases h
      exact ((((start.push h₁ rfl).push h₂ rfl).push h₃ rfl).push h₄ rfl).finish creates
        (.approve hp (hasRevision_of_require known) (requireSuperseded_eq_ok active) next_ admitted
          refused.1) _
  next revisionId reason hp =>
    obtain ⟨_, known, h⟩ := bind_eq_ok_iff.mp h
    obtain ⟨rejected, h₁, h⟩ := bind_eq_ok_iff.mp h
    cases h
    exact (start.push h₁ rfl).finish creates (.reject hp (hasRevision_of_require known)) _
  next revisionId hp =>
    obtain ⟨_, known, h⟩ := bind_eq_ok_iff.mp h
    obtain ⟨retracted, h₁, h⟩ := bind_eq_ok_iff.mp h
    cases h
    exact (start.push h₁ rfl).finish creates (.retract hp (hasRevision_of_require known)) _
  next revisionId hp =>
    obtain ⟨_, known, h⟩ := bind_eq_ok_iff.mp h
    obtain ⟨deleted, h₁, h⟩ := bind_eq_ok_iff.mp h
    cases h
    exact (start.push h₁ rfl).finish creates (.delete hp (hasRevision_of_require known)) _
  next => cases h
  next => cases h

/-- Inversion of the planner: the accepted command decides the operations of the batch. -/
theorem planMemoryCommand_eq_ok {occurredAt : TimestampMillis}
    {operations : List MemoryOperationEnvelope} {existing : List ExistingMemory}
    {plan : MemoryCommandPlan}
    (h : planMemoryCommand codec command occurredAt operations revisions existing = .ok plan) :
    PlannedBatch command occurredAt operations revisions
        (plan.batch.operations.map MemoryAppendOperation.planned) ∧
      ∀ entry ∈ plan.batch.operations, entry.operation.memoryId = command.memoryId := by
  have planned := planMemoryCommand_planned h
  exact ⟨planned.admitted.toPlanned, planned.memory⟩

end Planned

end AutoHarness
