import AutoHarness.MemoryAgreement

namespace AutoHarness

open FallibleRun KeyedTable MemoryTables

variable {t u : MemoryTables} {codec : MemoryCodec} {command : MemoryCommandEnvelope}
  {entry : MemoryAppendOperation} {operations : List MemoryAppendOperation}

section Counters

namespace MemoryTables

/-- The two generations of the store. -/
def counters (t : MemoryTables) : Nat × Nat :=
  (t.generation, t.mutationGeneration)

theorem counters_updateItem {m : MemoryId} {f : RowMap MemoryItemRow.memoryId}
    (h : t.updateItem m f = .ok u) : u.counters = t.counters := by
  obtain ⟨rfl, -⟩ := updateItem_eq_ok h
  rfl

theorem counters_activate {m : MemoryId} {revisionId : MemoryRevisionId}
    (h : t.activateRevision m revisionId true = .ok u) : u.counters = t.counters := by
  obtain ⟨cleared, indexed, h₁, h₂, h₃⟩ := activateRevision_eq_ok h
  have first : cleared.counters = t.counters := by
    obtain ⟨-, -, -, ⟨rfl, -⟩ | ⟨current, -, -, rfl⟩⟩ := deactivateCurrentRevision_eq_ok h₁ <;> rfl
  obtain ⟨-, -, -, -, fts, -, -, -, rfl⟩ := addRevisionToFts_eq_ok h₂
  exact (counters_updateItem h₃).trans first

end MemoryTables

theorem OperationEffect.counters (effect : OperationEffect codec entry t u) :
    u.counters = t.counters := by
  cases effect with
  | introduced _ stored => exact stored.counters
  | approved _ _ introduced => exact introduced.counters
  | validated _ stored =>
    obtain ⟨validations, -, rfl⟩ := insertValidation_eq_ok stored
    rfl
  | activated _ _ stored => exact counters_activate stored
  | superseded => rfl
  | rejected _ _ stored | retracted _ _ stored => exact (counters_updateItem stored).trans rfl
  | deleted _ _ stored => exact (counters_updateItem (deleteMemoryContent_eq_ok stored)).trans rfl

theorem counters_run (proposals : ∀ entry ∈ operations, entry.operation.payload.IntroducesProposal)
    (h : run (appendOperation codec) t operations = .ok u) : u.counters = t.counters := by
  induction operations generalizing t with
  | nil =>
    cases Except.ok.inj h
    rfl
  | cons entry rest ih =>
    obtain ⟨next, first, h⟩ := bind_eq_ok_iff.mp (run_cons t entry rest ▸ h)
    obtain ⟨recorded, applied, -, effect, rfl⟩ := appendOperation_eq_ok first
    have kept := (applyOperation_effect (proposals entry (by simp)) effect).counters
    have later := ih (fun other ho => proposals other (by simp [ho])) h
    exact later.trans kept

/-- A batch can be closed while both counters can still be advanced. -/
theorem closeBatch_ok (generation : t.generation < maxSequence)
    (mutationGeneration : t.mutationGeneration < maxSequence) (changed : Bool) :
    ∃ u, t.closeBatch changed = .ok u := by
  have mutated : ∀ s : MemoryTables, s.mutationGeneration < maxSequence →
      ∃ u, s.incrementMutationGeneration = .ok u := by
    intro s room
    exact ⟨_, if_pos (by omega)⟩
  unfold closeBatch
  split
  · have advanced : t.incrementGeneration = .ok { t with generation := t.generation + 1 } :=
      if_pos (by omega)
    rw [advanced, ok_bind]
    exact mutated _ mutationGeneration
  · exact mutated t mutationGeneration

end Counters

section Identity

/-- A text behind its length. -/
def framed (text : String) : List UInt8 :=
  toBeBytes (UInt64.ofNat (utf8Bytes text).length) ++ utf8Bytes text

theorem utf8Bytes_length (text : String) : (utf8Bytes text).length = text.utf8ByteSize := rfl

theorem utf8Bytes_injective {a b : String} (h : utf8Bytes a = utf8Bytes b) : a = b := by
  unfold utf8Bytes at h
  have data : a.toUTF8.data = b.toUTF8.data := Array.toList_inj.mp h
  have bytes : a.toUTF8 = b.toUTF8 := by
    cases ha : a.toUTF8
    cases hb : b.toUTF8
    rw [ha, hb] at data
    exact congrArg ByteArray.mk data
  exact String.toByteArray_inj.mp bytes

theorem toBeBytes_inj {m n : Nat} (hm : m < 65536) (hn : n < 65536)
    (h : toBeBytes (UInt64.ofNat m) = toBeBytes (UInt64.ofNat n)) : m = n := by
  simp only [toBeBytes, List.cons.injEq] at h
  obtain ⟨-, -, -, -, -, -, high, low, -⟩ := h
  have high' := congrArg UInt8.toNat high
  have low' := congrArg UInt8.toNat low
  simp [UInt64.toNat_ofNat', Nat.shiftRight_eq_div_pow] at high' low'
  omega

theorem framed_append_inj {a b : String} {rest rest' : List UInt8} (ha : a.utf8ByteSize < 65536)
    (hb : b.utf8ByteSize < 65536) (h : framed a ++ rest = framed b ++ rest') :
    a = b ∧ rest = rest' := by
  simp only [framed, List.append_assoc] at h
  obtain ⟨lengths, h⟩ := List.append_inj h rfl
  have same := toBeBytes_inj ha hb lengths
  obtain ⟨texts, rests⟩ := List.append_inj h same
  exact ⟨utf8Bytes_injective texts, rests⟩

/-- The text that the identity of an operation is the digest of. -/
def operationText (command : MemoryCommandEnvelope) (stage : MemoryStage) : List UInt8 :=
  hashField (hashField (hashField [] command.commandId.value) command.memoryId.value) stage.text

theorem Identifier.short {kind : IdentifierKind} (id : Identifier kind) :
    id.value.utf8ByteSize < 65536 := by
  have valid := id.valid
  unfold validateIdentifier at valid
  by_cases long : id.value.utf8ByteSize > maxIdentifierBytes
  · rw [if_pos long] at valid
    split at valid
    next => cases valid
    next =>
      split at valid
      next => cases valid
      next =>
        split at valid
        next => cases valid
        next =>
          split at valid
          next => cases valid
          next => cases valid
  · have bound : maxIdentifierBytes = 512 := rfl
    omega

theorem MemoryStage.short (stage : MemoryStage) : stage.text.utf8ByteSize < 65536 := by
  cases stage <;> decide

theorem MemoryStage.text_injective {stage other : MemoryStage} (h : stage.text = other.text) :
    stage = other := by
  cases stage <;> cases other <;> first | rfl | exact absurd h (by decide)

/-- The text tells the command, the memory and the step apart. -/
theorem operationText_injective {other : MemoryCommandEnvelope} {stage stage' : MemoryStage}
    (h : operationText command stage = operationText other stage') :
    command.commandId = other.commandId ∧ command.memoryId = other.memoryId ∧ stage = stage' := by
  have spelled : ∀ (c : MemoryCommandEnvelope) (s : MemoryStage), operationText c s =
      framed c.commandId.value ++ (framed c.memoryId.value ++ (framed s.text ++ [])) := by
    intro c s
    simp [operationText, hashField, appendLength, framed]
  rw [spelled, spelled] at h
  obtain ⟨commands, h⟩ := framed_append_inj (Identifier.short _) (Identifier.short _) h
  obtain ⟨memories, h⟩ := framed_append_inj (Identifier.short _) (Identifier.short _) h
  obtain ⟨stages, -⟩ := framed_append_inj stage.short stage'.short h
  exact ⟨Identifier.ext_value commands, Identifier.ext_value memories,
    MemoryStage.text_injective stages⟩

/-- SHA-256 does not collide on the texts that the given commands hash for their operations. -/
def CollisionFree (codec : FactCodec) (commands : List MemoryCommandEnvelope) : Prop :=
  ∀ c ∈ commands, ∀ d ∈ commands, ∀ stage stage',
    codec.sha256 (operationText c stage) = codec.sha256 (operationText d stage') →
      operationText c stage = operationText d stage'

theorem CollisionFree.operationId_inj {codec : FactCodec} {commands : List MemoryCommandEnvelope}
    {c d : MemoryCommandEnvelope} {stage stage' : MemoryStage} (free : CollisionFree codec commands)
    (hc : c ∈ commands) (hd : d ∈ commands)
    (h : operationId codec c stage = operationId codec d stage') :
    c.commandId = d.commandId ∧ stage = stage' := by
  have values : "memory-operation:" ++ (codec.sha256 (operationText c stage)).value =
      "memory-operation:" ++ (codec.sha256 (operationText d stage')).value :=
    congrArg Identifier.value h
  have digests : codec.sha256 (operationText c stage) = codec.sha256 (operationText d stage') := by
    have same := (String.append_right_inj _).mp values
    generalize codec.sha256 (operationText c stage) = first at same
    generalize codec.sha256 (operationText d stage') = second at same
    cases first
    cases second
    cases same
    rfl
  obtain ⟨same, -, stages⟩ := operationText_injective (free c hc d hd stage stage' digests)
  exact ⟨same, stages⟩

end Identity

section Commit

variable {occurredAt : TimestampMillis} {existing : List ExistingMemory}
  {stored : List MemoryOperationEnvelope} {revisions : List MemoryRevision}
  {request : MemoryAppendBatchRequest} {actions : List MemoryAction}

/-- No step occurs twice in a batch. -/
theorem AdmittedBatch.stages_nodup {codec : FactCodec} {planned : List PlannedOperation}
    (h : AdmittedBatch codec command occurredAt stored revisions planned) :
    (planned.map (·.1.stage)).Nodup := by
  cases h <;> simp [MemoryOperationPayload.stage]

/-- Only the first operation of a batch creates a memory. -/
theorem AdmittedBatch.tail_creates {codec : FactCodec} {planned : List PlannedOperation}
    (h : AdmittedBatch codec command occurredAt stored revisions planned) :
    ∀ p ∈ planned.tail, p.1.createsItem = false := by
  cases h <;> simp [MemoryOperationPayload.createsItem]

theorem Planned.ids {codec : FactCodec}
    (h : Planned codec command occurredAt stored revisions request) :
    ∀ entry ∈ request.operations,
      entry.operation.operationId = operationId codec command entry.operation.payload.stage := by
  intro entry he
  obtain ⟨base, prior, linked⟩ := h.chained.linked he
  exact linked.id

theorem Planned.distinct {codec : FactCodec} {commands : List MemoryCommandEnvelope}
    (h : Planned codec command occurredAt stored revisions request)
    (free : CollisionFree codec commands) (hc : command ∈ commands) :
    (request.operations.map (·.operation.operationId)).Nodup := by
  have derived : request.operations.map (·.operation.operationId) =
      (request.operations.map (·.operation.payload.stage)).map (operationId codec command) := by
    rw [List.map_map]
    exact List.map_congr_left h.ids
  have stages : (request.operations.map (·.operation.payload.stage)).Nodup := by
    have nodup := h.admitted.stages_nodup
    rwa [List.map_map] at nodup
  rw [derived]
  refine stages.map_on fun stage _ stage' _ same => ?_
  exact (free.operationId_inj hc hc same).2

/-- The identities of a planned batch are new when its command is. -/
theorem Sourced.unused {codec : FactCodec} {commands : List MemoryCommandEnvelope}
    (s : Sourced codec commands t) (h : Planned codec command occurredAt stored revisions request)
    (free : CollisionFree codec (commands ++ [command]))
    (fresh : ∀ operation ∈ t.operations, operation.causation ≠ .command command.commandId) :
    ∀ entry ∈ request.operations, ∀ operation ∈ t.operations,
      operation.operationId ≠ entry.operation.operationId := by
  intro entry he operation ho same
  obtain ⟨earlier, hc, ⟨stage, id⟩, first, hf, cause⟩ := s operation ho
  rw [id, h.ids entry he] at same
  have equal := (free.operationId_inj (List.mem_append_left _ hc) (by simp) same).1
  exact fresh first hf (equal ▸ cause)

theorem countExisting_ok
    (unused : ∀ entry ∈ operations, ∀ operation ∈ t.operations,
      operation.operationId ≠ entry.operation.operationId) : t.countExisting operations = .ok 0 := by
  induction operations with
  | nil => rfl
  | cons entry rest ih =>
    have absent : t.operations.find? entry.operation.operationId = none :=
      find?_eq_none_iff.mpr (unused entry (by simp))
    unfold countExisting
    rw [absent]
    exact ih fun other ho => unused other (by simp [ho])

theorem encodeAndValidateBatch_ok {first : MemoryAppendOperation} {rest : List MemoryAppendOperation}
    (h : Planned codec.toFactCodec command occurredAt stored revisions request)
    (listed : request.operations = first :: rest) (room : CommandRoom codec t command request)
    (distinct : (request.operations.map (·.operation.operationId)).Nodup) :
    encodeAndValidateBatch codec request = .ok first.operation := by
  have encoded : ∀ entry ∈ request.operations, encodeAndValidate codec entry = .ok () := by
    intro entry he
    obtain ⟨base, prior, linked⟩ := h.chained.linked he
    have sidecar := h.admitted.sidecars entry.planned (List.mem_map.mpr ⟨entry, he, rfl⟩)
    exact encodeAndValidate_ok rfl linked.schema (room.operations entry he) room.draft sidecar
  have later : ∀ entry ∈ request.operations.tail, entry.operation.payload.createsItem = false := by
    intro entry he
    refine h.admitted.tail_creates entry.planned ?_
    rw [← List.map_tail]
    exact List.mem_map.mpr ⟨entry, he, rfl⟩
  have head : first ∈ request.operations := by simp [listed]
  obtain ⟨base, prior, linked⟩ := h.chained.linked head
  have chained := h.chained
  rw [← h.base] at chained
  have passes : ∃ scan, run (BatchScan.step codec first.operation)
      ⟨request.expectedLastSequence + 1, [], []⟩ request.operations = .ok scan :=
    BatchScan.run_ok chained linked.memory linked.correlation rfl (by simp) (fun _ => rfl) nofun
      distinct (by simp) (by simpa using later) encoded
  obtain ⟨scan, scanned⟩ := passes
  unfold encodeAndValidateBatch
  rw [listed] at scanned ⊢
  dsimp only
  rw [scanned, ok_bind]

/-- The batch finds its memory, or creates it. -/
theorem openBatch_ok {first : MemoryAppendOperation} {rest : List MemoryAppendOperation}
    (l : MemoryLedger t) (s : Started t)
    (h : Planned codec.toFactCodec command occurredAt (t.loadMemoryOperations command.memoryId)
      revisions request) (listed : request.operations = first :: rest)
    (numbered : ∀ scope kind draft, command.payload = .createMemory scope kind draft →
      draft.revision.get = 1) : ∃ u, t.openBatch first.operation = .ok u := by
  obtain ⟨head, tail, split, creates⟩ := h.head_creates
  rw [listed] at split
  cases split
  unfold openBatch
  split
  next creating =>
    have zero : t.currentMemorySequence command.memoryId = 0 := by
      have some_ := h.creates
      rw [← creates, creating, lastSequenceOf_load l s] at some_
      simpa using some_.symm
    have absent : ∀ item ∈ t.items, item.memoryId ≠ command.memoryId := by
      intro item hi own
      have counted : (item.memoryId, item.lastSequence) ∈ t.sequences :=
        mem_sequences.mpr ⟨item, hi, rfl⟩
      have positive := s _ _ counted
      have found : t.items.find? command.memoryId = some item := find?_eq_some_iff.mpr ⟨hi, own⟩
      simp only [currentMemorySequence, found, Option.map_some, Option.getD_some] at zero
      omega
    have memory : first.operation.memoryId = command.memoryId := h.memory first (by simp [listed])
    obtain ⟨scope, kind, draft, hp, payload⟩ : ∃ scope kind draft,
        command.payload = .createMemory scope kind draft ∧ first.operation.payload =
          .memoryCreated scope kind (.fromDraft .proposed draft occurredAt none) := by
      have admitted := h.admitted
      rw [listed, List.map_cons] at admitted
      generalize shape : first.planned = p at admitted
      generalize rest.map MemoryAppendOperation.planned = others at admitted
      cases admitted with
      | create hp | createActive hp => exact ⟨_, _, _, hp, (planned_eq shape).1⟩
      | propose hp | revise hp | approve hp | reject hp | retract hp | delete hp =>
        rw [(planned_eq shape).1] at creating
        cases creating
    unfold insertMemoryItemShell
    rw [payload]
    dsimp only
    have one : ¬ ((MemoryRevision.fromDraft .proposed draft occurredAt none).revision.get ≠ 1 ∨
        (MemoryRevision.fromDraft .proposed draft occurredAt none).status ∉
          [MemoryRevisionStatus.proposed, .active]) := by
      have first_ := numbered scope kind draft hp
      simp [MemoryRevision.fromDraft, first_]
    rw [if_neg one]
    have room : ∃ items, t.items.insert? ⟨first.operation.memoryId, scope, kind, .proposed, 0, 0,
        none, none, first.operation.occurredAt, first.operation.occurredAt⟩ = some items :=
      insert?_of_fresh (by rw [memory]; exact absent)
    obtain ⟨items, inserted⟩ := room
    rw [inserted]
    exact ⟨_, rfl⟩
  next => exact ⟨t, rfl⟩

theorem checkVersion_ok {first : MemoryAppendOperation} {rest : List MemoryAppendOperation}
    (l : MemoryLedger t) (s : Started t)
    (h : Planned codec.toFactCodec command occurredAt (t.loadMemoryOperations command.memoryId)
      revisions request) (listed : request.operations = first :: rest) :
    t.checkVersion first.operation request = .ok () := by
  obtain ⟨head, tail, split, creates⟩ := h.head_creates
  rw [listed] at split
  cases split
  have memory : first.operation.memoryId = command.memoryId := h.memory first (by simp [listed])
  have actual := lastSequenceOf_load (m := command.memoryId) l s
  unfold checkVersion
  simp only [memory, h.base, actual, ne_eq, not_true_eq_false, if_false]
  rw [if_neg]
  rw [creates, h.creates, actual]
  exact not_not.mpr rfl

/-- The number that a draft carries is the next one of its memory, in the opened tables. -/
theorem AdmittedBatch.number {item : MemoryItemRow} {draft : MemoryRevisionDraft}
    {planned : List PlannedOperation} {codec : FactCodec} (k : MemoryKeys t) (hi : item ∈ t.items)
    (own : item.memoryId = command.memoryId) (idle : command.payload.createsItem = false)
    (h : AdmittedBatch codec command occurredAt stored (t.loadMemoryRevisions command.memoryId)
      planned) (draft? : command.payload.draft? = some draft) :
    draft.revision.get = item.latestRevision + 1 := by
  cases h with
  | create hp | createActive hp =>
    rw [hp] at idle
    cases idle
  | propose hp _ next | revise hp _ next | approve hp _ _ next =>
    rw [hp] at draft?
    cases Option.some.inj draft?
    exact requireNextRevision_number k hi own next
  | reject hp | retract hp | delete hp =>
    rw [hp] at draft?
    cases draft?

/-- A planned batch of a new command is committed. -/
theorem MemoryReached.commits (r : MemoryReached codec actions t)
    (h : Planned codec.toFactCodec command occurredAt (t.loadMemoryOperations command.memoryId)
      (t.loadMemoryRevisions command.memoryId) request)
    (room : CommandRoom codec t command request)
    (free : CollisionFree codec.toFactCodec
      (actions.filterMap MemoryAction.command? ++ [command]))
    (fresh : ∀ operation ∈ t.operations, operation.causation ≠ .command command.commandId) :
    ∃ receipt u, t.appendMemoryBatch codec request = .ok (receipt, u) ∧
      receipt.disposition = .committed := by
  obtain ⟨first, rest, listed, creates⟩ := h.head_creates
  have distinct := h.distinct free (by simp)
  have unused := r.sourced.unused h free fresh
  have encoded := encodeAndValidateBatch_ok h listed room distinct
  obtain ⟨opened, h₀⟩ := openBatch_ok r.ledger r.started h listed room.first
  obtain ⟨ledger, -, known⟩ := r.ledger.opened r.started h listed h₀
  have same : ∃ items, opened = { t with items } := by
    obtain ⟨rfl, -⟩ | ⟨row, items, -, rfl, -⟩ := openBatch_eq_ok h₀
    · exact ⟨_, rfl⟩
    · exact ⟨items, rfl⟩
  have number : ∀ draft, command.payload.draft? = some draft → ∃ item ∈ opened.items,
      item.memoryId = command.memoryId ∧ draft.revision.get = item.latestRevision + 1 := by
    intro draft draft?
    obtain ⟨rfl, idle⟩ | ⟨row, items, inserted, rfl, own, -, none_, -, -, creating⟩ :=
      openBatch_eq_ok h₀
    · obtain ⟨item, hi, counted⟩ := mem_sequences.mp known
      have own := (Prod.mk.inj counted).1
      rw [creates] at idle
      exact ⟨item, hi, own, h.admitted.number ledger.keys hi own idle draft?⟩
    · have memory : first.operation.memoryId = command.memoryId := h.memory first (by simp [listed])
      refine ⟨row, ((insert?_eq_some inserted).1 _).mpr (.inr rfl), own.trans memory, ?_⟩
      rw [creates] at creating
      cases hp : command.payload with
      | createMemory scope kind draft' =>
        rw [hp] at draft?
        cases Option.some.inj draft?
        rw [room.first scope kind draft hp, none_]
      | _ => simp [hp, MemoryCommandPayload.createsItem] at creating
  obtain ⟨items, rfl⟩ := same
  have chained := h.chained
  rw [← h.base] at chained
  have ready : Ready codec command request.expectedLastSequence none request.operations
      { t with items } :=
    ⟨ledger, known, fresh, chained, h.proposals, distinct, unused⟩
  have states : ∀ id states, HasRevision (t.loadMemoryRevisions command.memoryId) id states →
      t.HasState id command.memoryId states :=
    fun id states has => hasState_of_hasRevision r.ledger.keys has
  obtain ⟨applied, ran⟩ := ready.batch h.admitted (fun draft draft? => { room.draft draft draft? with })
    number states room.validations
  have counted := counters_run h.proposals ran
  have generations : applied.generation = t.generation ∧
      applied.mutationGeneration = t.mutationGeneration := Prod.mk.inj counted
  obtain ⟨closed, h₂⟩ := closeBatch_ok (generations.1 ▸ room.generation)
    (generations.2 ▸ room.mutationGeneration)
    (t.currentActiveRevision first.operation.memoryId ≠
      applied.currentActiveRevision first.operation.memoryId)
  have committed : t.commitBatch codec first.operation request.operations = .ok closed := by
    unfold commitBatch
    rw [h₀, ok_bind, ran, ok_bind, h₂]
  unfold appendMemoryBatch
  rw [encoded, ok_bind, countExisting_ok unused, ok_bind]
  have filled : ¬ 0 = request.operations.length := by simp [listed]
  rw [if_neg filled, if_neg (by simp)]
  rw [checkVersion_ok r.ledger r.started h listed, ok_bind, committed, ok_bind]
  exact ⟨_, _, rfl, rfl⟩

end Commit

section Agreement

/-- The planner and the store agree on a command: what the one plans the other commits at once,
and nothing is written otherwise. -/
structure Agreement (codec : MemoryCodec) (t : MemoryTables) (command : MemoryCommandEnvelope)
    (occurredAt : TimestampMillis) (existing : List ExistingMemory) : Prop where
  commits : ∀ plan, t.plan codec command occurredAt existing = .ok plan →
    CommandRoom codec t command plan.batch →
      ∃ receipt, t.appendMemoryBatch codec plan.batch =
          .ok (receipt, t.step codec (.command command occurredAt existing)) ∧
        receipt.disposition = .committed
  rejected : ∀ e, t.plan codec command occurredAt existing = .error e →
    t.step codec (.command command occurredAt existing) = t
  failed : ∀ plan e, t.plan codec command occurredAt existing = .ok plan →
    t.appendMemoryBatch codec plan.batch = .error e →
      t.step codec (.command command occurredAt existing) = t

/-- After every run, the store commits each plan of a command that is new to it. -/
theorem memoryRun_agreement (codec : MemoryCodec) (actions : List MemoryAction)
    (command : MemoryCommandEnvelope) (occurredAt : TimestampMillis) (existing : List ExistingMemory)
    (free : CollisionFree codec.toFactCodec
      (actions.filterMap MemoryAction.command? ++ [command]))
    (fresh : ∀ operation ∈ (memoryRun codec actions).operations,
      operation.causation ≠ .command command.commandId) :
    Agreement codec (memoryRun codec actions) command occurredAt existing := by
  have reached := memoryRun_reached codec actions
  refine ⟨fun plan planned room => ?_, fun e refused => ?_, fun plan e planned conflict => ?_⟩
  · obtain ⟨receipt, u, appended, committed⟩ :=
      reached.commits (planMemoryCommand_planned planned) room free fresh
    refine ⟨receipt, ?_, committed⟩
    simp only [MemoryTables.step, planned, appended]
  · simp only [MemoryTables.step, refused]
  · simp only [MemoryTables.step, planned, conflict]

end Agreement

section Sample

/-- The sample codec with the digests of every step of the first sample command. -/
def stagedMemoryCodec : MemoryCodec where
  sha256 bytes :=
    let stage (stage : String) := hashField (hashField (hashField [] "id-1") "id-1") stage
    ([(stage "propose",
        ⟨"e4e57f69de4163a48d02ac22198e5ba4c4b4e5aa38f2afb65142d734483841b6", by decide⟩),
      (stage "revise",
        ⟨"ecbd4c9206993dc29f026db9202f21d4c7c4475c47cae002a2fb38314b3c886f", by decide⟩),
      (stage "approve",
        ⟨"b76108000f0e65ecb25f77b8b2bf98c4328f2afe66e6722cd8ffca6c918a292c", by decide⟩),
      (stage "supersede",
        ⟨"a027877934b0e88728a276a353f4987137b20c4b14d9ce026eae09640b841219", by decide⟩),
      (stage "reject",
        ⟨"ccba555a184bd0d85d9f131aece12da43159e905c02fffd71561fe7ea66d8bf6", by decide⟩),
      (stage "retract",
        ⟨"cc5be4ae68409cbd7a9e3b1d5dcd09db9f3eed1934522d5e28c05e997030b122", by decide⟩),
      (stage "delete",
        ⟨"ad667ec775cd5866efc2f01c7baf5e1db0398cac2f5459f2ff52f6619e626630", by decide⟩)].lookup
          bytes).getD (sampleMemoryCodec.sha256 bytes)
  callJson _ := []
  operationBytes _ := 512
  validationBytes _ := 128

theorem retractMemory_creates (revisionId : MemoryRevisionId) (expected : MemorySequence) :
    (MemoryCommandPayload.retractMemory revisionId).createsItem = (some expected).isNone := rfl

/-- A retraction under the identity of the command that created the memory. -/
def reusedCommand : MemoryCommandEnvelope :=
  sampleMemoryCommand 1 (some thirdMemorySequence) (.retractMemory (sampleId _ 1))
    (retractMemory_creates _ _)

theorem toOption_eq_some {ε α : Type} {x : Except ε α} {a : α} : x.toOption = some a ↔ x = .ok a := by
  cases x <;> simp [Except.toOption]

theorem reusedCommand_refused :
    ((memoryRun stagedMemoryCodec [sampleCreation]).plan stagedMemoryCodec reusedCommand ⟨0⟩ []).toOption.any
      (fun plan => ((memoryRun stagedMemoryCodec [sampleCreation]).appendMemoryBatch stagedMemoryCodec
        plan.batch).toOption.isNone) = true := by
  decide

theorem reusedCommand_room {t : MemoryTables} {request : MemoryAppendBatchRequest}
    (generation : t.generation < maxSequence) (mutationGeneration : t.mutationGeneration < maxSequence) :
    CommandRoom stagedMemoryCodec t reusedCommand request := by
  have retracts : reusedCommand.payload = .retractMemory (sampleId _ 1) := rfl
  refine ⟨fun draft draft? => ?_, fun scope kind draft hp => ?_, fun _ _ => ?_, fun _ _ _ _ _ => ?_,
    generation, mutationGeneration⟩
  · rw [retracts] at draft?
    cases draft?
  · rw [retracts] at hp
    cases hp
  · show 512 ≤ maxMemoryOperationBytes
    decide
  · show 128 ≤ 65536
    decide

theorem reusedCommand_disagrees : ¬ Agreement stagedMemoryCodec
    (memoryRun stagedMemoryCodec [sampleCreation]) reusedCommand ⟨0⟩ [] := by
  intro agreement
  have refused := reusedCommand_refused
  obtain ⟨plan, found, conflict⟩ := (Option.any_eq_true _ _).mp refused
  have planned : (memoryRun stagedMemoryCodec [sampleCreation]).plan stagedMemoryCodec reusedCommand
      ⟨0⟩ [] = .ok plan := toOption_eq_some.mp found
  have room : CommandRoom stagedMemoryCodec (memoryRun stagedMemoryCodec [sampleCreation])
      reusedCommand plan.batch := reusedCommand_room (by decide +kernel) (by decide +kernel)
  obtain ⟨receipt, appended, -⟩ := agreement.commits plan planned room
  rw [appended] at conflict
  cases conflict

theorem sampleCreates : (MemoryCommandPayload.createMemory (.user (sampleId _ 1)) .preference (sampleDraft
    ⟨1, SessionSequence.first.positive, SessionSequence.first.bounded⟩)).createsItem =
      (none : Option MemorySequence).isNone := rfl

/-- The command of the sample creation. -/
def creationCommand : MemoryCommandEnvelope :=
  sampleMemoryCommand 1 none (.createMemory (.user (sampleId _ 1)) .preference
    (sampleDraft ⟨1, SessionSequence.first.positive, SessionSequence.first.bounded⟩)) sampleCreates

theorem creationCommand_collisionFree :
    CollisionFree stagedMemoryCodec.toFactCodec [creationCommand] := by
  intro c hc d hd stage stage' same
  cases List.mem_singleton.mp hc
  cases List.mem_singleton.mp hd
  let stages : List MemoryStage := [.create, .propose, .revise, .approve, .validate, .activate,
    .supersede, .reject, .retract, .delete]
  have listed : ∀ stage : MemoryStage, stage ∈ stages := by
    intro stage
    cases stage <;> decide
  have apart : ∀ stage ∈ stages, ∀ stage' ∈ stages,
      stagedMemoryCodec.sha256 (operationText creationCommand stage) =
        stagedMemoryCodec.sha256 (operationText creationCommand stage') → stage = stage' := by
    decide
  rw [apart stage (listed stage) stage' (listed stage') same]

theorem memoryRun_agreement_creation : ∃ plan,
    (memoryRun stagedMemoryCodec []).plan stagedMemoryCodec creationCommand ⟨0⟩ [] = .ok plan ∧
      ∃ receipt u, (memoryRun stagedMemoryCodec []).appendMemoryBatch stagedMemoryCodec plan.batch =
        .ok (receipt, u) ∧ receipt.disposition = .committed := by
  have accepted : ((memoryRun stagedMemoryCodec []).plan stagedMemoryCodec creationCommand ⟨0⟩
      []).toOption.isSome = true := by
    decide +kernel
  have agreement := memoryRun_agreement stagedMemoryCodec [] creationCommand ⟨0⟩ []
    creationCommand_collisionFree (by simp [memoryRun, MemoryTables.empty])
  cases planned : (memoryRun stagedMemoryCodec []).plan stagedMemoryCodec creationCommand ⟨0⟩ [] with
  | error e =>
    rw [planned] at accepted
    cases accepted
  | ok plan =>
    have room : CommandRoom stagedMemoryCodec (memoryRun stagedMemoryCodec []) creationCommand
        plan.batch := by
      refine ⟨fun draft draft? => ?_, fun scope kind draft hp => ?_, fun _ _ => ?_,
        fun _ _ _ _ _ => ?_, by decide, by decide⟩
      · cases Option.some.inj draft?
        exact ⟨by simp [memoryRun, MemoryTables.empty], fun _ listed => absurd listed (by simp [sampleDraft]), .nil,
          fun _ listed => absurd listed (by simp [sampleDraft]), by decide +kernel, by simp [sampleDraft]⟩
      · cases hp
        rfl
      · show 512 ≤ maxMemoryOperationBytes
        decide
      · show 128 ≤ 65536
        decide
    obtain ⟨receipt, appended, committed⟩ := agreement.commits plan planned room
    exact ⟨plan, rfl, receipt, _, appended, committed⟩

end Sample

end AutoHarness
