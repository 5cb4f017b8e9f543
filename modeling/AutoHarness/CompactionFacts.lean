import AutoHarness.CompactionAgreement
import AutoHarness.CompactionPrefix

namespace AutoHarness

open FallibleRun IndexedList

variable {s : SessionAggregate} {scan : PendingScan}

/-- The facts the aggregate has to keep across a compaction: its inputs that no attempt has
promoted, its open permission questions and its unsettled calls. -/
def SessionAggregate.pendingFacts (s : SessionAggregate) (codec : FactCodec) :
    Except MemoryError (List PendingSessionFact) := do
  let inputs := (s.admittedInputs.filter fun input => input.promotedBy.isNone).map fun input =>
    pendingInputFact codec input.inputId input.inputState
  let permissions ← (s.toolCalls.filter fun call => call.status == .permissionPending).mapM
    fun call => pendingPermissionFact codec call.toolCallId call.toolState
  let tools := (s.toolCalls.filter fun call => !call.status.isSettled).map fun call =>
    pendingToolFact codec call.toolCallId call.toolState
  .ok (inputs ++ permissions ++ tools)

section Facts

variable {codec : FactCodec}

/-- The entry under which the reader keeps a call. -/
def ToolCallProjection.entry (call : ToolCallProjection) : ToolCallId × PendingToolState :=
  (call.toolCallId, call.toolState)

def openQuestion? (codec : FactCodec) (entry : ToolCallId × PendingToolState) :
    Option PendingSessionFact :=
  if entry.2.stage = .permissionPending then
    (pendingPermissionFact codec entry.1 entry.2).toOption
  else none

/-- Every waiting call has a question to show. -/
def QuestionsShown (codec : FactCodec) (entries : List (ToolCallId × PendingToolState)) : Prop :=
  ∀ entry ∈ entries, entry.2.stage = .permissionPending →
    ∃ fact, pendingPermissionFact codec entry.1 entry.2 = .ok fact

theorem callFacts_eq_ok {entry : ToolCallId × PendingToolState}
    (shown : entry.2.stage = .permissionPending →
      ∃ fact, pendingPermissionFact codec entry.1 entry.2 = .ok fact) :
    callFacts codec entry.1 entry.2 =
      .ok ((openQuestion? codec entry).toList ++ [pendingToolFact codec entry.1 entry.2]) := by
  unfold callFacts openQuestion?
  split
  next pending =>
    obtain ⟨fact, hfact⟩ := shown pending
    rw [hfact]
    rfl
  next => rfl

theorem openQuestion?_of_settled {entry : ToolCallId × PendingToolState}
    (settled : entry.2.stage = .settled) : openQuestion? codec entry = none := by
  simp [openQuestion?, settled]

theorem filterMap_filter_open (entries : List (ToolCallId × PendingToolState)) :
    (entries.filter fun entry => entry.2.stage != .settled).filterMap (openQuestion? codec) =
      entries.filterMap (openQuestion? codec) := by
  rw [List.filterMap_filter]
  refine List.filterMap_congr fun entry _ => ?_
  split
  next => rfl
  next settled => exact (openQuestion?_of_settled (by simpa using settled)).symm

/-- The reader's list in the order of the abstract one: inputs, questions, calls. -/
theorem facts_perm (shown : QuestionsShown codec scan.tools.entries) :
    ∃ facts, scan.facts codec = .ok facts ∧ facts.Perm
      ((scan.inputs.entries.filter fun entry => !entry.2.promoted).map
          (fun entry => pendingInputFact codec entry.1 entry.2) ++
        scan.tools.entries.filterMap (openQuestion? codec) ++
        (scan.tools.entries.filter fun entry => entry.2.stage != .settled).map fun entry =>
          pendingToolFact codec entry.1 entry.2) := by
  have each : (scan.tools.entries.filter fun entry => entry.2.stage != .settled).mapM
      (fun entry => callFacts codec entry.1 entry.2) = .ok _ :=
    mapM_eq_ok fun entry hm => callFacts_eq_ok (shown entry (List.mem_filter.mp hm).1)
  simp only [PendingScan.facts, each, ok_bind, Except.ok.injEq, exists_eq_left']
  have tools : ∀ entries : List (ToolCallId × PendingToolState),
      (entries.map fun entry => pendingToolFact codec entry.1 entry.2) =
        entries.flatMap fun entry => [pendingToolFact codec entry.1 entry.2] :=
    fun entries => List.map_eq_flatMap
  rw [List.append_assoc, ← List.flatMap_def, ← filterMap_filter_open,
    List.filterMap_eq_flatMap_toList, tools]
  exact (List.flatMap_append_perm _ _ _).symm.append_left _

theorem input_eq_some_iff (exact : InputsExact s) {inputId : InputId} {input : AdmittedInput} :
    s.input inputId = some input ↔ input ∈ s.admittedInputs ∧ input.inputId = inputId := by
  constructor
  · intro found
    exact ⟨List.mem_of_find?_eq_some found, by simpa using List.find?_some found⟩
  · rintro ⟨hm, rfl⟩
    cases found : s.input input.inputId with
    | none =>
      have absent := List.find?_eq_none.mp found input hm
      simp at absent
    | some other =>
      have ho := List.mem_of_find?_eq_some found
      have same : other.inputId = input.inputId := by simpa using List.find?_some found
      rw [List.inj_on_of_nodup_map exact.distinct ho hm same]

theorem Mirrors.inputs_perm (m : Mirrors s scan) (represented : Represented s) :
    scan.inputs.entries.Perm
      (s.admittedInputs.map fun input => (input.inputId, input.inputState)) := by
  refine SortedMap.entries_perm represented.inputs.distinct fun inputId state => ?_
  rw [m.inputs, Option.map_eq_some_iff]
  simp only [input_eq_some_iff represented.inputs, and_assoc]

theorem Mirrors.tools_perm (m : Mirrors s scan) (represented : Represented s) :
    scan.tools.entries.Perm (s.toolCalls.map ToolCallProjection.entry) := by
  refine SortedMap.entries_perm represented.indexes.toolCalls.nodup_keys fun id state => ?_
  rw [m.tools, Option.map_eq_some_iff]
  simp only [SessionAggregate.toolCall, represented.indexes.toolCalls.find?_eq_some_iff, and_assoc]

theorem stage_eq_settled_iff {status : ToolCallStatus} :
    status.stage = .settled ↔ status.isSettled = true := by
  cases status <;> simp [ToolCallStatus.stage, ToolCallStatus.isSettled]

theorem stage_eq_pending_iff {status : ToolCallStatus} :
    status.stage = .permissionPending ↔ status = .permissionPending := by
  cases status <;> simp [ToolCallStatus.stage]

theorem permissionFact_of_pending {sessionId : SessionId} {log : List EventEnvelope}
    {call : ToolCallProjection} (hs : SessionAggregate.rehydrate sessionId log = .ok s)
    (hm : call ∈ s.toolCalls) (pending : call.status = .permissionPending) :
    ∃ fact, pendingPermissionFact codec call.toolCallId call.toolState = .ok fact := by
  have indexes := (rehydrate_represented hs).indexes
  have found : s.toolCall call.toolCallId = some call :=
    indexes.toolCalls.find?_eq_some_iff.mpr ⟨hm, rfl⟩
  obtain ⟨unanswered, decisionId, policy, -⟩ := recorded_of_pending hs found pending
  simp [pendingPermissionFact, ToolCallProjection.toolState, policy, unanswered]

/-- The mirror of a rehydrated session yields exactly the facts of the aggregate. -/
theorem Mirrors.facts {sessionId : SessionId} {log : List EventEnvelope}
    (hs : SessionAggregate.rehydrate sessionId log = .ok s) (m : Mirrors s scan) :
    ∃ facts expected, scan.facts codec = .ok facts ∧ s.pendingFacts codec = .ok expected ∧
      facts.Perm expected := by
  have represented := rehydrate_represented hs
  have shown : QuestionsShown codec (s.toolCalls.map ToolCallProjection.entry) := by
    intro entry hm pending
    obtain ⟨call, hc, rfl⟩ := List.mem_map.mp hm
    exact permissionFact_of_pending hs hc (stage_eq_pending_iff.mp pending)
  have tools := m.tools_perm represented
  have listed : QuestionsShown codec scan.tools.entries :=
    fun entry hm => shown entry (tools.mem_iff.mp hm)
  obtain ⟨facts, accepted, perm⟩ := facts_perm listed
  have questions : (s.toolCalls.filter fun call => call.status == .permissionPending).mapM
      (fun call => pendingPermissionFact codec call.toolCallId call.toolState) = .ok _ :=
    mapM_eq_ok_filterMap fun call hm => by
      obtain ⟨hm, pending⟩ := List.mem_filter.mp hm
      exact permissionFact_of_pending hs hm (by simpa using pending)
  refine ⟨facts, _, accepted, by rw [SessionAggregate.pendingFacts, questions, ok_bind], ?_⟩
  refine perm.trans ((List.Perm.append ?_ ?_).append ?_)
  · have inputs := m.inputs_perm represented
    refine ((inputs.filter _).map _).trans ?_
    simp [List.filter_map, List.map_map, Function.comp_def, AdmittedInput.inputState]
  · refine (tools.filterMap _).trans ?_
    rw [List.filterMap_map, List.filterMap_filter]
    refine List.Perm.of_eq (List.filterMap_congr fun call _ => ?_)
    simp only [Function.comp_apply, openQuestion?, ToolCallProjection.entry,
      ToolCallProjection.toolState, stage_eq_pending_iff, beq_iff_eq]
  · refine ((tools.filter _).map _).trans ?_
    simp only [List.filter_map, List.map_map, Function.comp_def, ToolCallProjection.entry,
      ToolCallProjection.toolState]
    refine List.Perm.of_eq (congrArg _ (List.filter_congr fun call _ => ?_))
    rw [Bool.eq_iff_iff]
    simp [stage_eq_settled_iff]

end Facts

/-- On the streams of a live engine the compaction reader agrees with the aggregate exactly when
each answer in the stream carries the identity of the policy decision it answers. -/
theorem pendingSessionFacts_agree_iff {M : Type} [EventMetadataSource M]
    (engine : InMemoryEngine M) (sessionId : SessionId) (codec : FactCodec)
    (last : SessionSequence) (h : Reachable engine)
    (hs : SessionAggregate.rehydrate sessionId (sessionEvents sessionId engine.events) = .ok s)
    (length : last.get = (sessionEvents sessionId engine.events).length) :
    (∃ facts expected,
      pendingSessionFactsFromEvents codec sessionId last (sessionEvents sessionId engine.events) =
        .ok facts ∧
      s.pendingFacts codec = .ok expected ∧ facts.Perm expected) ↔
      AnswersNameDecision (sessionEvents sessionId engine.events) := by
  have valid := validateEventPrefix_eq_ok hs (reachable_correlated h sessionId) length
  have ran := pendingScan_run hs
  simp only [pendingSessionFactsFromEvents, valid, ok_bind]
  constructor
  · rintro ⟨facts, expected, accepted, -⟩
    obtain ⟨scan, hscan, -⟩ := bind_eq_ok_iff.mp accepted
    exact (ran.2 scan hscan).1
  · intro named
    obtain ⟨scan, hscan, mirrors⟩ := ran.1 named
    simp only [hscan, ok_bind]
    exact mirrors.facts hs

section Sample

def sampleCodec : FactCodec := ⟨fun _ => sampleHash, fun _ => []⟩

/-- A call of the sample attempt waits for the user's answer to decision `id-1`. -/
def askedEngine : InMemoryEngine SampleSource :=
  (sampleEngine.executeAll [
    sampleCommand 2 (.selectModel sampleSession sampleModel),
    sampleCommand 3 (.admitPromptAndPrepareAttempt sampleSession sampleInput samplePrompt .nextTurn
      sampleAttempt),
    sampleCommand 4 (.startAttempt sampleSession sampleAttempt),
    sampleCommand 5 (.proposeToolCall sampleSession sampleAttempt sampleCall),
    sampleCommand 6 (.recordToolPermission sampleSession sampleCall.toolCallId (sampleId _ 1) .ask)]).2

/-- The answer to the waiting call, under the given identity. -/
def answeredEngine (answerId : PermissionDecisionId) : InMemoryEngine SampleSource :=
  (askedEngine.execute (sampleCommand 7 (.answerToolPermission sampleSession sampleCall.toolCallId
    answerId .allowOnce))).2

theorem answeredEngine_reachable (answerId : PermissionDecisionId) :
    Reachable (answeredEngine answerId) :=
  .execute _ (sampleEngine_reachable.executeAll _)

def ninthSequence : SessionSequence := ⟨9, by decide, by decide⟩

theorem answeredEngine_accepted (answerId : PermissionDecisionId) : ∃ s,
    SessionAggregate.rehydrate sampleSession
      (sessionEvents sampleSession (answeredEngine answerId).events) = .ok s :=
  ⟨_, rfl⟩

theorem pendingSessionFacts_rejects_fresh_answer : Reachable (answeredEngine (sampleId _ 2)) ∧
    (∃ s, SessionAggregate.rehydrate sampleSession
      (sessionEvents sampleSession (answeredEngine (sampleId _ 2)).events) = .ok s) ∧
    ninthSequence.get =
      (sessionEvents sampleSession (answeredEngine (sampleId _ 2)).events).length ∧
    ∀ codec, pendingSessionFactsFromEvents codec sampleSession ninthSequence
      (sessionEvents sampleSession (answeredEngine (sampleId _ 2)).events) =
        .error .invalidCompactionEventStream :=
  ⟨answeredEngine_reachable _, answeredEngine_accepted _, rfl, fun _ => rfl⟩

theorem pendingSessionFacts_agree_iff_sample : Reachable (answeredEngine (sampleId _ 1)) ∧
    ∃ s, SessionAggregate.rehydrate sampleSession
      (sessionEvents sampleSession (answeredEngine (sampleId _ 1)).events) = .ok s ∧
    ((∃ facts expected,
      pendingSessionFactsFromEvents sampleCodec sampleSession ninthSequence
        (sessionEvents sampleSession (answeredEngine (sampleId _ 1)).events) = .ok facts ∧
      s.pendingFacts sampleCodec = .ok expected ∧ facts.Perm expected) ↔
      AnswersNameDecision (sessionEvents sampleSession (answeredEngine (sampleId _ 1)).events)) := by
  obtain ⟨s, hs⟩ := answeredEngine_accepted (sampleId _ 1)
  exact ⟨answeredEngine_reachable _, s, hs, pendingSessionFacts_agree_iff _ _ sampleCodec
    ninthSequence (answeredEngine_reachable _) hs rfl⟩

end Sample

end AutoHarness
