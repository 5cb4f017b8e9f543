import AutoHarness.CompactionReader
import AutoHarness.EngineLive
import AutoHarness.ToolAuthorization

namespace AutoHarness

open FallibleRun IndexedList

variable {s t : SessionAggregate} {scan next : PendingScan} {event : EventEnvelope}

/-- What the reader remembers of an admitted input. -/
def AdmittedInput.inputState (input : AdmittedInput) : InputState :=
  ⟨input.prompt, input.deliveryMode, input.promotedBy.isSome⟩

def ToolCallStatus.stage : ToolCallStatus → PendingToolStage
  | .proposed => .proposed
  | .permissionPending => .permissionPending
  | .authorized => .authorized
  | .deniedPending => .deniedPending
  | .running => .running
  | .completed | .failed | .denied | .cancelled | .unknown => .settled

/-- What the reader remembers of a tool call. -/
def ToolCallProjection.toolState (call : ToolCallProjection) : PendingToolState :=
  ⟨call.attemptId, call.call, call.status.stage, call.policyDecision, call.humanAnswer⟩

/-- The reader's accumulators hold what the aggregate holds. -/
structure Mirrors (s : SessionAggregate) (scan : PendingScan) : Prop where
  inputs : ∀ id, scan.inputs.find? id = (s.input id).map AdmittedInput.inputState
  attempts : ∀ id, id ∈ scan.attempts ↔ id ∈ s.attemptIndexes
  tools : ∀ id, scan.tools.find? id = (s.toolCall id).map ToolCallProjection.toolState

theorem mirrors_start (sessionId : SessionId) : Mirrors (.empty sessionId) .start where
  inputs _ := rfl
  attempts id := iff_of_false (Finset.notMem_empty id) Finmap.notMem_empty
  tools id := by simp [PendingScan.start, SessionAggregate.toolCall, SessionAggregate.empty, find?]

theorem Mirrors.frame (m : Mirrors s scan) (inputs : t.admittedInputs = s.admittedInputs)
    (attempts : t.attemptIndexes = s.attemptIndexes)
    (calls : ∀ id, t.toolCall id = s.toolCall id) : Mirrors t scan where
  inputs id := by
    rw [m.inputs id]
    simp only [SessionAggregate.input, inputs]
  attempts id := by rw [m.attempts id, attempts]
  tools id := by rw [m.tools id, calls id]

theorem Mirrors.inputAdmitted (m : Mirrors s scan) {input : AdmittedInput}
    (unknown : s.input input.inputId = none)
    (inputs : t.admittedInputs = s.admittedInputs ++ [input])
    (attempts : t.attemptIndexes = s.attemptIndexes)
    (calls : ∀ id, t.toolCall id = s.toolCall id) :
    Mirrors t { scan with inputs := scan.inputs.insert input.inputId input.inputState } where
  inputs id := by
    have found : t.input id = (s.input id).or (if input.inputId = id then some input else none) := by
      simp only [SessionAggregate.input, inputs, List.find?_append, List.find?_singleton, beq_iff_eq]
    rw [SortedMap.find?_insert, found]
    split
    next same =>
      subst same
      simp [unknown]
    next apart => simp [m.inputs id, Ne.symm apart]
  attempts id := by rw [m.attempts id, attempts]
  tools id := by rw [m.tools id, calls id]

/-- The reader promotes an input under the attempt that the aggregate records for it. -/
theorem Mirrors.attemptPrepared (m : Mirrors s scan) {attemptId : AttemptId} {inputId : InputId}
    {i n : Nat} {input : AdmittedInput}
    (hi : s.admittedInputs.findIdx? (fun input => input.inputId == inputId) = some i)
    (hid : input.inputId = inputId) (inputs : t.admittedInputs = s.admittedInputs.set i input)
    (attempts : t.attemptIndexes = s.attemptIndexes.insert attemptId n)
    (calls : ∀ id, t.toolCall id = s.toolCall id) :
    Mirrors t { scan with
      attempts := insert attemptId scan.attempts
      inputs := scan.inputs.insert inputId input.inputState } where
  inputs id := by
    have found : t.input id = if id = inputId then some input else s.input id := by
      simp only [SessionAggregate.input, inputs]
      exact find?_set_of_findIdx? hi hid id
    rw [SortedMap.find?_insert, found]
    split
    next => rfl
    next => exact m.inputs id
  attempts id := by simp [m.attempts id, attempts, Finmap.mem_insert]
  tools id := by rw [m.tools id, calls id]

theorem Mirrors.retryPrepared (m : Mirrors s scan) {attemptId : AttemptId} {n : Nat}
    (inputs : t.admittedInputs = s.admittedInputs)
    (attempts : t.attemptIndexes = s.attemptIndexes.insert attemptId n)
    (calls : ∀ id, t.toolCall id = s.toolCall id) :
    Mirrors t { scan with attempts := insert attemptId scan.attempts } where
  inputs id := by
    rw [m.inputs id]
    simp only [SessionAggregate.input, inputs]
  attempts id := by simp [m.attempts id, attempts, Finmap.mem_insert]
  tools id := by rw [m.tools id, calls id]

theorem Mirrors.setTool (m : Mirrors s scan) {id : ToolCallId} {call : ToolCallProjection}
    {tool : PendingToolState} (state : call.toolState = tool)
    (inputs : t.admittedInputs = s.admittedInputs)
    (attempts : t.attemptIndexes = s.attemptIndexes) (new : t.toolCall id = some call)
    (others : ∀ other, other ≠ id → t.toolCall other = s.toolCall other) :
    Mirrors t (scan.setTool id tool) where
  inputs other := by
    rw [PendingScan.setTool, m.inputs other]
    simp only [SessionAggregate.input, inputs]
  attempts other := by rw [PendingScan.setTool, m.attempts other, attempts]
  tools other := by
    rw [PendingScan.setTool, SortedMap.find?_insert]
    split
    next same =>
      subst same
      rw [new, Option.map_some, state]
    next apart => rw [others other apart, m.tools other]

theorem Mirrors.requireToolStage (m : Mirrors s scan) {id : ToolCallId}
    {call : ToolCallProjection} {allowed : List PendingToolStage}
    (found : s.toolCall id = some call) (stage : call.status.stage ∈ allowed) :
    scan.requireToolStage id allowed = .ok call.toolState := by
  have member : call.toolState.stage ∈ allowed := stage
  simp [PendingScan.requireToolStage, m.tools id, found, member]

theorem Mirrors.settleTool (m : Mirrors s scan) {id : ToolCallId} {call : ToolCallProjection}
    {allowed : List PendingToolStage} (found : s.toolCall id = some call)
    (stage : call.status.stage ∈ allowed) :
    scan.settleTool id allowed = .ok (scan.setTool id { call.toolState with stage := .settled }) := by
  unfold PendingScan.settleTool
  rw [m.requireToolStage found stage, ok_bind]

/-- The reader follows every change of a call, except for an answer under another identity
than that of the decision it answers. -/
theorem Mirrors.toolCallChanged (m : Mirrors s scan) {id : ToolCallId}
    {call changed : ToolCallProjection} (found : s.toolCall id = some call)
    (change : ToolCallChange s event id call changed)
    (named : ∀ decisionId answer, event.payload = .toolPermissionAnswered id decisionId answer →
      call.policyDecision = some (decisionId, .ask))
    (inputs : t.admittedInputs = s.admittedInputs)
    (attempts : t.attemptIndexes = s.attemptIndexes) (new : t.toolCall id = some changed)
    (others : ∀ other, other ≠ id → t.toolCall other = s.toolCall other) :
    ∃ next, scan.step event = .ok next ∧ Mirrors t next := by
  have stored : ∀ tool, changed.toolState = tool → Mirrors t (scan.setTool id tool) :=
    fun tool state => m.setTool state inputs attempts new others
  cases change with
  | recorded hp hs =>
    have stage : call.status.stage ∈ [PendingToolStage.proposed] := by
      simp [List.mem_singleton.mp hs, ToolCallStatus.stage]
    simp only [PendingScan.step, hp, m.requireToolStage found stage, ok_bind, Except.ok.injEq,
      exists_eq_left']
    refine stored _ ?_
    rename_i outcome
    cases outcome <;> rfl
  | answered hp hs =>
    have stage : call.status.stage ∈ [PendingToolStage.permissionPending] := by
      simp [List.mem_singleton.mp hs, ToolCallStatus.stage]
    have policy : call.toolState.policyDecision = some (_, .ask) := named _ _ hp
    simp only [PendingScan.step, hp, m.requireToolStage found stage, ok_bind, policy, ne_eq, not_true_eq_false, if_false, Except.ok.injEq,
      exists_eq_left']
    refine stored _ ?_
    rename_i answer
    rw [← policy]
    cases answer <;> rfl
  | started hp hs =>
    have stage : call.status.stage ∈ [PendingToolStage.authorized] := by
      simp [List.mem_singleton.mp hs, ToolCallStatus.stage]
    simp only [PendingScan.step, hp, m.requireToolStage found stage, ok_bind, Except.ok.injEq,
      exists_eq_left']
    exact stored _ rfl
  | completed hp hs | failed hp hs | markedUnknown hp hs =>
    have stage : call.status.stage ∈ [PendingToolStage.running] := by
      simp [List.mem_singleton.mp hs, ToolCallStatus.stage]
    simp only [PendingScan.step, hp, m.settleTool found stage, Except.ok.injEq,
      exists_eq_left']
    exact stored _ rfl
  | denied hp hs =>
    have stage : call.status.stage ∈ [PendingToolStage.deniedPending] := by
      simp [List.mem_singleton.mp hs, ToolCallStatus.stage]
    simp only [PendingScan.step, hp, m.settleTool found stage, Except.ok.injEq,
      exists_eq_left']
    exact stored _ rfl
  | cancelled hp hs =>
    have stage : call.status.stage ∈
        [PendingToolStage.proposed, .permissionPending, .authorized, .running] := by
      revert hs
      cases call.status <;> simp [ToolCallStatus.stage]
    simp only [PendingScan.step, hp, m.settleTool found stage, Except.ok.injEq,
      exists_eq_left']
    exact stored _ rfl

/-- The event answers a permission question only under the identity of the decision asked. -/
def NamesDecision (s : SessionAggregate) (event : EventEnvelope) : Prop :=
  ∀ id decisionId answer, event.payload = .toolPermissionAnswered id decisionId answer →
    ∀ call, s.toolCall id = some call → call.policyDecision = some (decisionId, .ask)

theorem AttemptChange.scan_step {id : AttemptId} {a b : AttemptProjection}
    (h : AttemptChange s event id a b) : scan.step event = .ok scan := by
  cases h with
  | started hp | textAppended hp | usageRecorded hp | cancellationRequested hp | completed hp
  | failed hp | cancelled hp | markedUnknown hp | budgetConfigured hp | contextBound hp
  | turnStarted hp | paused hp | resumed hp => simp only [PendingScan.step, hp]

theorem input_eq_none {inputId : InputId} (exact : InputsExact s)
    (fresh : inputId ∉ s.admittedInputIds) : s.input inputId = none := by
  rw [exact.ids, List.mem_toFinset] at fresh
  refine List.find?_eq_none.mpr fun input hm => ?_
  simp only [beq_iff_eq]
  rintro rfl
  exact fresh (List.mem_map_of_mem hm)

theorem input_eq_some {inputId : InputId} {i : Nat} {input : AdmittedInput}
    (hi : s.admittedInputs.findIdx? (fun input => input.inputId == inputId) = some i)
    (hin : s.admittedInputs[i]? = some input) : s.input inputId = some input := by
  rw [SessionAggregate.input, List.find?_eq_bind_findIdx?_getElem?, hi]
  exact hin

theorem mirrors_step (represented : Represented s) (m : Mirrors s scan)
    (step : SessionStep s event t) (named : NamesDecision s event) :
    ∃ next, scan.step event = .ok next ∧ Mirrors t next := by
  cases step with
  | header change =>
    cases change with
    | created hp | renamed hp | archived hp | unarchived hp | modelSelected hp =>
      exact ⟨scan, by simp only [PendingScan.step, hp], m.frame rfl rfl fun _ => rfl⟩
  | @inputAdmitted inputId prompt deliveryMode hp _ fresh =>
    have unknown := input_eq_none represented.inputs fresh
    have absent : scan.inputs.find? inputId = none := by rw [m.inputs, unknown]; rfl
    simp only [PendingScan.step, hp, absent, Option.isSome_none, Bool.false_eq_true, if_false, Except.ok.injEq,
      exists_eq_left']
    let input : AdmittedInput := ⟨inputId, prompt, deliveryMode, none⟩
    have unlisted : s.input input.inputId = none := unknown
    exact m.inputAdmitted unlisted rfl rfl fun _ => rfl
  | @attemptPrepared attemptId inputId model i input hp _ fresh hi hin unpromoted =>
    have found : scan.inputs.find? inputId = some input.inputState := by
      rw [m.inputs, input_eq_some hi hin]
      rfl
    have idle : input.inputState.promoted = false := by
      simp [AdmittedInput.inputState, unpromoted]
    have unused : attemptId ∉ scan.attempts := mt (m.attempts attemptId).mp fresh
    simp only [PendingScan.step, hp, unused, if_false, found, idle, Option.isSome_none, Bool.false_eq_true, Except.ok.injEq,
      exists_eq_left']
    have same : input.inputId = inputId := input_of_findIdx? hi hin
    have kept : ({ input with promotedBy := some attemptId } : AdmittedInput).inputId = inputId := same
    exact m.attemptPrepared hi kept rfl rfl fun _ => rfl
  | @retryPrepared attemptId inputId model priorId prior i hp _ fresh hi =>
    obtain ⟨hlt, -⟩ := List.findIdx?_eq_some_iff_getElem.mp hi
    obtain ⟨input, hin⟩ : ∃ input, s.admittedInputs[i]? = some input :=
      ⟨_, List.getElem?_eq_getElem hlt⟩
    have found : scan.inputs.find? inputId = some input.inputState := by
      rw [m.inputs, input_eq_some hi hin]
      rfl
    have unused : attemptId ∉ scan.attempts := mt (m.attempts attemptId).mp fresh
    simp only [PendingScan.step, hp, unused, if_false, found, Option.isSome_some, if_true, Except.ok.injEq,
      exists_eq_left']
    exact m.retryPrepared rfl rfl fun _ => rfl
  | attemptChanged _ _ change ht =>
    subst ht
    exact ⟨scan, change.scan_step, m.frame rfl rfl fun _ => rfl⟩
  | @toolCallProposed attemptId call a hp _ fresh ha =>
    have unknown : s.toolCall call.toolCallId = none := by
      simp [SessionAggregate.toolCall, find?, Finmap.lookup_eq_none.mpr fresh]
    have absent : scan.tools.find? call.toolCallId = none := by rw [m.tools, unknown]; rfl
    have known : attemptId ∈ scan.attempts := by
      rw [m.attempts, ← Finmap.lookup_isSome]
      obtain ⟨i, hi, -⟩ := Option.bind_eq_some_iff.mp ha
      rw [hi]
      rfl
    simp only [PendingScan.step, hp, known, absent, not_true_eq_false, Option.isSome_none, Bool.false_eq_true, or_self, if_false, Except.ok.injEq,
      exists_eq_left']
    have state : (ToolCallProjection.proposed attemptId call).toolState = _ := rfl
    exact m.setTool state rfl rfl (find?_concat_self ..)
      fun other hne => represented.indexes.toolCalls.find?_concat_ne _ hne
  | toolCallChanged hi hc change =>
    have found := toolCall_of_lookup hi hc
    exact m.toolCallChanged found change (fun decisionId answer hp => named _ _ _ hp _ found)
      rfl rfl (find?_set_self hi hc) fun other hne => represented.indexes.toolCalls.find?_set_ne hi hne

/-- An answer carries the identity of a decision recorded before it for the call. -/
def AnswerNamed (before : List EventEnvelope) (event : EventEnvelope) : Prop :=
  ∀ id decisionId answer, event.payload = .toolPermissionAnswered id decisionId answer →
    ∃ earlier ∈ before, ∃ outcome,
      earlier.payload = .toolPermissionRecorded id decisionId outcome

/-- Each answer in the log carries the identity of the decision it answers. -/
def AnswersNameDecision (log : List EventEnvelope) : Prop :=
  EachAfter AnswerNamed log

/-- A call that waits for its answer has exactly one recorded decision, an open question. -/
theorem recorded_of_pending {sessionId : SessionId} {log : List EventEnvelope} {id : ToolCallId}
    {call : ToolCallProjection} (hs : SessionAggregate.rehydrate sessionId log = .ok s)
    (found : s.toolCall id = some call) (pending : call.status = .permissionPending) :
    call.humanAnswer = none ∧ ∃ decisionId, call.policyDecision = some (decisionId, .ask) ∧
      ∀ other, (∃ earlier ∈ log, ∃ outcome,
        earlier.payload = .toolPermissionRecorded id other outcome) ↔ other = decisionId := by
  obtain ⟨attemptId, spec, decisionId, -, trace, policy, answer⟩ :=
    ((rehydrate_callsTraced hs).traced id call found).of_pending pending
  refine ⟨answer, decisionId, policy, fun other => ⟨?_, ?_⟩⟩
  · rintro ⟨earlier, hm, outcome, hp⟩
    have logged : earlier.payload ∈ callTrace id log := by
      refine List.mem_filter.mpr ⟨List.mem_map_of_mem hm, ?_⟩
      simp [hp, EventPayload.toolCallId?]
    rw [trace, hp] at logged
    simp only [List.mem_cons, reduceCtorEq, EventPayload.toolPermissionRecorded.injEq, true_and,
      List.not_mem_nil, or_false, false_or] at logged
    exact logged.1
  · rintro rfl
    have logged : EventPayload.toolPermissionRecorded id other .ask ∈ callTrace id log := by
      rw [trace]
      simp
    obtain ⟨earlier, hm, hp⟩ := List.mem_map.mp (List.mem_filter.mp logged).1
    exact ⟨earlier, hm, .ask, hp⟩

/-- The step of an answer addresses a waiting call. -/
theorem SessionStep.answered {id : ToolCallId} {decisionId : PermissionDecisionId}
    {answer : PermissionAnswer} (step : SessionStep s event t)
    (payload : event.payload = .toolPermissionAnswered id decisionId answer) :
    ∃ call, s.toolCall id = some call ∧ call.status = .permissionPending := by
  cases step with
  | header change => cases change <;> simp_all
  | inputAdmitted hp | attemptPrepared hp | retryPrepared hp | toolCallProposed hp =>
    cases hp.symm.trans payload
  | attemptChanged _ _ change =>
    have other := change.no_toolCall
    rw [payload] at other
    cases other
  | toolCallChanged hi hc change =>
    have about := change.toolCallId_eq
    rw [payload] at about
    cases Option.some.inj about
    cases change with
    | answered hp hs => exact ⟨_, toolCall_of_lookup hi hc, List.mem_singleton.mp hs⟩
    | recorded hp | started hp | completed hp | failed hp | denied hp | cancelled hp
    | markedUnknown hp => cases hp.symm.trans payload

theorem namesDecision_of_answerNamed {sessionId : SessionId} {log : List EventEnvelope}
    (hs : SessionAggregate.rehydrate sessionId log = .ok s) (step : SessionStep s event t)
    (named : AnswerNamed log event) : NamesDecision s event := by
  intro id decisionId answer payload call found
  obtain ⟨pending, hpending, status⟩ := step.answered payload
  cases Option.some.inj (found.symm.trans hpending)
  obtain ⟨-, recorded, policy, unique⟩ := recorded_of_pending hs found status
  rw [policy, (unique decisionId).mp (named id decisionId answer payload)]

/-- An answer under another identity stops the reader. -/
theorem answerNamed_of_scan {sessionId : SessionId} {log : List EventEnvelope}
    (hs : SessionAggregate.rehydrate sessionId log = .ok s) (m : Mirrors s scan)
    (step : SessionStep s event t) (accepted : scan.step event = .ok next) :
    AnswerNamed log event := by
  intro id decisionId answer payload
  obtain ⟨call, found, status⟩ := step.answered payload
  have stage : call.status.stage ∈ [PendingToolStage.permissionPending] := by
    simp [status, ToolCallStatus.stage]
  simp only [PendingScan.step, payload, m.requireToolStage found stage, ok_bind] at accepted
  split at accepted
  next => cases accepted
  next named =>
    have policy : call.policyDecision = some (decisionId, .ask) := not_not.mp named
    obtain ⟨-, recorded, same, unique⟩ := recorded_of_pending hs found status
    rw [policy] at same
    have equal : decisionId = recorded := congrArg Prod.fst (Option.some.inj same)
    exact (unique decisionId).mpr equal

/-- The fold of the reader accepts exactly the accepted logs whose answers name their decision,
and ends in the mirror of the aggregate. -/
theorem pendingScan_run {sessionId : SessionId} {log : List EventEnvelope}
    (h : SessionAggregate.rehydrate sessionId log = .ok s) :
    (AnswersNameDecision log → ∃ scan, run PendingScan.step .start log = .ok scan ∧ Mirrors s scan) ∧
      ∀ scan, run PendingScan.step .start log = .ok scan →
        AnswersNameDecision log ∧ Mirrors s scan := by
  refine run_history (P := fun log s =>
    (AnswersNameDecision log → ∃ scan, run PendingScan.step .start log = .ok scan ∧ Mirrors s scan) ∧
      ∀ scan, run PendingScan.step .start log = .ok scan →
        AnswersNameDecision log ∧ Mirrors s scan) ⟨?_, ?_⟩ ?_ h
  · exact fun _ => ⟨.start, rfl, mirrors_start sessionId⟩
  · rintro scan accepted
    cases Except.ok.inj accepted
    exact ⟨eachAfter_nil, mirrors_start sessionId⟩
  · intro xs m event t hm ih applied
    obtain ⟨-, u, step, rfl⟩ := applyOne_eq_ok_iff.mp applied
    have represented := rehydrate_represented hm
    refine ⟨fun named => ?_, fun scan accepted => ?_⟩
    · obtain ⟨old, last⟩ := eachAfter_concat_iff.mp named
      obtain ⟨scan, ran, mirrors⟩ := ih.1 old
      obtain ⟨next, stepped, mirrored⟩ :=
        mirrors_step represented mirrors step (namesDecision_of_answerNamed hm step last)
      exact ⟨next, run_concat_ok_iff.mpr ⟨scan, ran, stepped⟩,
        mirrored.frame rfl rfl fun _ => rfl⟩
    · obtain ⟨before, ran, stepped⟩ := run_concat_ok_iff.mp accepted
      obtain ⟨named, mirrors⟩ := ih.2 before ran
      have last := answerNamed_of_scan hm mirrors step stepped
      obtain ⟨next, again, mirrored⟩ :=
        mirrors_step represented mirrors step (namesDecision_of_answerNamed hm step last)
      cases Except.ok.inj (again.symm.trans stepped)
      exact ⟨eachAfter_concat_iff.mpr ⟨named, last⟩, mirrored.frame rfl rfl fun _ => rfl⟩

end AutoHarness
