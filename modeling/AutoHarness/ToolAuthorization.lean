import AutoHarness.AggregateRepresentation
import AutoHarness.ToolPlan

namespace AutoHarness

open IndexedList

variable {s t : SessionAggregate} {event : EventEnvelope}

/-- The tool call an event is about. -/
def EventPayload.toolCallId? : EventPayload → Option ToolCallId
  | .toolCallProposed _ call => some call.toolCallId
  | .toolPermissionRecorded id _ _ | .toolPermissionAnswered id _ _ | .toolCallStarted id
  | .toolCallCompleted id _ | .toolCallFailed id _ | .toolCallDenied id | .toolCallCancelled id
  | .toolCallMarkedUnknown id => some id
  | _ => none

/-- The part of a log that is about one tool call. -/
def callTrace (id : ToolCallId) (log : List EventEnvelope) : List EventPayload :=
  (log.map EventEnvelope.payload).filter fun payload => payload.toolCallId? == some id

theorem callTrace_concat_self {id : ToolCallId} (log : List EventEnvelope)
    (h : event.payload.toolCallId? = some id) :
    callTrace id (log ++ [event]) = callTrace id log ++ [event.payload] := by
  simp [callTrace, h]

theorem callTrace_concat_ne {id : ToolCallId} (log : List EventEnvelope)
    (h : event.payload.toolCallId? ≠ some id) :
    callTrace id (log ++ [event]) = callTrace id log := by
  simp [callTrace, h]

/-- The complete traces after which a call may start, with the evidence they leave behind. -/
inductive GrantTrace (id : ToolCallId) : List EventPayload →
    Option (PermissionDecisionId × PermissionOutcome) →
    Option (PermissionDecisionId × PermissionAnswer) → Prop
  | policy {attemptId call decisionId} : call.toolCallId = id →
      GrantTrace id [.toolCallProposed attemptId call, .toolPermissionRecorded id decisionId .allow]
        (some (decisionId, .allow)) none
  | human {attemptId call decisionId answerId} : call.toolCallId = id →
      GrantTrace id [.toolCallProposed attemptId call, .toolPermissionRecorded id decisionId .ask,
        .toolPermissionAnswered id answerId .allowOnce]
        (some (decisionId, .ask)) (some (answerId, .allowOnce))

/-- What the trace of a call says about its projection. -/
inductive CallTrace (id : ToolCallId) : List EventPayload → ToolCallProjection → Prop
  | proposed {attemptId call c} : call.toolCallId = id → c.status = .proposed →
      c.policyDecision = none → c.humanAnswer = none →
      CallTrace id [.toolCallProposed attemptId call] c
  | pending {attemptId call decisionId c} : call.toolCallId = id → c.status = .permissionPending →
      c.policyDecision = some (decisionId, .ask) → c.humanAnswer = none →
      CallTrace id [.toolCallProposed attemptId call, .toolPermissionRecorded id decisionId .ask] c
  | granted {trace c} : GrantTrace id trace c.policyDecision c.humanAnswer →
      c.status = .authorized → CallTrace id trace c
  | running {trace c} : GrantTrace id trace c.policyDecision c.humanAnswer →
      c.status = .running → CallTrace id (trace ++ [.toolCallStarted id]) c
  | finished {trace final c} : GrantTrace id trace c.policyDecision c.humanAnswer →
      c.status.isSettled = true → final ≠ .toolCallStarted id →
      CallTrace id (trace ++ [.toolCallStarted id, final]) c
  | unstarted {trace c} : c.status = .deniedPending ∨ c.status.isSettled = true →
      .toolCallStarted id ∉ trace → CallTrace id trace c

theorem GrantTrace.not_started {id : ToolCallId} {trace : List EventPayload}
    {policy : Option (PermissionDecisionId × PermissionOutcome)}
    {answer : Option (PermissionDecisionId × PermissionAnswer)}
    (h : GrantTrace id trace policy answer) : .toolCallStarted id ∉ trace := by
  cases h <;> simp

theorem CallTrace.started_once {id : ToolCallId} {trace : List EventPayload}
    {c : ToolCallProjection} (h : CallTrace id trace c) :
    trace.count (.toolCallStarted id) ≤ 1 := by
  cases h with
  | proposed | pending => simp
  | granted grant => simp [List.count_eq_zero_of_not_mem grant.not_started]
  | running grant => simp [List.count_append, List.count_eq_zero_of_not_mem grant.not_started]
  | finished grant _ final =>
    simp [List.count_append, List.count_eq_zero_of_not_mem grant.not_started, final]
  | unstarted _ absent => simp [List.count_eq_zero_of_not_mem absent]

section Status

variable {id : ToolCallId} {trace : List EventPayload} {c : ToolCallProjection}

theorem CallTrace.of_proposed (h : CallTrace id trace c) (status : c.status = .proposed) :
    ∃ attemptId call, call.toolCallId = id ∧ trace = [.toolCallProposed attemptId call] ∧
      c.policyDecision = none ∧ c.humanAnswer = none := by
  cases h with
  | proposed key _ policy answer => exact ⟨_, _, key, rfl, policy, answer⟩
  | pending _ hs | granted _ hs | running _ hs => cases status.symm.trans hs
  | finished _ hs => rw [status] at hs; cases hs
  | unstarted hs => rw [status] at hs; rcases hs with hs | hs <;> cases hs

theorem CallTrace.of_pending (h : CallTrace id trace c) (status : c.status = .permissionPending) :
    ∃ attemptId call decisionId, call.toolCallId = id ∧
      trace = [.toolCallProposed attemptId call, .toolPermissionRecorded id decisionId .ask] ∧
      c.policyDecision = some (decisionId, .ask) ∧ c.humanAnswer = none := by
  cases h with
  | pending key _ policy answer => exact ⟨_, _, _, key, rfl, policy, answer⟩
  | proposed _ hs | granted _ hs | running _ hs => cases status.symm.trans hs
  | finished _ hs => rw [status] at hs; cases hs
  | unstarted hs => rw [status] at hs; rcases hs with hs | hs <;> cases hs

theorem CallTrace.of_authorized (h : CallTrace id trace c) (status : c.status = .authorized) :
    GrantTrace id trace c.policyDecision c.humanAnswer := by
  cases h with
  | granted grant => exact grant
  | proposed _ hs | pending _ hs | running _ hs => cases status.symm.trans hs
  | finished _ hs => rw [status] at hs; cases hs
  | unstarted hs => rw [status] at hs; rcases hs with hs | hs <;> cases hs

theorem CallTrace.of_running (h : CallTrace id trace c) (status : c.status = .running) :
    ∃ before, trace = before ++ [.toolCallStarted id] ∧
      GrantTrace id before c.policyDecision c.humanAnswer := by
  cases h with
  | running grant => exact ⟨_, rfl, grant⟩
  | proposed _ hs | pending _ hs | granted _ hs => cases status.symm.trans hs
  | finished _ hs => rw [status] at hs; cases hs
  | unstarted hs => rw [status] at hs; rcases hs with hs | hs <;> cases hs

theorem CallTrace.not_started (h : CallTrace id trace c)
    (status : c.status ∈ [ToolCallStatus.proposed, .permissionPending, .authorized, .deniedPending]) :
    .toolCallStarted id ∉ trace := by
  cases h with
  | proposed | pending => simp
  | granted grant => exact grant.not_started
  | running _ hs => simp [hs] at status
  | finished _ hs => exact absurd hs (by revert status; cases c.status <;> simp [ToolCallStatus.isSettled])
  | unstarted _ absent => exact absent

/-- A started call keeps the evidence it was started with. -/
theorem CallTrace.of_started (h : CallTrace id trace c) (started : .toolCallStarted id ∈ trace) :
    ∃ before, GrantTrace id before c.policyDecision c.humanAnswer := by
  cases h with
  | proposed | pending => simp at started
  | granted grant => exact absurd started grant.not_started
  | running grant | finished grant => exact ⟨_, grant⟩
  | unstarted _ absent => exact absurd started absent

theorem ToolCallChange.toolCallId_eq {d : ToolCallProjection} (h : ToolCallChange s event id c d) :
    event.payload.toolCallId? = some id := by
  cases h with
  | recorded hp | answered hp | started hp | completed hp | failed hp | denied hp | cancelled hp
  | markedUnknown hp => rw [hp]; rfl

theorem CallTrace.next {d : ToolCallProjection} (h : CallTrace id trace c)
    (change : ToolCallChange s event id c d) : CallTrace id (trace ++ [event.payload]) d := by
  cases change with
  | @recorded decisionId outcome hp hs =>
    obtain ⟨attemptId, call, key, rfl, policy, answer⟩ := h.of_proposed (by simpa using hs)
    rw [hp]
    cases outcome with
    | deny => exact .unstarted (.inl rfl) (by simp)
    | ask => exact .pending key rfl rfl answer
    | allow => exact .granted (by rw [answer]; exact .policy key) rfl
  | @answered decisionId answer hp hs =>
    obtain ⟨attemptId, call, decision, key, rfl, policy, unanswered⟩ :=
      h.of_pending (by simpa using hs)
    rw [hp]
    cases answer with
    | allowOnce => exact .granted (by rw [policy]; exact .human key) rfl
    | deny => exact .unstarted (.inl rfl) (by simp)
  | started hp hs =>
    rw [hp]
    exact .running (h.of_authorized (by simpa using hs)) rfl
  | completed hp hs | failed hp hs | markedUnknown hp hs =>
    obtain ⟨before, rfl, grant⟩ := h.of_running (by simpa using hs)
    rw [hp, List.append_assoc]
    exact .finished grant rfl nofun
  | denied hp hs =>
    have absent := h.not_started (by simp at hs; simp [hs])
    rw [hp]
    exact .unstarted (.inr rfl) (by simpa using absent)
  | cancelled hp hs =>
    rw [hp]
    by_cases running : c.status = .running
    · obtain ⟨before, rfl, grant⟩ := h.of_running running
      rw [List.append_assoc]
      exact .finished grant rfl nofun
    · have absent := h.not_started (by revert hs running; cases c.status <;> simp)
      exact .unstarted (.inr rfl) (by simpa using absent)

end Status

/-- Every call of the session is explained by its trace, and only proposed calls have one. -/
structure CallsTraced (log : List EventEnvelope) (s : SessionAggregate) : Prop where
  traced : ∀ id c, s.toolCall id = some c → CallTrace id (callTrace id log) c
  untraced : ∀ id, s.toolCall id = none → callTrace id log = []

theorem callsTraced_of_other {log : List EventEnvelope} (h : CallsTraced log s)
    (other : event.payload.toolCallId? = none) (same : ∀ id, t.toolCall id = s.toolCall id) :
    CallsTraced (log ++ [event]) t := by
  refine ⟨fun id c hc => ?_, fun id hn => ?_⟩
  · rw [callTrace_concat_ne log (by simp [other])]
    exact h.traced id c ((same id).symm.trans hc)
  · rw [callTrace_concat_ne log (by simp [other])]
    exact h.untraced id ((same id).symm.trans hn)

/-- An event about one call leaves the traces of all others alone. -/
theorem callsTraced_of_one {log : List EventEnvelope} (h : CallsTraced log s) {id : ToolCallId}
    {d : ToolCallProjection} (about : event.payload.toolCallId? = some id)
    (new : t.toolCall id = some d) (trace : CallTrace id (callTrace id log ++ [event.payload]) d)
    (same : ∀ other, other ≠ id → t.toolCall other = s.toolCall other) :
    CallsTraced (log ++ [event]) t := by
  refine ⟨fun other c hc => ?_, fun other hn => ?_⟩
  · by_cases heq : other = id
    · subst heq
      cases Option.some.inj (new.symm.trans hc)
      rw [callTrace_concat_self log about]
      exact trace
    · rw [callTrace_concat_ne log (by simpa [about] using Ne.symm heq)]
      exact h.traced other c ((same other heq).symm.trans hc)
  · have heq : other ≠ id := by
      rintro rfl
      cases new.symm.trans hn
    rw [callTrace_concat_ne log (by simpa [about] using Ne.symm heq)]
    exact h.untraced other ((same other heq).symm.trans hn)

theorem AttemptChange.no_toolCall {id : AttemptId} {a b : AttemptProjection}
    (h : AttemptChange s event id a b) : event.payload.toolCallId? = none := by
  cases h with
  | started hp | textAppended hp | usageRecorded hp | cancellationRequested hp | completed hp
  | failed hp | cancelled hp | markedUnknown hp | budgetConfigured hp | contextBound hp
  | turnStarted hp | paused hp | resumed hp => rw [hp]; rfl

theorem callsTraced_step {log : List EventEnvelope} (hi : IndexesExact s)
    (h : CallsTraced log s) (step : SessionStep s event t) : CallsTraced (log ++ [event]) t := by
  cases step with
  | header change =>
    cases change with
    | created hp | renamed hp | archived hp | unarchived hp | modelSelected hp =>
      exact callsTraced_of_other h (by rw [hp]; rfl) fun _ => rfl
  | inputAdmitted hp | attemptPrepared hp | retryPrepared hp =>
    exact callsTraced_of_other h (by rw [hp]; rfl) fun _ => rfl
  | attemptChanged _ _ change ht =>
    subst ht
    exact callsTraced_of_other h change.no_toolCall fun _ => rfl
  | @toolCallProposed attemptId call _ hp _ fresh =>
    have unknown : s.toolCall call.toolCallId = none := by
      simp [SessionAggregate.toolCall, find?, Finmap.lookup_eq_none.mpr fresh]
    refine callsTraced_of_one h (by rw [hp]; rfl) (find?_concat_self ..) ?_
      fun other hne => hi.toolCalls.find?_concat_ne _ hne
    rw [h.untraced _ unknown, hp]
    exact .proposed rfl rfl rfl rfl
  | toolCallChanged hid hold change =>
    exact callsTraced_of_one h change.toolCallId_eq (find?_set_self hid hold)
      ((h.traced _ _ (toolCall_of_lookup hid hold)).next change)
      fun other hne => hi.toolCalls.find?_set_ne hid hne

theorem rehydrate_callsTraced {sessionId : SessionId} {log : List EventEnvelope}
    (h : SessionAggregate.rehydrate sessionId log = .ok s) : CallsTraced log s := by
  refine FallibleRun.run_history (P := CallsTraced) ⟨?_, fun _ _ => rfl⟩
    (fun xs m event t hm inv step => ?_) h
  · simp [SessionAggregate.toolCall, SessionAggregate.empty, find?]
  · obtain ⟨-, u, hu, rfl⟩ := applyOne_eq_ok_iff.mp step
    have next := callsTraced_step (rehydrate_represented hm).indexes inv hu
    exact ⟨next.traced, next.untraced⟩

theorem SessionStep.toolCallStarted {id : ToolCallId} (step : SessionStep s event t)
    (payload : event.payload = .toolCallStarted id) :
    ∃ c, s.toolCall id = some c ∧ c.status = .authorized := by
  cases step with
  | header change =>
    cases change with
    | created hp | renamed hp | archived hp | unarchived hp | modelSelected hp =>
      cases hp.symm.trans payload
  | inputAdmitted hp | attemptPrepared hp | retryPrepared hp | toolCallProposed hp =>
    cases hp.symm.trans payload
  | attemptChanged _ _ change _ =>
    have none := change.no_toolCall
    rw [payload] at none
    cases none
  | toolCallChanged hid hold change =>
    cases change with
    | started hp hs =>
      cases hp.symm.trans payload
      exact ⟨_, toolCall_of_lookup hid hold, by simpa using hs⟩
    | recorded hp | answered hp | completed hp | failed hp | denied hp | cancelled hp
    | markedUnknown hp => cases hp.symm.trans payload

/-- The evidence that a permission pair amounts to. -/
def permissionEvidence? : PermissionOutcome → Option PermissionAnswer → Option PermissionEvidence
  | .allow, none => some .policyAllow
  | .ask, some .allowOnce => some .humanAllowOnce
  | _, _ => none

theorem authorize_eq_ok_iff {planned : PlannedToolCall} {outcome : PermissionOutcome}
    {answer : Option PermissionAnswer} {authorized : AuthorizedToolCall}
    {evidence : PermissionEvidence} :
    authorize planned outcome answer = .ok (authorized, evidence) ↔
      planned.rejectsExecution = false ∧ permissionEvidence? outcome answer = some evidence ∧
        authorized = ⟨planned⟩ := by
  unfold authorize permissionEvidence?
  split
  next rejects => simp [rejects]
  next accepts =>
    split
    next => simp [accepts, eq_comm, and_comm]
    next => simp [accepts, eq_comm, and_comm]
    next => simp

theorem GrantTrace.evidence {id : ToolCallId} {trace : List EventPayload}
    {policy : Option (PermissionDecisionId × PermissionOutcome)}
    {answer : Option (PermissionDecisionId × PermissionAnswer)}
    (h : GrantTrace id trace policy answer) :
    ∃ decisionId outcome evidence, policy = some (decisionId, outcome) ∧
      permissionEvidence? outcome (answer.map Prod.snd) = some evidence := by
  cases h with
  | policy => exact ⟨_, _, .policyAllow, rfl, rfl⟩
  | human => exact ⟨_, _, .humanAllowOnce, rfl, rfl⟩

/-- A denial is no evidence. -/
theorem GrantTrace.not_denied {id : ToolCallId} {trace : List EventPayload}
    {policy : Option (PermissionDecisionId × PermissionOutcome)}
    {answer : Option (PermissionDecisionId × PermissionAnswer)}
    (h : GrantTrace id trace policy answer) :
    (∀ decisionId, policy ≠ some (decisionId, .deny)) ∧
      ∀ decisionId, answer ≠ some (decisionId, .deny) := by
  cases h <;> simp

theorem callTrace_append (id : ToolCallId) (xs ys : List EventEnvelope) :
    callTrace id (xs ++ ys) = callTrace id xs ++ callTrace id ys := by
  simp [callTrace]

theorem count_started (id : ToolCallId) (log : List EventEnvelope) :
    (log.map EventEnvelope.payload).count (.toolCallStarted id) =
      (callTrace id log).count (.toolCallStarted id) :=
  (List.count_filter (by simp [EventPayload.toolCallId?])).symm

/-- Starts of a call, their permission evidence, and what the tool runtime makes of it. -/
theorem rehydrate_tool_authorization {sessionId : SessionId} {log : List EventEnvelope}
    (h : SessionAggregate.rehydrate sessionId log = .ok t) :
    (∀ id, (log.map EventEnvelope.payload).count (.toolCallStarted id) ≤ 1) ∧
    (∀ before event after id, log = before ++ event :: after →
      event.payload = .toolCallStarted id →
      ∃ policy answer, GrantTrace id (callTrace id before) policy answer) ∧
    (∀ before after, log = before ++ after →
      ∃ s, SessionAggregate.rehydrate sessionId before = .ok s ∧
        (∀ c ∈ t.toolCalls, (∃ decisionId, c.policyDecision = some (decisionId, .deny)) ∨
            (∃ decisionId, c.humanAnswer = some (decisionId, .deny)) →
          ∀ b ∈ s.toolCalls, b.call.toolCallId = c.call.toolCallId → b.status ≠ .running) ∧
        (∀ c ∈ s.toolCalls, c.status = .authorized ∨ c.status = .running →
          ∃ decisionId outcome evidence, c.policyDecision = some (decisionId, outcome) ∧
            ∀ planned, planned.rejectsExecution = false →
              authorize planned outcome (c.humanAnswer.map Prod.snd) =
                .ok (⟨planned⟩, evidence))) := by
  have traced := rehydrate_callsTraced h
  have indexes := (rehydrate_represented h).indexes
  refine ⟨fun id => ?_, ?_, ?_⟩
  · rw [count_started]
    cases found : t.toolCall id with
    | none => simp [traced.untraced id found]
    | some c => exact (traced.traced id c found).started_once
  · rintro before event after id rfl payload
    obtain ⟨s, hs, ht⟩ := FallibleRun.run_append_ok_iff.mp h
    rw [FallibleRun.run_cons] at ht
    obtain ⟨m, hm, -⟩ := FallibleRun.bind_eq_ok_iff.mp ht
    obtain ⟨-, u, hu, -⟩ := applyOne_eq_ok_iff.mp hm
    obtain ⟨c, hc, authorized⟩ := hu.toolCallStarted payload
    exact ⟨_, _, ((rehydrate_callsTraced hs).traced id c hc).of_authorized authorized⟩
  · rintro before after rfl
    obtain ⟨s, hs, -⟩ := FallibleRun.run_append_ok_iff.mp h
    have early := rehydrate_callsTraced hs
    have positions := (rehydrate_represented hs).indexes
    refine ⟨s, hs, fun c hc denied b hb same running => ?_, fun c hc status => ?_⟩
    · -- a call that ran keeps the evidence it was started with
      have hfound := positions.toolCalls.find?_eq_some_iff.mpr ⟨hb, same⟩
      obtain ⟨earlier, trace, -⟩ := (early.traced _ _ hfound).of_running running
      have started : .toolCallStarted c.toolCallId ∈ callTrace c.toolCallId (before ++ after) := by
        rw [callTrace_append, show callTrace c.toolCallId before = _ from trace]
        simp [ToolCallProjection.toolCallId]
      have final := indexes.toolCalls.find?_eq_some_iff.mpr ⟨hc, rfl⟩
      obtain ⟨_, grant⟩ := (traced.traced _ _ final).of_started started
      rcases denied with ⟨decisionId, policy⟩ | ⟨decisionId, answer⟩
      · exact grant.not_denied.1 decisionId policy
      · exact grant.not_denied.2 decisionId answer
    · have hfound := positions.toolCalls.find?_eq_some_iff.mpr ⟨hc, rfl⟩
      have trace := early.traced _ _ hfound
      have grant : ∃ earlier, GrantTrace c.toolCallId earlier c.policyDecision c.humanAnswer := by
        rcases status with status | status
        · exact ⟨_, trace.of_authorized status⟩
        · obtain ⟨earlier, -, grant⟩ := trace.of_running status
          exact ⟨earlier, grant⟩
      obtain ⟨earlier, grant⟩ := grant
      obtain ⟨decisionId, outcome, evidence, policy, accepted⟩ := grant.evidence
      exact ⟨decisionId, outcome, evidence, policy, fun planned executable =>
        authorize_eq_ok_iff.mpr ⟨executable, accepted, rfl⟩⟩

/-- The sample call is asked for, allowed once by a human, and started. -/
def startedLog : List EventEnvelope :=
  sampleEvents .first (samplePayloads ++
    [.toolPermissionRecorded sampleCall.toolCallId ⟨"decision-1", rfl⟩ .ask,
      .toolPermissionAnswered sampleCall.toolCallId ⟨"decision-2", rfl⟩ .allowOnce,
      .toolCallStarted sampleCall.toolCallId])

theorem startedLog_accepted : ∃ s, SessionAggregate.rehydrate sampleSession startedLog = .ok s :=
  ⟨_, rfl⟩

theorem rehydrate_tool_authorization_sample :
    ∃ s, SessionAggregate.rehydrate sampleSession startedLog = .ok s ∧
      (startedLog.map EventEnvelope.payload).count (.toolCallStarted sampleCall.toolCallId) ≤ 1 := by
  obtain ⟨s, hs⟩ := startedLog_accepted
  exact ⟨s, hs, (rehydrate_tool_authorization hs).1 sampleCall.toolCallId⟩

/-- A call of a tool that the registry does not know, as `plan` freezes it. -/
def unregisteredCall : ToolCallSpec :=
  { sampleCall with toolName := ⟨"not_registered", rfl⟩, capability := invalidToolCallRequest }

/-- The policy outcome of the unregistered call was recorded as an allowance. -/
def unregisteredLog : List EventEnvelope :=
  sampleEvents .first
    [.sessionCreated, .modelSelected sampleModel,
      .inputAdmitted sampleInput samplePrompt .nextTurn,
      .attemptPrepared sampleAttempt sampleInput sampleModel none, .attemptStarted sampleAttempt,
      .toolCallProposed sampleAttempt unregisteredCall,
      .toolPermissionRecorded unregisteredCall.toolCallId ⟨"decision-1", rfl⟩ .allow]

theorem rehydrate_authorizes_unplannable_call :
    ∃ s c, SessionAggregate.rehydrate sampleSession unregisteredLog = .ok s ∧
      s.toolCalls = [c] ∧ c.status = .authorized ∧
      c.policyDecision = some (⟨"decision-1", rfl⟩, .allow) ∧ c.humanAnswer = none ∧
      ∀ parseUrl, ∃ planned, replan parseUrl c.call = .ok planned ∧
        authorize planned .allow none = .error invalidCall ∧
        authorizeReplayed parseUrl c.call .allow none = .error invalidCall := by
  refine ⟨_, _, rfl, rfl, rfl, rfl, rfl, fun parseUrl => ⟨⟨unregisteredCall, .rejectInvalid⟩, ?_⟩⟩
  exact ⟨rfl, rfl, rfl⟩

end AutoHarness
