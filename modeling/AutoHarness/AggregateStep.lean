import AutoHarness.AggregateApply

namespace AutoHarness

/-- The context-turn identities that a payload adds to the session. -/
def EventPayload.boundContextTurns : EventPayload → Finset ContextTurnId
  | .contextTurnBound _ _ contextTurnId _ => {contextTurnId}
  | _ => ∅

/-- Events that touch only the session header. -/
inductive HeaderChange (s : SessionAggregate) (event : EventEnvelope) : SessionAggregate → Prop
  | created : event.payload = .sessionCreated → s.isCreated = false →
      HeaderChange s event { s with isCreated := true }
  | renamed {title} : event.payload = .sessionRenamed title → s.isCreated = true →
      HeaderChange s event { s with title := some title }
  | archived : event.payload = .sessionArchived → s.isCreated = true → s.isArchived = false →
      HeaderChange s event { s with isArchived := true }
  | unarchived : event.payload = .sessionUnarchived → s.isCreated = true →
      s.isArchived = true → HeaderChange s event { s with isArchived := false }
  | modelSelected {model} : event.payload = .modelSelected model → s.isCreated = true →
      HeaderChange s event { s with selectedModel := some model }

/-- What an accepted event does to the attempt it addresses, with everything it checks. -/
inductive AttemptChange (s : SessionAggregate) (event : EventEnvelope) :
    AttemptId → AttemptProjection → AttemptProjection → Prop
  | started {id a} : event.payload = .attemptStarted id → a.status ∈ [AttemptStatus.prepared] →
      AttemptChange s event id a { a with
        status := .inFlight, providerDispatchReady := true, startedAt := some event.occurredAt }
  | textAppended {id a text} : event.payload = .attemptTextAppended id text →
      a.status ∈ [AttemptStatus.inFlight, .cancellationRequested] →
      AttemptChange s event id a { a with text := a.text ++ [text] }
  | usageRecorded {id a usage} : event.payload = .attemptUsageRecorded id usage →
      a.status ∈ [AttemptStatus.inFlight, .cancellationRequested] →
      AttemptChange s event id a { a with usage := some usage }
  | cancellationRequested {id a} : event.payload = .attemptCancellationRequested id →
      a.status ∈ [AttemptStatus.inFlight, .awaitingTools] →
      AttemptChange s event id a { a with status := .cancellationRequested }
  | completed {id a} : event.payload = .attemptCompleted id →
      s.hasUnsettledToolCall id = false →
      a.status ∈ [AttemptStatus.inFlight, .awaitingTools, .cancellationRequested] →
      AttemptChange s event id a { a with
        status := .completed, completedSequence := some event.sequence }
  | failed {id a failure} : event.payload = .attemptFailed id failure →
      s.hasUnsettledToolCall id = false →
      a.status ∈ [AttemptStatus.prepared, .inFlight, .awaitingTools, .cancellationRequested] →
      AttemptChange s event id a { a with status := .failed, failure := some failure }
  | cancelled {id a} : event.payload = .attemptCancelled id →
      s.hasUnsettledToolCall id = false → a.status ∈ [AttemptStatus.cancellationRequested] →
      AttemptChange s event id a { a with status := .cancelled }
  | markedUnknown {id a} : event.payload = .attemptMarkedUnknown id →
      s.hasUnsettledToolCall id = false →
      a.status ∈ [AttemptStatus.inFlight, .cancellationRequested] →
      AttemptChange s event id a { a with status := .unknown }
  | budgetConfigured {id a limits} : event.payload = .runBudgetConfigured id limits →
      a.runLimits = none → a.status ∈ [AttemptStatus.prepared] →
      AttemptChange s event id a { a with runLimits := some limits }
  | contextBound {id a runTurn contextTurnId manifestHash} :
      event.payload = .contextTurnBound id runTurn contextTurnId manifestHash →
      s.isCreated = true → contextTurnId ∉ s.contextTurnIds →
      a.status ∈ [AttemptStatus.inFlight] → a.providerDispatchReady = true →
      checkedSucc a.turnsStarted = some runTurn → a.pendingContextTurn = none →
      a.exceedsTurns runTurn = false →
      AttemptChange s event id a { a with
        contextTurnBindings := a.contextTurnBindings ++
          [⟨runTurn, contextTurnId, manifestHash, event.sequence⟩] }
  | turnStarted {id a turn binding} : event.payload = .runTurnStarted id turn →
      a.status ∈ [AttemptStatus.inFlight] → a.providerDispatchReady = true →
      a.pendingContextTurn = some binding → binding.runTurn = turn →
      binding.boundSequence.checkedNext = some event.sequence →
      checkedSucc a.turnsStarted = some turn → a.exceedsTurns turn = false →
      AttemptChange s event id a { a with turnsStarted := turn, providerDispatchReady := false }
  | paused {id a call} : event.payload = .attemptPausedForTools id →
      a.status ∈ [AttemptStatus.inFlight] → a.providerDispatchReady = false →
      a.turnsStarted ≠ 0 → call ∈ s.toolCalls → call.attemptId = id →
      AttemptChange s event id a { a with status := .awaitingTools }
  | resumed {id a} : event.payload = .attemptResumedAfterTools id →
      s.hasUnsettledToolCall id = false → a.status ∈ [AttemptStatus.awaitingTools] →
      AttemptChange s event id a { a with status := .inFlight, providerDispatchReady := true }

/-- What an accepted event does to the tool call it addresses. -/
inductive ToolCallChange (s : SessionAggregate) (event : EventEnvelope) :
    ToolCallId → ToolCallProjection → ToolCallProjection → Prop
  | recorded {id c decisionId outcome} :
      event.payload = .toolPermissionRecorded id decisionId outcome →
      c.status ∈ [ToolCallStatus.proposed] →
      ToolCallChange s event id c { c with
        policyDecision := some (decisionId, outcome), status := outcome.nextStatus }
  | answered {id c decisionId answer} :
      event.payload = .toolPermissionAnswered id decisionId answer →
      c.status ∈ [ToolCallStatus.permissionPending] →
      ToolCallChange s event id c { c with
        humanAnswer := some (decisionId, answer), status := answer.nextStatus }
  | started {id c a} : event.payload = .toolCallStarted id →
      c.status ∈ [ToolCallStatus.authorized] → s.attempt c.attemptId = some a →
      a.status ∈ [AttemptStatus.inFlight, .awaitingTools] →
      ToolCallChange s event id c { c with status := .running }
  | completed {id c output} : event.payload = .toolCallCompleted id output →
      c.status ∈ [ToolCallStatus.running] →
      ToolCallChange s event id c { c with status := .completed, output := some output }
  | failed {id c failure} : event.payload = .toolCallFailed id failure →
      c.status ∈ [ToolCallStatus.running] →
      ToolCallChange s event id c { c with status := .failed, failure := some failure }
  | denied {id c} : event.payload = .toolCallDenied id →
      c.status ∈ [ToolCallStatus.deniedPending] →
      ToolCallChange s event id c { c with status := .denied }
  | cancelled {id c} : event.payload = .toolCallCancelled id →
      c.status ∈ [ToolCallStatus.proposed, .permissionPending, .authorized, .running] →
      ToolCallChange s event id c { c with status := .cancelled }
  | markedUnknown {id c} : event.payload = .toolCallMarkedUnknown id →
      c.status ∈ [ToolCallStatus.running] →
      ToolCallChange s event id c { c with status := .unknown }

/-- Every way in which an event can be accepted, and the state it leads to. -/
inductive SessionStep (s : SessionAggregate) (event : EventEnvelope) : SessionAggregate → Prop
  | header {t} : HeaderChange s event t → SessionStep s event t
  | inputAdmitted {inputId prompt deliveryMode} :
      event.payload = .inputAdmitted inputId prompt deliveryMode → s.isCreated = true →
      inputId ∉ s.admittedInputIds →
      SessionStep s event { s with
        admittedInputIds := insert inputId s.admittedInputIds
        admittedInputs := s.admittedInputs ++ [⟨inputId, prompt, deliveryMode, none⟩] }
  | attemptPrepared {attemptId inputId model i input} :
      event.payload = .attemptPrepared attemptId inputId model none → s.isCreated = true →
      attemptId ∉ s.attemptIndexes →
      s.admittedInputs.findIdx? (fun input => input.inputId == inputId) = some i →
      s.admittedInputs[i]? = some input → input.promotedBy = none →
      s.selectedModel = some model →
      SessionStep s event { s with
        admittedInputs := s.admittedInputs.set i { input with promotedBy := some attemptId }
        attempts := s.attempts ++ [.prepared attemptId inputId model none]
        attemptIndexes := s.attemptIndexes.insert attemptId s.attempts.length }
  | retryPrepared {attemptId inputId model priorId prior i} :
      event.payload = .attemptPrepared attemptId inputId model (some priorId) →
      s.isCreated = true → attemptId ∉ s.attemptIndexes →
      s.admittedInputs.findIdx? (fun input => input.inputId == inputId) = some i →
      s.attempt priorId = some prior → prior.canRetry = true → prior.inputId = inputId →
      prior.model = model →
      SessionStep s event { s with
        attempts := s.attempts ++ [.prepared attemptId inputId model (some priorId)]
        attemptIndexes := s.attemptIndexes.insert attemptId s.attempts.length }
  | attemptChanged {id i a b t} : s.attemptIndexes.lookup id = some i →
      s.attempts[i]? = some a → AttemptChange s event id a b →
      t = { s with
        attempts := s.attempts.set i b
        contextTurnIds := event.payload.boundContextTurns ∪ s.contextTurnIds } →
      SessionStep s event t
  | toolCallProposed {attemptId call a} : event.payload = .toolCallProposed attemptId call →
      s.isCreated = true → call.toolCallId ∉ s.toolCallIndexes →
      s.attempt attemptId = some a → a.status = .inFlight →
      SessionStep s event { s with
        toolCalls := s.toolCalls ++ [.proposed attemptId call]
        toolCallIndexes := s.toolCallIndexes.insert call.toolCallId s.toolCalls.length }
  | toolCallChanged {id i c d} : s.toolCallIndexes.lookup id = some i →
      s.toolCalls[i]? = some c → ToolCallChange s event id c d →
      SessionStep s event { s with toolCalls := s.toolCalls.set i d }

theorem requireCreatedForReplay_eq_ok_iff {s : SessionAggregate} {event : EventEnvelope}
    {u : Unit} : s.requireCreatedForReplay event = .ok u ↔ s.isCreated = true := by
  unfold SessionAggregate.requireCreatedForReplay
  split <;> simp_all

theorem requireReplayAttemptToolCallsSettled_eq_ok_iff {s : SessionAggregate}
    {event : EventEnvelope} {attemptId : AttemptId} {u : Unit} :
    s.requireReplayAttemptToolCallsSettled event attemptId = .ok u ↔
      s.hasUnsettledToolCall attemptId = false := by
  unfold SessionAggregate.requireReplayAttemptToolCallsSettled
  split <;> simp_all

theorem transitionAttempt_eq_ok_iff {s t : SessionAggregate} {event : EventEnvelope}
    {attemptId : AttemptId} {allowed : List AttemptStatus}
    {transition : AttemptProjection → AttemptProjection} :
    s.transitionAttempt event attemptId allowed transition = .ok t ↔
      ∃ i a, s.attemptIndexes.lookup attemptId = some i ∧ s.attempts[i]? = some a ∧
        a.status ∈ allowed ∧ t = { s with attempts := s.attempts.set i (transition a) } := by
  unfold SessionAggregate.transitionAttempt
  split
  next hl => simp [hl]
  next i hl =>
    split
    next hn => simp [hl, hn]
    next a ha =>
      split
      next hs => simp [hl, ha, hs]
      next hs => simp [hl, ha, not_not.mp hs, eq_comm]

theorem transitionToolCall_eq_ok_iff {s t : SessionAggregate} {event : EventEnvelope}
    {toolCallId : ToolCallId} {allowed : List ToolCallStatus}
    {transition : ToolCallProjection → ToolCallProjection} :
    s.transitionToolCall event toolCallId allowed transition = .ok t ↔
      ∃ i c, s.toolCallIndexes.lookup toolCallId = some i ∧ s.toolCalls[i]? = some c ∧
        c.status ∈ allowed ∧ t = { s with toolCalls := s.toolCalls.set i (transition c) } := by
  unfold SessionAggregate.transitionToolCall
  split
  next hl => simp [hl]
  next i hl =>
    split
    next hn => simp [hl, hn]
    next c hc =>
      split
      next hs => simp [hl, hc, hs]
      next hs => simp [hl, hc, not_not.mp hs, eq_comm]

theorem attempt_of_lookup {s : SessionAggregate} {id : AttemptId} {i : Nat}
    {a : AttemptProjection} (hi : s.attemptIndexes.lookup id = some i)
    (ha : s.attempts[i]? = some a) : s.attempt id = some a := by
  simp [SessionAggregate.attempt, IndexedList.find?, hi, ha]

theorem toolCall_of_lookup {s : SessionAggregate} {id : ToolCallId} {i : Nat}
    {c : ToolCallProjection} (hi : s.toolCallIndexes.lookup id = some i)
    (hc : s.toolCalls[i]? = some c) : s.toolCall id = some c := by
  simp [SessionAggregate.toolCall, IndexedList.find?, hi, hc]

/-- A plain attempt transition that allows the change is a step. -/
theorem step_of_transitionAttempt {s t : SessionAggregate} {event : EventEnvelope}
    {id : AttemptId} {allowed : List AttemptStatus}
    {transition : AttemptProjection → AttemptProjection}
    (unbound : event.payload.boundContextTurns = ∅)
    (change : ∀ a, s.attempt id = some a → a.status ∈ allowed →
      AttemptChange s event id a (transition a))
    (h : s.transitionAttempt event id allowed transition = .ok t) : SessionStep s event t := by
  obtain ⟨i, a, hi, ha, hs, rfl⟩ := transitionAttempt_eq_ok_iff.mp h
  refine .attemptChanged hi ha (change a (attempt_of_lookup hi ha) hs) ?_
  rw [unbound, Finset.empty_union]

theorem step_of_transitionToolCall {s t : SessionAggregate} {event : EventEnvelope}
    {id : ToolCallId} {allowed : List ToolCallStatus}
    {transition : ToolCallProjection → ToolCallProjection}
    (change : ∀ c, s.toolCall id = some c → c.status ∈ allowed →
      ToolCallChange s event id c (transition c))
    (h : s.transitionToolCall event id allowed transition = .ok t) : SessionStep s event t := by
  obtain ⟨i, c, hi, hc, hs, rfl⟩ := transitionToolCall_eq_ok_iff.mp h
  exact .toolCallChanged hi hc (change c (toolCall_of_lookup hi hc) hs)

end AutoHarness
