import AutoHarness.Aggregate
import AutoHarness.FallibleRun

namespace AutoHarness

def SessionAggregate.requireCreatedForReplay (s : SessionAggregate) (event : EventEnvelope) :
    Except ReplayError Unit :=
  if s.isCreated then .ok () else .error (.sessionNotCreated s.sessionId event.eventId)

def SessionAggregate.requireReplayAttemptToolCallsSettled (s : SessionAggregate)
    (event : EventEnvelope) (attemptId : AttemptId) : Except ReplayError Unit :=
  if s.hasUnsettledToolCall attemptId then
    .error (.illegalAttemptTransition s.sessionId attemptId event.eventId)
  else .ok ()

/-- The only sequence the next event may carry. -/
def SessionAggregate.expectedSequence (s : SessionAggregate) :
    Except ReplayError SessionSequence :=
  match s.lastSequence with
  | some sequence =>
    match sequence.checkedNext with
    | some next => .ok next
    | none => .error (.sequenceExhausted s.sessionId)
  | none => .ok SessionSequence.first

def SessionAggregate.validateCausation (s : SessionAggregate) (event : EventEnvelope) :
    Except ReplayError Unit :=
  match event.causation with
  | .command commandId =>
    if commandId ∈ s.appliedCommandIds then
      .error (.duplicateCommandCausation event.eventId commandId)
    else .ok ()
  | .event causeEventId =>
    if causeEventId ∉ s.appliedEventIds then
      .error (.unknownCausation event.eventId causeEventId)
    else .ok ()

def SessionAggregate.validateEnvelope (s : SessionAggregate) (event : EventEnvelope) :
    Except ReplayError Unit := do
  if event.schemaVersion ≠ eventSchemaV1 then
    .error (.unsupportedSchema event.eventId event.schemaVersion)
  else if event.sessionId ≠ s.sessionId then
    .error (.wrongSession s.sessionId event.sessionId event.eventId)
  else if event.eventId ∈ s.appliedEventIds then
    .error (.duplicateEventId event.eventId)
  else
    s.validateCausation event
    let expected ← s.expectedSequence
    if event.sequence ≠ expected then
      .error (.nonContiguousSequence s.sessionId expected.get event.sequence.get event.eventId)
    else .ok ()

def SessionAggregate.transitionAttempt (s : SessionAggregate) (event : EventEnvelope)
    (attemptId : AttemptId) (allowed : List AttemptStatus)
    (transition : AttemptProjection → AttemptProjection) : Except ReplayError SessionAggregate :=
  match s.attemptIndexes.lookup attemptId with
  | none => .error (.unknownAttempt s.sessionId attemptId event.eventId)
  | some index =>
    match s.attempts[index]? with
    | none => .error (.indexOutOfBounds index)
    | some attempt =>
      if attempt.status ∉ allowed then
        .error (.illegalAttemptTransition s.sessionId attemptId event.eventId)
      else .ok { s with attempts := s.attempts.set index (transition attempt) }

def SessionAggregate.transitionToolCall (s : SessionAggregate) (event : EventEnvelope)
    (toolCallId : ToolCallId) (allowed : List ToolCallStatus)
    (transition : ToolCallProjection → ToolCallProjection) :
    Except ReplayError SessionAggregate :=
  match s.toolCallIndexes.lookup toolCallId with
  | none => .error (.unknownToolCall s.sessionId toolCallId event.eventId)
  | some index =>
    match s.toolCalls[index]? with
    | none => .error (.indexOutOfBounds index)
    | some call =>
      if call.status ∉ allowed then
        .error (.illegalToolCallTransition s.sessionId toolCallId event.eventId)
      else .ok { s with toolCalls := s.toolCalls.set index (transition call) }

/-- The inputs after preparation: an ordinary attempt promotes its input, a retry does not. -/
def SessionAggregate.promoteInput (s : SessionAggregate) (event : EventEnvelope)
    (attemptId : AttemptId) (inputId : InputId) (model : ModelRef) (retryOf : Option AttemptId)
    (inputIndex : Nat) (input : AdmittedInput) : Except ReplayError (List AdmittedInput) :=
  match retryOf with
  | some priorId =>
    match s.attempt priorId with
    | none => .error (.invalidRetry s.sessionId attemptId event.eventId)
    | some prior =>
      if !prior.canRetry || prior.inputId != inputId || prior.model != model then
        .error (.invalidRetry s.sessionId attemptId event.eventId)
      else .ok s.admittedInputs
  | none =>
    if input.promotedBy.isSome then
      .error (.inputAlreadyPromoted s.sessionId inputId event.eventId)
    else if s.selectedModel ≠ some model then
      .error (.modelSnapshotMismatch s.sessionId attemptId event.eventId)
    else .ok (s.admittedInputs.set inputIndex { input with promotedBy := some attemptId })

def AttemptProjection.prepared (attemptId : AttemptId) (inputId : InputId) (model : ModelRef)
    (retryOf : Option AttemptId) : AttemptProjection where
  attemptId := attemptId
  inputId := inputId
  model := model
  retryOf := retryOf
  status := .prepared
  text := []
  usage := none
  failure := none
  runLimits := none
  turnsStarted := 0
  contextTurnBindings := []
  providerDispatchReady := false
  startedAt := none
  completedSequence := none

def ToolCallProjection.proposed (attemptId : AttemptId) (call : ToolCallSpec) :
    ToolCallProjection where
  attemptId := attemptId
  call := call
  status := .proposed
  policyDecision := none
  humanAnswer := none
  output := none
  failure := none

def PermissionOutcome.nextStatus : PermissionOutcome → ToolCallStatus
  | .deny => .deniedPending
  | .ask => .permissionPending
  | .allow => .authorized

def PermissionAnswer.nextStatus : PermissionAnswer → ToolCallStatus
  | .allowOnce => .authorized
  | .deny => .deniedPending

/-- The payload match of `apply_one`, after the envelope was validated. -/
def SessionAggregate.applyPayload (s : SessionAggregate) (event : EventEnvelope) :
    Except ReplayError SessionAggregate :=
  match event.payload with
  | .sessionCreated =>
    if s.isCreated then .error (.sessionAlreadyCreated s.sessionId event.eventId)
    else .ok { s with isCreated := true }
  | .sessionRenamed title => do
    s.requireCreatedForReplay event
    .ok { s with title := some title }
  | .sessionArchived => do
    s.requireCreatedForReplay event
    if s.isArchived then .error (.illegalSessionTransition s.sessionId event.eventId)
    else .ok { s with isArchived := true }
  | .sessionUnarchived => do
    s.requireCreatedForReplay event
    if !s.isArchived then .error (.illegalSessionTransition s.sessionId event.eventId)
    else .ok { s with isArchived := false }
  | .modelSelected model => do
    s.requireCreatedForReplay event
    .ok { s with selectedModel := some model }
  | .inputAdmitted inputId prompt deliveryMode => do
    s.requireCreatedForReplay event
    if inputId ∈ s.admittedInputIds then
      .error (.duplicateInput s.sessionId inputId event.eventId)
    else
      .ok { s with
        admittedInputIds := insert inputId s.admittedInputIds
        admittedInputs := s.admittedInputs ++ [⟨inputId, prompt, deliveryMode, none⟩] }
  | .attemptPrepared attemptId inputId model retryOf => do
    s.requireCreatedForReplay event
    if attemptId ∈ s.attemptIndexes then
      .error (.duplicateAttempt s.sessionId attemptId event.eventId)
    else
      match s.admittedInputs.findIdx? fun input => input.inputId == inputId with
      | none => .error (.unknownInput s.sessionId inputId event.eventId)
      | some inputIndex =>
        match s.admittedInputs[inputIndex]? with
        | none => .error (.indexOutOfBounds inputIndex)
        | some input =>
          let inputs ← s.promoteInput event attemptId inputId model retryOf inputIndex input
          .ok { s with
            admittedInputs := inputs
            attempts := s.attempts ++ [.prepared attemptId inputId model retryOf]
            attemptIndexes := s.attemptIndexes.insert attemptId s.attempts.length }
  | .attemptStarted attemptId =>
    s.transitionAttempt event attemptId [.prepared] fun attempt =>
      { attempt with
        status := .inFlight, providerDispatchReady := true, startedAt := some event.occurredAt }
  | .attemptTextAppended attemptId text =>
    s.transitionAttempt event attemptId [.inFlight, .cancellationRequested] fun attempt =>
      { attempt with text := attempt.text ++ [text] }
  | .attemptUsageRecorded attemptId usage =>
    s.transitionAttempt event attemptId [.inFlight, .cancellationRequested] fun attempt =>
      { attempt with usage := some usage }
  | .attemptCancellationRequested attemptId =>
    s.transitionAttempt event attemptId [.inFlight, .awaitingTools] fun attempt =>
      { attempt with status := .cancellationRequested }
  | .attemptCompleted attemptId => do
    s.requireReplayAttemptToolCallsSettled event attemptId
    s.transitionAttempt event attemptId [.inFlight, .awaitingTools, .cancellationRequested]
      fun attempt =>
        { attempt with status := .completed, completedSequence := some event.sequence }
  | .attemptFailed attemptId failure => do
    s.requireReplayAttemptToolCallsSettled event attemptId
    s.transitionAttempt event attemptId
      [.prepared, .inFlight, .awaitingTools, .cancellationRequested] fun attempt =>
        { attempt with status := .failed, failure := some failure }
  | .attemptCancelled attemptId => do
    s.requireReplayAttemptToolCallsSettled event attemptId
    s.transitionAttempt event attemptId [.cancellationRequested] fun attempt =>
      { attempt with status := .cancelled }
  | .attemptMarkedUnknown attemptId => do
    s.requireReplayAttemptToolCallsSettled event attemptId
    s.transitionAttempt event attemptId [.inFlight, .cancellationRequested] fun attempt =>
      { attempt with status := .unknown }
  | .runBudgetConfigured attemptId limits =>
    if (s.attempt attemptId).any fun attempt => attempt.runLimits.isSome then
      .error (.illegalAttemptTransition s.sessionId attemptId event.eventId)
    else
      s.transitionAttempt event attemptId [.prepared] fun attempt =>
        { attempt with runLimits := some limits }
  | .contextTurnBound attemptId runTurn contextTurnId manifestHash => do
    s.requireCreatedForReplay event
    if contextTurnId ∈ s.contextTurnIds then
      .error (.duplicateContextTurn s.sessionId contextTurnId event.eventId)
    else
      match s.attempt attemptId with
      | none => .error (.unknownAttempt s.sessionId attemptId event.eventId)
      | some attempt =>
        let expected := checkedSucc attempt.turnsStarted
        if attempt.status != .inFlight || !attempt.providerDispatchReady ||
            expected != some runTurn || attempt.pendingContextTurn.isSome ||
            attempt.runLimits.any fun limits => expected.all fun turn => limits.maxTurns < turn then
          .error (.illegalContextTurnBinding s.sessionId attemptId event.eventId)
        else
          let bound ← s.transitionAttempt event attemptId [.inFlight] fun attempt =>
            { attempt with
              contextTurnBindings := attempt.contextTurnBindings ++
                [⟨runTurn, contextTurnId, manifestHash, event.sequence⟩] }
          .ok { bound with contextTurnIds := insert contextTurnId bound.contextTurnIds }
  | .runTurnStarted attemptId turn =>
    let exactAdjacentBinding := (s.attempt attemptId).any fun attempt =>
      attempt.providerDispatchReady && attempt.pendingContextTurn.any fun binding =>
        binding.runTurn == turn && binding.boundSequence.checkedNext == some event.sequence
    let expected := (s.attempt attemptId).bind fun attempt => checkedSucc attempt.turnsStarted
    if !exactAdjacentBinding || expected != some turn ||
        (s.attempt attemptId).any fun attempt => attempt.exceedsTurns turn then
      .error (.illegalContextTurnBinding s.sessionId attemptId event.eventId)
    else
      s.transitionAttempt event attemptId [.inFlight] fun attempt =>
        { attempt with turnsStarted := turn, providerDispatchReady := false }
  | .toolCallProposed attemptId call => do
    s.requireCreatedForReplay event
    if call.toolCallId ∈ s.toolCallIndexes then
      .error (.duplicateToolCall s.sessionId call.toolCallId event.eventId)
    else if (s.attempt attemptId).all fun attempt => attempt.status != .inFlight then
      .error (.illegalAttemptTransition s.sessionId attemptId event.eventId)
    else
      .ok { s with
        toolCalls := s.toolCalls ++ [.proposed attemptId call]
        toolCallIndexes := s.toolCallIndexes.insert call.toolCallId s.toolCalls.length }
  | .toolPermissionRecorded toolCallId decisionId outcome =>
    s.transitionToolCall event toolCallId [.proposed] fun call =>
      { call with policyDecision := some (decisionId, outcome), status := outcome.nextStatus }
  | .toolPermissionAnswered toolCallId decisionId answer =>
    s.transitionToolCall event toolCallId [.permissionPending] fun call =>
      { call with humanAnswer := some (decisionId, answer), status := answer.nextStatus }
  | .toolCallStarted toolCallId =>
    let parentIsActive :=
      ((s.toolCall toolCallId).bind fun call => s.attempt call.attemptId).any fun attempt =>
        attempt.status == .inFlight || attempt.status == .awaitingTools
    if !parentIsActive then
      .error (.illegalToolCallTransition s.sessionId toolCallId event.eventId)
    else
      s.transitionToolCall event toolCallId [.authorized] fun call =>
        { call with status := .running }
  | .toolCallCompleted toolCallId output =>
    s.transitionToolCall event toolCallId [.running] fun call =>
      { call with status := .completed, output := some output }
  | .toolCallFailed toolCallId failure =>
    s.transitionToolCall event toolCallId [.running] fun call =>
      { call with status := .failed, failure := some failure }
  | .toolCallDenied toolCallId =>
    s.transitionToolCall event toolCallId [.deniedPending] fun call =>
      { call with status := .denied }
  | .toolCallCancelled toolCallId =>
    s.transitionToolCall event toolCallId [.proposed, .permissionPending, .authorized, .running]
      fun call => { call with status := .cancelled }
  | .toolCallMarkedUnknown toolCallId =>
    s.transitionToolCall event toolCallId [.running] fun call =>
      { call with status := .unknown }
  | .attemptPausedForTools attemptId =>
    if (s.attempt attemptId).all (fun attempt =>
          attempt.providerDispatchReady || attempt.turnsStarted == 0) ||
        !s.toolCalls.any fun call => call.attemptId == attemptId then
      .error (.illegalAttemptTransition s.sessionId attemptId event.eventId)
    else
      s.transitionAttempt event attemptId [.inFlight] fun attempt =>
        { attempt with status := .awaitingTools }
  | .attemptResumedAfterTools attemptId =>
    if s.hasUnsettledToolCall attemptId then
      .error (.illegalAttemptTransition s.sessionId attemptId event.eventId)
    else
      s.transitionAttempt event attemptId [.awaitingTools] fun attempt =>
        { attempt with status := .inFlight, providerDispatchReady := true }

/-- The bookkeeping at the end of `apply_one`. -/
def SessionAggregate.recordApplied (s : SessionAggregate) (event : EventEnvelope) :
    SessionAggregate :=
  { s with
    appliedEventIds := insert event.eventId s.appliedEventIds
    appliedCommandIds :=
      match event.causation with
      | .command commandId => insert commandId s.appliedCommandIds
      | .event _ => s.appliedCommandIds
    lastSequence := some event.sequence
    lastEventId := some event.eventId }

def SessionAggregate.applyOne (s : SessionAggregate) (event : EventEnvelope) :
    Except ReplayError SessionAggregate := do
  s.validateEnvelope event
  let applied ← s.applyPayload event
  .ok (applied.recordApplied event)

def SessionAggregate.applyUncommittedBatch (s : SessionAggregate) (events : List EventEnvelope) :
    Except ReplayError SessionAggregate :=
  FallibleRun.run SessionAggregate.applyOne s events

/-- Reconstruct a session from events in their supplied durable order. -/
def SessionAggregate.rehydrate (sessionId : SessionId) (events : List EventEnvelope) :
    Except ReplayError SessionAggregate :=
  FallibleRun.run SessionAggregate.applyOne (.empty sessionId) events

end AutoHarness
