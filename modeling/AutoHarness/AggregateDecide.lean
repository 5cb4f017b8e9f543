import AutoHarness.Aggregate
import AutoHarness.Command
import AutoHarness.FallibleRun

namespace AutoHarness

def SessionAggregate.requireCreated (s : SessionAggregate) : Except CommandRejection Unit :=
  if s.isCreated then .ok () else .error (.sessionNotFound s.sessionId)

def SessionAggregate.requireNotArchived (s : SessionAggregate) : Except CommandRejection Unit :=
  if s.isArchived then .error (.sessionArchived s.sessionId) else .ok ()

/-- The checked attempt is returned; the source looks it up again and expects to find it. -/
def SessionAggregate.requireAttemptStatus (s : SessionAggregate) (attemptId : AttemptId)
    (allowed : List AttemptStatus) : Except CommandRejection AttemptProjection :=
  match s.attempt attemptId with
  | none => .error (.attemptNotFound s.sessionId attemptId)
  | some attempt =>
    if attempt.status ∈ allowed then .ok attempt
    else .error (.invalidAttemptState s.sessionId attemptId)

def SessionAggregate.requireToolCallStatus (s : SessionAggregate) (toolCallId : ToolCallId)
    (allowed : List ToolCallStatus) : Except CommandRejection ToolCallProjection :=
  match s.toolCall toolCallId with
  | none => .error (.toolCallNotFound s.sessionId toolCallId)
  | some call =>
    if call.status ∈ allowed then .ok call
    else .error (.invalidToolCallState s.sessionId toolCallId)

def SessionAggregate.requireAttemptToolCallsSettled (s : SessionAggregate)
    (attemptId : AttemptId) : Except CommandRejection Unit :=
  if s.hasUnsettledToolCall attemptId then .error (.invalidAttemptState s.sessionId attemptId)
  else .ok ()

def SessionAggregate.admitPromptEvents (s : SessionAggregate) (inputId : InputId)
    (prompt : PromptText) (deliveryMode : DeliveryMode) : List EventPayload :=
  if s.admittedInputs.isEmpty && s.title.isNone then
    [.inputAdmitted inputId prompt deliveryMode,
      .sessionRenamed (SessionTitle.deriveFromPrompt prompt)]
  else [.inputAdmitted inputId prompt deliveryMode]

def SessionAggregate.requireModel (s : SessionAggregate) : Except CommandRejection ModelRef :=
  match s.selectedModel with
  | some model => .ok model
  | none => .error (.modelNotSelected s.sessionId)

/-- The model snapshot of a new attempt: that of the retried attempt, else the selection. -/
def SessionAggregate.attemptModel (s : SessionAggregate) (input : AdmittedInput)
    (inputId : InputId) (retryOf : Option AttemptId) : Except CommandRejection ModelRef :=
  match retryOf with
  | some priorId =>
    match s.attempt priorId with
    | none => .error (.attemptNotFound s.sessionId priorId)
    | some prior =>
      if !prior.canRetry then .error (.retryNotAllowed s.sessionId priorId)
      else if prior.inputId ≠ inputId then
        .error (.retryInputMismatch s.sessionId priorId inputId)
      else .ok prior.model
  | none =>
    if input.promotedBy.isSome then .error (.inputAlreadyPromoted s.sessionId inputId)
    else s.requireModel

/-- Commands that stay available on an archived session or have their own lifecycle check. -/
def CommandPayload.skipsArchiveGuard : CommandPayload → Bool
  | .createSession _ | .renameSession _ _ | .archiveSession _ | .unarchiveSession _ => true
  | _ => false

def SessionAggregate.decidePayload (s : SessionAggregate) :
    CommandPayload → Except CommandRejection (List EventPayload)
  | .createSession _ =>
    if s.isCreated then .error (.sessionAlreadyExists s.sessionId) else .ok [.sessionCreated]
  | .renameSession _ title => do
    s.requireCreated
    .ok [.sessionRenamed title]
  | .archiveSession _ => do
    s.requireCreated
    if s.isArchived then .error (.invalidSessionState s.sessionId)
    else if s.attempts.any fun attempt =>
        !attempt.status.isSettled || attempt.status == .awaitingTools then
      .error (.sessionHasUnsettledWork s.sessionId)
    else .ok [.sessionArchived]
  | .unarchiveSession _ => do
    s.requireCreated
    if !s.isArchived then .error (.invalidSessionState s.sessionId)
    else .ok [.sessionUnarchived]
  | .selectModel _ model => do
    s.requireCreated
    .ok [.modelSelected model]
  | .admitPrompt _ inputId prompt deliveryMode => do
    s.requireCreated
    if inputId ∈ s.admittedInputIds then .error (.duplicateInput s.sessionId inputId)
    else .ok (s.admitPromptEvents inputId prompt deliveryMode)
  | .admitPromptAndPrepareAttempt _ inputId prompt deliveryMode attemptId => do
    s.requireCreated
    if inputId ∈ s.admittedInputIds then .error (.duplicateInput s.sessionId inputId)
    else if attemptId ∈ s.attemptIndexes then .error (.duplicateAttempt s.sessionId attemptId)
    else
      let model ← s.requireModel
      .ok (s.admitPromptEvents inputId prompt deliveryMode ++
        [.attemptPrepared attemptId inputId model none])
  | .prepareAttempt _ attemptId inputId retryOf => do
    s.requireCreated
    if attemptId ∈ s.attemptIndexes then .error (.duplicateAttempt s.sessionId attemptId)
    else
      match s.input inputId with
      | none => .error (.inputNotFound s.sessionId inputId)
      | some input =>
        let model ← s.attemptModel input inputId retryOf
        .ok [.attemptPrepared attemptId inputId model retryOf]
  | .startAttempt _ attemptId => do
    let _ ← s.requireAttemptStatus attemptId [.prepared]
    .ok [.attemptStarted attemptId]
  | .appendAttemptText _ attemptId text => do
    let _ ← s.requireAttemptStatus attemptId [.inFlight, .cancellationRequested]
    .ok [.attemptTextAppended attemptId text]
  | .recordAttemptUsage _ attemptId usage => do
    let _ ← s.requireAttemptStatus attemptId [.inFlight, .cancellationRequested]
    .ok [.attemptUsageRecorded attemptId usage]
  | .requestAttemptCancellation _ attemptId => do
    let _ ← s.requireAttemptStatus attemptId [.inFlight, .awaitingTools]
    .ok [.attemptCancellationRequested attemptId]
  | .completeAttempt _ attemptId => do
    let _ ← s.requireAttemptStatus attemptId [.inFlight, .awaitingTools, .cancellationRequested]
    s.requireAttemptToolCallsSettled attemptId
    .ok [.attemptCompleted attemptId]
  | .failAttempt _ attemptId failure => do
    let _ ← s.requireAttemptStatus attemptId
      [.prepared, .inFlight, .awaitingTools, .cancellationRequested]
    s.requireAttemptToolCallsSettled attemptId
    .ok [.attemptFailed attemptId failure]
  | .cancelAttempt _ attemptId => do
    let _ ← s.requireAttemptStatus attemptId [.cancellationRequested]
    s.requireAttemptToolCallsSettled attemptId
    .ok [.attemptCancelled attemptId]
  | .markAttemptUnknown _ attemptId => do
    let _ ← s.requireAttemptStatus attemptId [.inFlight, .cancellationRequested]
    s.requireAttemptToolCallsSettled attemptId
    .ok [.attemptMarkedUnknown attemptId]
  | .configureRunBudget _ attemptId limits => do
    let attempt ← s.requireAttemptStatus attemptId [.prepared]
    if attempt.runLimits.isSome then .error (.invalidAttemptState s.sessionId attemptId)
    else .ok [.runBudgetConfigured attemptId limits]
  | .bindContextTurn _ attemptId runTurn contextTurnId manifestHash => do
    let attempt ← s.requireAttemptStatus attemptId [.inFlight]
    if contextTurnId ∈ s.contextTurnIds then
      .error (.duplicateContextTurn s.sessionId contextTurnId)
    else
      let expected := checkedSucc attempt.turnsStarted
      if !attempt.providerDispatchReady || expected != some runTurn ||
          attempt.pendingContextTurn.isSome ||
          attempt.runLimits.any fun limits => expected.all fun turn => limits.maxTurns < turn then
        .error (.invalidContextTurnBinding s.sessionId attemptId)
      else .ok [.contextTurnBound attemptId runTurn contextTurnId manifestHash]
  | .startRunTurn _ attemptId => do
    let attempt ← s.requireAttemptStatus attemptId [.inFlight]
    match checkedSucc attempt.turnsStarted with
    | none => .error (.invalidAttemptState s.sessionId attemptId)
    | some turn =>
      let exactAdjacentBinding := attempt.pendingContextTurn.any fun binding =>
        binding.runTurn == turn && s.lastSequence == some binding.boundSequence
      if !attempt.providerDispatchReady || !exactAdjacentBinding ||
          attempt.exceedsTurns turn then
        .error (.invalidContextTurnBinding s.sessionId attemptId)
      else .ok [.runTurnStarted attemptId turn]
  | .proposeToolCall _ attemptId call => do
    let _ ← s.requireAttemptStatus attemptId [.inFlight]
    if call.toolCallId ∈ s.toolCallIndexes then
      .error (.duplicateToolCall s.sessionId call.toolCallId)
    else .ok [.toolCallProposed attemptId call]
  | .recordToolPermission _ toolCallId decisionId outcome => do
    let _ ← s.requireToolCallStatus toolCallId [.proposed]
    .ok [.toolPermissionRecorded toolCallId decisionId outcome]
  | .answerToolPermission _ toolCallId decisionId answer => do
    let _ ← s.requireToolCallStatus toolCallId [.permissionPending]
    .ok [.toolPermissionAnswered toolCallId decisionId answer]
  | .startToolCall _ toolCallId => do
    let call ← s.requireToolCallStatus toolCallId [.authorized]
    let _ ← s.requireAttemptStatus call.attemptId [.inFlight, .awaitingTools]
    .ok [.toolCallStarted toolCallId]
  | .completeToolCall _ toolCallId output => do
    let _ ← s.requireToolCallStatus toolCallId [.running]
    .ok [.toolCallCompleted toolCallId output]
  | .failToolCall _ toolCallId failure => do
    let _ ← s.requireToolCallStatus toolCallId [.running]
    .ok [.toolCallFailed toolCallId failure]
  | .denyToolCall _ toolCallId => do
    let _ ← s.requireToolCallStatus toolCallId [.deniedPending]
    .ok [.toolCallDenied toolCallId]
  | .cancelToolCall _ toolCallId => do
    let _ ← s.requireToolCallStatus toolCallId
      [.proposed, .permissionPending, .authorized, .running]
    .ok [.toolCallCancelled toolCallId]
  | .markToolCallUnknown _ toolCallId => do
    let _ ← s.requireToolCallStatus toolCallId [.running]
    .ok [.toolCallMarkedUnknown toolCallId]
  | .pauseAttemptForTools _ attemptId => do
    let attempt ← s.requireAttemptStatus attemptId [.inFlight]
    if attempt.providerDispatchReady || attempt.turnsStarted == 0 ||
        !s.toolCalls.any fun call => call.attemptId == attemptId then
      .error (.invalidAttemptState s.sessionId attemptId)
    else .ok [.attemptPausedForTools attemptId]
  | .resumeAttemptAfterTools _ attemptId => do
    let _ ← s.requireAttemptStatus attemptId [.awaitingTools]
    if s.hasUnsettledToolCall attemptId then
      .error (.invalidAttemptState s.sessionId attemptId)
    else .ok [.attemptResumedAfterTools attemptId]

/-- Event payloads for a valid command, without mutating state. -/
def SessionAggregate.decide (s : SessionAggregate) (command : CommandEnvelope) :
    Except CommandRejection (List EventPayload) := do
  if command.sessionId ≠ s.sessionId then
    .error (.wrongSession s.sessionId command.sessionId)
  else if command.payload.skipsArchiveGuard then s.decidePayload command.payload
  else
    s.requireNotArchived
    s.decidePayload command.payload

theorem requireCreated_eq_ok_iff {s : SessionAggregate} {u : Unit} :
    s.requireCreated = .ok u ↔ s.isCreated = true := by
  unfold SessionAggregate.requireCreated
  split <;> simp_all

theorem requireNotArchived_eq_ok_iff {s : SessionAggregate} {u : Unit} :
    s.requireNotArchived = .ok u ↔ s.isArchived = false := by
  unfold SessionAggregate.requireNotArchived
  split <;> simp_all

theorem requireAttemptStatus_eq_ok_iff {s : SessionAggregate} {attemptId : AttemptId}
    {allowed : List AttemptStatus} {attempt : AttemptProjection} :
    s.requireAttemptStatus attemptId allowed = .ok attempt ↔
      s.attempt attemptId = some attempt ∧ attempt.status ∈ allowed := by
  unfold SessionAggregate.requireAttemptStatus
  split
  next h => simp [h]
  next found h =>
    rw [h]
    split
    next hm => simp only [Except.ok.injEq, Option.some.injEq]; grind
    next hm => simp only [reduceCtorEq, Option.some.injEq, false_iff]; grind

theorem requireToolCallStatus_eq_ok_iff {s : SessionAggregate} {toolCallId : ToolCallId}
    {allowed : List ToolCallStatus} {call : ToolCallProjection} :
    s.requireToolCallStatus toolCallId allowed = .ok call ↔
      s.toolCall toolCallId = some call ∧ call.status ∈ allowed := by
  unfold SessionAggregate.requireToolCallStatus
  split
  next h => simp [h]
  next found h =>
    rw [h]
    split
    next hm => simp only [Except.ok.injEq, Option.some.injEq]; grind
    next hm => simp only [reduceCtorEq, Option.some.injEq, false_iff]; grind

theorem requireAttemptToolCallsSettled_eq_ok_iff {s : SessionAggregate} {attemptId : AttemptId}
    {u : Unit} :
    s.requireAttemptToolCallsSettled attemptId = .ok u ↔
      s.hasUnsettledToolCall attemptId = false := by
  unfold SessionAggregate.requireAttemptToolCallsSettled
  split <;> simp_all

theorem requireModel_eq_ok_iff {s : SessionAggregate} {model : ModelRef} :
    s.requireModel = .ok model ↔ s.selectedModel = some model := by
  unfold SessionAggregate.requireModel
  split <;> simp_all

end AutoHarness
