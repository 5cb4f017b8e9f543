import AutoHarness.Value
import AutoHarness.Tool

namespace AutoHarness

def eventSchemaV1 : UInt16 := 1

inductive Causation where
  | command (commandId : CommandId)
  | event (eventId : EventId)
deriving DecidableEq, Repr

inductive EventPayload where
  | sessionCreated
  | sessionRenamed (title : SessionTitle)
  | sessionArchived
  | sessionUnarchived
  | modelSelected (model : ModelRef)
  | inputAdmitted (inputId : InputId) (prompt : PromptText) (deliveryMode : DeliveryMode)
  | attemptPrepared (attemptId : AttemptId) (inputId : InputId) (model : ModelRef)
      (retryOf : Option AttemptId)
  | attemptStarted (attemptId : AttemptId)
  | attemptTextAppended (attemptId : AttemptId) (text : ResponseText)
  | attemptUsageRecorded (attemptId : AttemptId) (usage : UsageSnapshot)
  | attemptCancellationRequested (attemptId : AttemptId)
  | attemptCompleted (attemptId : AttemptId)
  | attemptFailed (attemptId : AttemptId) (failure : AttemptFailure)
  | attemptCancelled (attemptId : AttemptId)
  | attemptMarkedUnknown (attemptId : AttemptId)
  | runBudgetConfigured (attemptId : AttemptId) (limits : RunLimits)
  | contextTurnBound (attemptId : AttemptId) (runTurn : UInt32) (contextTurnId : ContextTurnId)
      (manifestHash : Sha256Digest)
  | runTurnStarted (attemptId : AttemptId) (turn : UInt32)
  | toolCallProposed (attemptId : AttemptId) (call : ToolCallSpec)
  | toolPermissionRecorded (toolCallId : ToolCallId) (decisionId : PermissionDecisionId)
      (outcome : PermissionOutcome)
  | toolPermissionAnswered (toolCallId : ToolCallId) (decisionId : PermissionDecisionId)
      (answer : PermissionAnswer)
  | toolCallStarted (toolCallId : ToolCallId)
  | toolCallCompleted (toolCallId : ToolCallId) (output : ToolOutput)
  | toolCallFailed (toolCallId : ToolCallId) (failure : AttemptFailure)
  | toolCallDenied (toolCallId : ToolCallId)
  | toolCallCancelled (toolCallId : ToolCallId)
  | toolCallMarkedUnknown (toolCallId : ToolCallId)
  | attemptPausedForTools (attemptId : AttemptId)
  | attemptResumedAfterTools (attemptId : AttemptId)
deriving DecidableEq, Repr

/-- A versioned durable session event. -/
structure EventEnvelope where
  schemaVersion : UInt16
  eventId : EventId
  sessionId : SessionId
  sequence : SessionSequence
  occurredAt : TimestampMillis
  causation : Causation
  correlationId : CorrelationId
  payload : EventPayload
deriving DecidableEq, Repr

def EventEnvelope.newV1 (eventId : EventId) (sessionId : SessionId) (sequence : SessionSequence)
    (occurredAt : TimestampMillis) (causation : Causation) (correlationId : CorrelationId)
    (payload : EventPayload) : EventEnvelope :=
  { schemaVersion := eventSchemaV1, eventId, sessionId, sequence, occurredAt, causation,
    correlationId, payload }

/-- The single-use command an event cites as its direct cause. -/
def EventEnvelope.causingCommand? (event : EventEnvelope) : Option CommandId :=
  match event.causation with
  | .command commandId => some commandId
  | .event _ => none

/-- Expected rejection of a command that is invalid for the current session state. -/
inductive CommandRejection where
  | duplicateCommand (commandId : CommandId)
  | sessionAlreadyExists (sessionId : SessionId)
  | sessionNotFound (sessionId : SessionId)
  | sessionArchived (sessionId : SessionId)
  | invalidSessionState (sessionId : SessionId)
  | sessionHasUnsettledWork (sessionId : SessionId)
  | duplicateInput (sessionId : SessionId) (inputId : InputId)
  | modelNotSelected (sessionId : SessionId)
  | inputNotFound (sessionId : SessionId) (inputId : InputId)
  | inputAlreadyPromoted (sessionId : SessionId) (inputId : InputId)
  | duplicateAttempt (sessionId : SessionId) (attemptId : AttemptId)
  | attemptNotFound (sessionId : SessionId) (attemptId : AttemptId)
  | duplicateToolCall (sessionId : SessionId) (toolCallId : ToolCallId)
  | toolCallNotFound (sessionId : SessionId) (toolCallId : ToolCallId)
  | invalidToolCallState (sessionId : SessionId) (toolCallId : ToolCallId)
  | invalidAttemptState (sessionId : SessionId) (attemptId : AttemptId)
  | duplicateContextTurn (sessionId : SessionId) (contextTurnId : ContextTurnId)
  | invalidContextTurnBinding (sessionId : SessionId) (attemptId : AttemptId)
  | retryNotAllowed (sessionId : SessionId) (attemptId : AttemptId)
  | retryInputMismatch (sessionId : SessionId) (attemptId : AttemptId) (inputId : InputId)
  | wrongSession (expected found : SessionId)
deriving DecidableEq, Repr

/-- Failure to reconstruct state from durable history. The last variant is not an error of
the source: it stands for the panic of a vector access through a stale cached position. -/
inductive ReplayError where
  | unsupportedSchema (eventId : EventId) (found : UInt16)
  | wrongSession (expected found : SessionId) (eventId : EventId)
  | duplicateAttempt (sessionId : SessionId) (attemptId : AttemptId) (eventId : EventId)
  | duplicateToolCall (sessionId : SessionId) (toolCallId : ToolCallId) (eventId : EventId)
  | unknownToolCall (sessionId : SessionId) (toolCallId : ToolCallId) (eventId : EventId)
  | illegalToolCallTransition (sessionId : SessionId) (toolCallId : ToolCallId)
      (eventId : EventId)
  | unknownInput (sessionId : SessionId) (inputId : InputId) (eventId : EventId)
  | unknownAttempt (sessionId : SessionId) (attemptId : AttemptId) (eventId : EventId)
  | illegalAttemptTransition (sessionId : SessionId) (attemptId : AttemptId) (eventId : EventId)
  | duplicateContextTurn (sessionId : SessionId) (contextTurnId : ContextTurnId)
      (eventId : EventId)
  | illegalContextTurnBinding (sessionId : SessionId) (attemptId : AttemptId) (eventId : EventId)
  | invalidRetry (sessionId : SessionId) (attemptId : AttemptId) (eventId : EventId)
  | inputAlreadyPromoted (sessionId : SessionId) (inputId : InputId) (eventId : EventId)
  | modelSnapshotMismatch (sessionId : SessionId) (attemptId : AttemptId) (eventId : EventId)
  | nonContiguousSequence (sessionId : SessionId) (expected found : Nat) (eventId : EventId)
  | duplicateEventId (eventId : EventId)
  | duplicateCommandCausation (eventId : EventId) (commandId : CommandId)
  | unknownCausation (eventId causeEventId : EventId)
  | sessionAlreadyCreated (sessionId : SessionId) (eventId : EventId)
  | sessionNotCreated (sessionId : SessionId) (eventId : EventId)
  | illegalSessionTransition (sessionId : SessionId) (eventId : EventId)
  | duplicateInput (sessionId : SessionId) (inputId : InputId) (eventId : EventId)
  | sequenceExhausted (sessionId : SessionId)
  | indexOutOfBounds (index : Nat)
deriving DecidableEq, Repr

inductive EngineError where
  | commandRejected (rejection : CommandRejection)
  | eventIdCollision (eventId : EventId)
  | sequenceExhausted (sessionId : SessionId)
  | invariantViolation (source : ReplayError)
deriving DecidableEq, Repr

end AutoHarness
