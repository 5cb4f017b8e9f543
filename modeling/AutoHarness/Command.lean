import AutoHarness.Value
import AutoHarness.Tool

namespace AutoHarness

/-- Requested session intent. A variant does not imply that it succeeded. -/
inductive CommandPayload where
  | createSession (sessionId : SessionId)
  | renameSession (sessionId : SessionId) (title : SessionTitle)
  | archiveSession (sessionId : SessionId)
  | unarchiveSession (sessionId : SessionId)
  | selectModel (sessionId : SessionId) (model : ModelRef)
  | admitPrompt (sessionId : SessionId) (inputId : InputId) (prompt : PromptText)
      (deliveryMode : DeliveryMode)
  | admitPromptAndPrepareAttempt (sessionId : SessionId) (inputId : InputId)
      (prompt : PromptText) (deliveryMode : DeliveryMode) (attemptId : AttemptId)
  | prepareAttempt (sessionId : SessionId) (attemptId : AttemptId) (inputId : InputId)
      (retryOf : Option AttemptId)
  | startAttempt (sessionId : SessionId) (attemptId : AttemptId)
  | appendAttemptText (sessionId : SessionId) (attemptId : AttemptId) (text : ResponseText)
  | recordAttemptUsage (sessionId : SessionId) (attemptId : AttemptId) (usage : UsageSnapshot)
  | requestAttemptCancellation (sessionId : SessionId) (attemptId : AttemptId)
  | completeAttempt (sessionId : SessionId) (attemptId : AttemptId)
  | failAttempt (sessionId : SessionId) (attemptId : AttemptId) (failure : AttemptFailure)
  | cancelAttempt (sessionId : SessionId) (attemptId : AttemptId)
  | markAttemptUnknown (sessionId : SessionId) (attemptId : AttemptId)
  | configureRunBudget (sessionId : SessionId) (attemptId : AttemptId) (limits : RunLimits)
  | bindContextTurn (sessionId : SessionId) (attemptId : AttemptId) (runTurn : UInt32)
      (contextTurnId : ContextTurnId) (manifestHash : Sha256Digest)
  | startRunTurn (sessionId : SessionId) (attemptId : AttemptId)
  | proposeToolCall (sessionId : SessionId) (attemptId : AttemptId) (call : ToolCallSpec)
  | recordToolPermission (sessionId : SessionId) (toolCallId : ToolCallId)
      (decisionId : PermissionDecisionId) (outcome : PermissionOutcome)
  | answerToolPermission (sessionId : SessionId) (toolCallId : ToolCallId)
      (decisionId : PermissionDecisionId) (answer : PermissionAnswer)
  | startToolCall (sessionId : SessionId) (toolCallId : ToolCallId)
  | completeToolCall (sessionId : SessionId) (toolCallId : ToolCallId) (output : ToolOutput)
  | failToolCall (sessionId : SessionId) (toolCallId : ToolCallId) (failure : AttemptFailure)
  | denyToolCall (sessionId : SessionId) (toolCallId : ToolCallId)
  | cancelToolCall (sessionId : SessionId) (toolCallId : ToolCallId)
  | markToolCallUnknown (sessionId : SessionId) (toolCallId : ToolCallId)
  | pauseAttemptForTools (sessionId : SessionId) (attemptId : AttemptId)
  | resumeAttemptAfterTools (sessionId : SessionId) (attemptId : AttemptId)
deriving DecidableEq, Repr

def CommandPayload.sessionId : CommandPayload → SessionId
  | .createSession sessionId
  | .renameSession sessionId _
  | .archiveSession sessionId
  | .unarchiveSession sessionId
  | .selectModel sessionId _
  | .admitPrompt sessionId _ _ _
  | .admitPromptAndPrepareAttempt sessionId _ _ _ _
  | .prepareAttempt sessionId _ _ _
  | .startAttempt sessionId _
  | .appendAttemptText sessionId _ _
  | .recordAttemptUsage sessionId _ _
  | .requestAttemptCancellation sessionId _
  | .completeAttempt sessionId _
  | .failAttempt sessionId _ _
  | .cancelAttempt sessionId _
  | .markAttemptUnknown sessionId _
  | .configureRunBudget sessionId _ _
  | .bindContextTurn sessionId _ _ _ _
  | .startRunTurn sessionId _
  | .proposeToolCall sessionId _ _
  | .recordToolPermission sessionId _ _ _
  | .answerToolPermission sessionId _ _ _
  | .startToolCall sessionId _
  | .completeToolCall sessionId _ _
  | .failToolCall sessionId _ _
  | .denyToolCall sessionId _
  | .cancelToolCall sessionId _
  | .markToolCallUnknown sessionId _
  | .pauseAttemptForTools sessionId _
  | .resumeAttemptAfterTools sessionId _ => sessionId

structure CommandEnvelope where
  commandId : CommandId
  correlationId : CorrelationId
  payload : CommandPayload
deriving DecidableEq, Repr

def CommandEnvelope.sessionId (command : CommandEnvelope) : SessionId :=
  command.payload.sessionId

end AutoHarness
