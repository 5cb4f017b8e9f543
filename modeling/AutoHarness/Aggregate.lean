import AutoHarness.Event
import AutoHarness.IndexedList
import Mathlib.Data.Finset.Insert

namespace AutoHarness

structure AdmittedInput where
  inputId : InputId
  prompt : PromptText
  deliveryMode : DeliveryMode
  promotedBy : Option AttemptId
deriving DecidableEq

inductive AttemptStatus where
  | prepared
  | inFlight
  | awaitingTools
  | cancellationRequested
  | completed
  | failed
  | cancelled
  | unknown
deriving DecidableEq, Repr

def AttemptStatus.isSettled : AttemptStatus → Bool
  | .completed | .failed | .cancelled | .unknown => true
  | .prepared | .inFlight | .awaitingTools | .cancellationRequested => false

/-- Exact durable context identity bound to one provider turn. -/
structure ContextTurnBinding where
  runTurn : UInt32
  contextTurnId : ContextTurnId
  manifestHash : Sha256Digest
  boundSequence : SessionSequence
deriving DecidableEq

inductive ToolCallStatus where
  | proposed
  | permissionPending
  | authorized
  | deniedPending
  | running
  | completed
  | failed
  | denied
  | cancelled
  | unknown
deriving DecidableEq, Repr

def ToolCallStatus.isSettled : ToolCallStatus → Bool
  | .completed | .failed | .denied | .cancelled | .unknown => true
  | .proposed | .permissionPending | .authorized | .deniedPending | .running => false

structure ToolCallProjection where
  attemptId : AttemptId
  call : ToolCallSpec
  status : ToolCallStatus
  policyDecision : Option (PermissionDecisionId × PermissionOutcome)
  humanAnswer : Option (PermissionDecisionId × PermissionAnswer)
  output : Option ToolOutput
  failure : Option AttemptFailure
deriving DecidableEq

/-- The key under which a call is cached. -/
def ToolCallProjection.toolCallId (call : ToolCallProjection) : ToolCallId :=
  call.call.toolCallId

structure AttemptProjection where
  attemptId : AttemptId
  inputId : InputId
  model : ModelRef
  retryOf : Option AttemptId
  status : AttemptStatus
  text : List ResponseText
  usage : Option UsageSnapshot
  failure : Option AttemptFailure
  runLimits : Option RunLimits
  turnsStarted : UInt32
  contextTurnBindings : List ContextTurnBinding
  providerDispatchReady : Bool
  startedAt : Option TimestampMillis
  completedSequence : Option SessionSequence
deriving DecidableEq

/-- A durable context binding not yet consumed by a dispatch boundary. -/
def AttemptProjection.pendingContextTurn (attempt : AttemptProjection) :
    Option ContextTurnBinding := do
  let expected ← checkedSucc attempt.turnsStarted
  attempt.contextTurnBindings.getLast?.filter fun binding => binding.runTurn == expected

def AttemptProjection.canRetry (attempt : AttemptProjection) : Bool :=
  match attempt.status with
  | .failed => attempt.failure.any fun failure => failure.retryAdvice != .never
  | .cancelled | .unknown => true
  | .prepared | .inFlight | .awaitingTools | .cancellationRequested | .completed => false

/-- The turn exceeds the limits of the attempt, when it has any. -/
def AttemptProjection.exceedsTurns (attempt : AttemptProjection) (turn : UInt32) : Bool :=
  attempt.runLimits.any fun limits => limits.maxTurns < turn

/-- Session state derived exclusively from its ordered event stream. -/
structure SessionAggregate where
  sessionId : SessionId
  isCreated : Bool
  title : Option SessionTitle
  isArchived : Bool
  selectedModel : Option ModelRef
  admittedInputs : List AdmittedInput
  admittedInputIds : Finset InputId
  attempts : List AttemptProjection
  attemptIndexes : IndexedList.Index AttemptId
  toolCalls : List ToolCallProjection
  toolCallIndexes : IndexedList.Index ToolCallId
  contextTurnIds : Finset ContextTurnId
  appliedEventIds : Finset EventId
  appliedCommandIds : Finset CommandId
  lastSequence : Option SessionSequence
  lastEventId : Option EventId
deriving DecidableEq

def SessionAggregate.empty (sessionId : SessionId) : SessionAggregate where
  sessionId := sessionId
  isCreated := false
  title := none
  isArchived := false
  selectedModel := none
  admittedInputs := []
  admittedInputIds := ∅
  attempts := []
  attemptIndexes := ∅
  toolCalls := []
  toolCallIndexes := ∅
  contextTurnIds := ∅
  appliedEventIds := ∅
  appliedCommandIds := ∅
  lastSequence := none
  lastEventId := none

def SessionAggregate.attempt (s : SessionAggregate) (attemptId : AttemptId) :
    Option AttemptProjection :=
  IndexedList.find? s.attempts s.attemptIndexes attemptId

def SessionAggregate.toolCall (s : SessionAggregate) (toolCallId : ToolCallId) :
    Option ToolCallProjection :=
  IndexedList.find? s.toolCalls s.toolCallIndexes toolCallId

def SessionAggregate.input (s : SessionAggregate) (inputId : InputId) : Option AdmittedInput :=
  s.admittedInputs.find? fun input => input.inputId == inputId

/-- Some call of the attempt has not reached a terminal status. -/
def SessionAggregate.hasUnsettledToolCall (s : SessionAggregate) (attemptId : AttemptId) : Bool :=
  s.toolCalls.any fun call => call.attemptId == attemptId && !call.status.isSettled

theorem hasUnsettledToolCall_eq_false_iff {s : SessionAggregate} {attemptId : AttemptId} :
    s.hasUnsettledToolCall attemptId = false ↔
      ∀ call ∈ s.toolCalls, call.attemptId = attemptId → call.status.isSettled = true := by
  simp [SessionAggregate.hasUnsettledToolCall]

end AutoHarness
