import AutoHarness.Durable
import AutoHarness.Sse
import AutoHarness.ToolPlan

namespace AutoHarness

inductive AppError where
  | store (source : StoreError)
  | engine (source : DurableEngineError)
  | provider (source : ProviderError)
  | memory
  | configuration
deriving DecidableEq

/-- The fields of a stored context turn that recovery reads. -/
structure ContextTurnRecord (A : Type) where
  key : ContextTurnKey
  expectedSessionSequence : SessionSequence
  admissions : List A

/-- The context and memory tables, which recovery reads and never writes. -/
structure RecoveryReads (A : Type) where
  loadContextTurn : ContextTurnId → Except AppError (Option (ContextTurnRecord A))
  verifyContextManifestHash : ContextTurnRecord A → Except AppError Bool
  loadContextAdmissions : ContextTurnId → Except AppError (List A)
  hasContextTurnContent : ContextTurnId → Except AppError Bool
  hasContextAdmissionContent : A → Except AppError Bool
  loadAttemptContextTurn : AttemptId → UInt32 → Except AppError (Option (ContextTurnRecord A))
  /-- The rebuilt proposal of the call stands in the memory ledger with its content. -/
  proposalCommitted : SessionAggregate → ContextTurnRecord A → ToolCallProjection →
    MemoryProposal → Except AppError Bool

/-- The identities under which recovery issues its commands. -/
structure CommandIds where
  commandId : Nat → CommandId
  correlationId : Nat → CorrelationId

def CommandIds.command (ids : CommandIds) (n : Nat) (payload : CommandPayload) :
    CommandEnvelope :=
  ⟨ids.commandId n, ids.correlationId n, payload⟩

def interruptedBeforeDispatch : AttemptFailure where
  errorClass := .unavailable
  code := ⟨"interrupted_before_dispatch", rfl⟩
  message := ⟨"The attempt was interrupted before provider dispatch", by decide, by decide⟩
  retryAdvice := .immediate

def emptyProposalOutput : ToolOutput :=
  ⟨"", none, 0, false, Nat.zero_le _, Nat.zero_le _, rfl⟩

def AttemptProjection.isProviderDispatchReady (attempt : AttemptProjection) : Bool :=
  attempt.status == .inFlight && attempt.providerDispatchReady

variable {A : Type} [DecidableEq A]

/-- Every admitted content of the turn is still there. -/
def admissionsPresent (reads : RecoveryReads A) : List A → Except AppError Bool
  | [] => .ok true
  | admission :: admissions => do
    if ← reads.hasContextAdmissionContent admission then admissionsPresent reads admissions
    else .ok false

/-- The stored turn behind a binding, or an error where the two contradict each other. -/
def loadBoundTurn (reads : RecoveryReads A) (sessionId : SessionId) (attemptId : AttemptId)
    (binding : ContextTurnBinding) : Except AppError (Option (ContextTurnRecord A)) := do
  match ← reads.loadContextTurn binding.contextTurnId with
  | none => .error .configuration
  | some turn =>
    if turn.key ≠ ⟨sessionId, attemptId, binding.runTurn, binding.contextTurnId,
          binding.manifestHash⟩ ||
        turn.expectedSessionSequence.checkedNext ≠ some binding.boundSequence then
      .error .configuration
    else if !(← reads.verifyContextManifestHash turn) then .error .configuration
    else
      let admissions ← reads.loadContextAdmissions binding.contextTurnId
      if admissions ≠ turn.admissions then .error .configuration
      else
        let prelude ← reads.hasContextTurnContent binding.contextTurnId
        if turn.admissions.isEmpty && prelude then .error .configuration
        else if !turn.admissions.isEmpty && !prelude then .ok none
        else if ← admissionsPresent reads turn.admissions then .ok (some turn)
        else .ok none

/-- The bound turn of an attempt that the next dispatch can use as it is. -/
def loadExactPendingContextTurn (reads : RecoveryReads A) (session : SessionAggregate)
    (sessionId : SessionId) (attemptId : AttemptId) :
    Except AppError (Option (ContextTurnRecord A)) :=
  match session.attempt attemptId with
  | none => .error .configuration
  | some attempt =>
    if !attempt.isProviderDispatchReady then .ok none
    else
      match attempt.pendingContextTurn with
      | none => .ok none
      | some binding =>
        if session.lastSequence ≠ some binding.boundSequence then .ok none
        else loadBoundTurn reads sessionId attemptId binding

/-- The engine while recovery works on it, and what it has counted. -/
structure RecoveryPass (S M : Type) where
  engine : DurableEngine S M
  issued : Nat
  failedBeforeDispatch : Nat
  markedUnknown : Nat

namespace RecoveryPass

variable {S M : Type} [SessionStore S] [EventMetadataSource M]
variable (reads : RecoveryReads A) (parseUrl : String → Option Url) (ids : CommandIds)

def session (pass : RecoveryPass S M) (sessionId : SessionId) :
    Except AppError SessionAggregate :=
  match pass.engine.inner.session sessionId with
  | some session => .ok session
  | none => .error .configuration

def execute (pass : RecoveryPass S M) (payload : CommandPayload) :
    Except AppError (RecoveryPass S M) :=
  match pass.engine.execute (ids.command pass.issued payload) with
  | (.ok _, engine) => .ok { pass with engine, issued := pass.issued + 1 }
  | (.error e, _) => .error (.engine e)

/-- A running memory proposal whose result is already in the ledger is completed. -/
def reconcileCommittedMemoryProposal (sessionId : SessionId) (pass : RecoveryPass S M)
    (call : ToolCallProjection) : Except AppError (Option (RecoveryPass S M)) :=
  match replan parseUrl call.call with
  | .error _ => .ok none
  | .ok planned =>
    match planned.operation with
    | .submitMemoryProposal proposal => do
      match ← reads.loadAttemptContextTurn call.attemptId 1 with
      | none => .error .configuration
      | some contextTurn =>
        let session ← pass.session sessionId
        if ← reads.proposalCommitted session contextTurn call proposal then
          let pass ← pass.execute ids
            (.completeToolCall sessionId call.toolCallId emptyProposalOutput)
          .ok (some pass)
        else .ok none
    | _ => .ok none

/-- The unsettled calls, each with the status its attempt has before the pass. -/
def interruptedTools (session : SessionAggregate) :
    Except AppError (List (ToolCallProjection × AttemptStatus)) :=
  (session.toolCalls.filter fun call => !call.status.isSettled).mapM fun call =>
    match session.attempt call.attemptId with
    | some attempt => .ok (call, attempt.status)
    | none => .error .configuration

def settleToolCall (sessionId : SessionId) (pass : RecoveryPass S M)
    (interrupted : ToolCallProjection × AttemptStatus) : Except AppError (RecoveryPass S M) := do
  let (call, attemptStatus) := interrupted
  match call.status with
  | .running =>
    match ← reconcileCommittedMemoryProposal reads parseUrl ids sessionId pass call with
    | some pass => .ok pass
    | none => pass.execute ids (.markToolCallUnknown sessionId call.toolCallId)
  | .deniedPending => pass.execute ids (.denyToolCall sessionId call.toolCallId)
  | .proposed | .authorized => pass.execute ids (.cancelToolCall sessionId call.toolCallId)
  | .permissionPending =>
    if attemptStatus = .inFlight ∨ attemptStatus = .cancellationRequested then
      pass.execute ids (.cancelToolCall sessionId call.toolCallId)
    else .ok pass
  | .completed | .failed | .denied | .cancelled | .unknown => .ok pass

def failBeforeDispatch (sessionId : SessionId) (pass : RecoveryPass S M)
    (attemptId : AttemptId) : Except AppError (RecoveryPass S M) :=
  execute ids { pass with failedBeforeDispatch := pass.failedBeforeDispatch + 1 }
    (.failAttempt sessionId attemptId interruptedBeforeDispatch)

def markUnknown (sessionId : SessionId) (pass : RecoveryPass S M) (attemptId : AttemptId) :
    Except AppError (RecoveryPass S M) :=
  execute ids { pass with markedUnknown := pass.markedUnknown + 1 }
    (.markAttemptUnknown sessionId attemptId)

/-- The binding is compared with the session as it is now. -/
def exactPendingContext (sessionId : SessionId) (pass : RecoveryPass S M)
    (attempt : AttemptProjection) : Except AppError Bool :=
  if attempt.isProviderDispatchReady then do
    let session ← pass.session sessionId
    let turn ← loadExactPendingContextTurn reads session sessionId attempt.attemptId
    .ok turn.isSome
  else .ok false

/-- The attempt is handled as the snapshot before the pass has it. -/
def settleAttempt (sessionId : SessionId) (pass : RecoveryPass S M)
    (attempt : AttemptProjection) : Except AppError (RecoveryPass S M) := do
  let exactPendingContext ← exactPendingContext reads sessionId pass attempt
  match attempt.status with
  | .prepared => pass.failBeforeDispatch ids sessionId attempt.attemptId
  | .inFlight =>
    if exactPendingContext then .ok pass
    else if attempt.isProviderDispatchReady || attempt.turnsStarted == 0 then
      pass.failBeforeDispatch ids sessionId attempt.attemptId
    else pass.markUnknown ids sessionId attempt.attemptId
  | .cancellationRequested =>
    if attempt.turnsStarted == 0 then pass.failBeforeDispatch ids sessionId attempt.attemptId
    else pass.markUnknown ids sessionId attempt.attemptId
  | .awaitingTools | .completed | .failed | .cancelled | .unknown => .ok pass

def reconcileSession (pass : RecoveryPass S M) (sessionId : SessionId) :
    Except AppError (RecoveryPass S M) := do
  let tools ← interruptedTools (← pass.session sessionId)
  let pass ← FallibleRun.run (settleToolCall reads parseUrl ids sessionId) pass tools
  let session ← pass.session sessionId
  FallibleRun.run (settleAttempt reads ids sessionId) pass
    (session.attempts.filter fun attempt => !attempt.status.isSettled)

def reconcileInterruptedAttempts (pass : RecoveryPass S M) (sessionIds : List SessionId) :
    Except AppError (RecoveryPass S M) :=
  FallibleRun.run (reconcileSession reads parseUrl ids) pass sessionIds

end RecoveryPass

end AutoHarness
