import AutoHarness.FallibleRun
import AutoHarness.Identifier
import AutoHarness.Interleaving
import AutoHarness.SessionTables

namespace AutoHarness

inductive ProjectionMode where
  | append
  | rebuild
deriving DecidableEq, Repr

def transitionError : ProjectionMode → StoreError
  | .append => .invalidSessionTransition
  | .rebuild => .corruptData .event

def identityProjectionError : ProjectionMode → IdentityKind → StoreError
  | .append, kind => .identityConflict kind
  | .rebuild, _ => .corruptData .event

def requireTransition (mode : ProjectionMode) (changed : SessionTables × Nat) :
    Except StoreError SessionTables :=
  if changed.2 = 1 then .ok changed.1 else .error (transitionError mode)

/-- Every change of a session header must find its row. -/
def requireSessionRow (changed : SessionTables × Nat) : Except StoreError SessionTables :=
  if changed.2 = 1 then .ok changed.1 else .error (.corruptData .sessionProjection)

section Rows

variable (event : EventEnvelope)

def SessionRow.setCreated : KeyedTable.RowMap SessionRow.sessionId :=
  ⟨fun row => { row with
    status := .active, createdAt := event.occurredAt, updatedAt := event.occurredAt }, fun _ => rfl⟩

def SessionRow.setTitle (title : SessionTitle) : KeyedTable.RowMap SessionRow.sessionId :=
  ⟨fun row => { row with title := some title }, fun _ => rfl⟩

def SessionRow.setStatus (status : SessionStatus) : KeyedTable.RowMap SessionRow.sessionId :=
  ⟨fun row => { row with status }, fun _ => rfl⟩

def SessionRow.setModel (model : ModelRef) : KeyedTable.RowMap SessionRow.sessionId :=
  ⟨fun row => { row with selectedModel := some model }, fun _ => rfl⟩

def SessionRow.advance : KeyedTable.RowMap SessionRow.sessionId :=
  ⟨fun row => { row with
    lastSequence := event.sequence.get, updatedAt := event.occurredAt }, fun _ => rfl⟩

def InputRow.admitted (inputId : InputId) (prompt : PromptText) (deliveryMode : DeliveryMode) :
    InputRow where
  sessionId := event.sessionId
  inputId := inputId
  admittedEventId := event.eventId
  admittedSequence := event.sequence
  deliveryMode := deliveryMode
  state := .admitted
  prompt := prompt
  admittedAt := event.occurredAt
  promotedAt := none

/-- Every column but the key is written again. -/
def InputRow.replace (fresh : InputRow) : KeyedTable.RowMap InputRow.key :=
  ⟨fun row => { fresh with sessionId := row.sessionId, inputId := row.inputId }, fun _ => rfl⟩

def InputRow.promote : KeyedTable.RowMap InputRow.key :=
  ⟨fun row => { row with
    state := .promoted, promotedAt := some (row.promotedAt.getD event.occurredAt) }, fun _ => rfl⟩

def AttemptRow.prepared (attemptId : AttemptId) (inputId : InputId) (model : ModelRef)
    (retryOf : Option AttemptId) : AttemptRow where
  attemptId := attemptId
  sessionId := event.sessionId
  inputId := inputId
  model := model
  retryOf := retryOf
  state := .prepared
  preparedEventId := event.eventId
  preparedSequence := event.sequence
  startedEventId := none
  settledEventId := none
  cancellationRequestedEventId := none
  usageEventId := none
  preparedAt := event.occurredAt
  startedAt := none
  settledAt := none
  cancellationRequestedAt := none
  usage := none
  failure := none

def AttemptRow.replace (fresh : AttemptRow) : KeyedTable.RowMap AttemptRow.attemptId :=
  ⟨fun row => { fresh with attemptId := row.attemptId }, fun _ => rfl⟩

def AttemptRow.start : KeyedTable.RowMap AttemptRow.attemptId :=
  ⟨fun row => { row with
    state := .inFlight, startedEventId := some event.eventId,
    startedAt := some event.occurredAt }, fun _ => rfl⟩

def AttemptRow.recordUsage (usage : UsageSnapshot) : KeyedTable.RowMap AttemptRow.attemptId :=
  ⟨fun row => { row with usage := some usage, usageEventId := some event.eventId }, fun _ => rfl⟩

def AttemptRow.requestCancellation : KeyedTable.RowMap AttemptRow.attemptId :=
  ⟨fun row => { row with
    cancellationRequestedAt := some event.occurredAt,
    cancellationRequestedEventId := some event.eventId }, fun _ => rfl⟩

def AttemptRow.settle (state : AttemptState) (failure : Option AttemptFailure) :
    KeyedTable.RowMap AttemptRow.attemptId :=
  ⟨fun row => { row with
    state, settledEventId := some event.eventId, settledAt := some event.occurredAt,
    failure }, fun _ => rfl⟩

def MessageRow.first (source : TranscriptSource) (role : TranscriptRole)
    (state : TranscriptState) : MessageRow where
  sessionId := event.sessionId
  source := source
  role := role
  state := state
  firstSequence := event.sequence
  lastSequence := event.sequence

def MessageRow.extend : KeyedTable.RowMap MessageRow.key :=
  ⟨fun row => { row with lastSequence := event.sequence }, fun _ => rfl⟩

def MessageRow.close (state : TranscriptState) : KeyedTable.RowMap MessageRow.key :=
  ⟨fun row => { row with state, lastSequence := event.sequence }, fun _ => rfl⟩

def SegmentRow.ofEvent (source : TranscriptSource) (content : String) : SegmentRow where
  sessionId := event.sessionId
  source := source
  eventSequence := event.sequence
  sourceEventId := event.eventId
  content := content

/-- The rows of `WHERE session_id = ? AND attempt_id = ? AND …`. -/
def AttemptRow.isAt (attemptId : AttemptId) (p : AttemptRow → Bool) (row : AttemptRow) : Bool :=
  row.sessionId = event.sessionId && row.attemptId = attemptId && p row

def MessageRow.isAt (attemptId : AttemptId) (p : MessageRow → Bool) (row : MessageRow) : Bool :=
  row.key = (event.sessionId, .attempt attemptId) && p row

end Rows

def AttemptState.settles (state : AttemptState) (row : AttemptRow) : Bool :=
  row.state = .inFlight || (state = .failed && row.state = .prepared)

/-- The state of a message once its attempt is settled. -/
def AttemptState.transcriptState : AttemptState → TranscriptState
  | .completed => .complete
  | .failed => .failed
  | .cancelled => .cancelled
  | .unknown => .unknown
  | .prepared | .inFlight => .streaming

namespace SessionTables

variable (t : SessionTables) (mode : ProjectionMode) (event : EventEnvelope)

/-- The events of one session, `ORDER BY sequence ASC`. -/
def stream (sessionId : SessionId) : List EventEnvelope :=
  (Interleaving.project EventEnvelope.sessionId sessionId t.events.rows).mergeSort
    fun a b => a.sequence.get ≤ b.sequence.get

def updateHeader (f : KeyedTable.RowMap SessionRow.sessionId) : Except StoreError SessionTables :=
  requireSessionRow (t.updateSessions event.sessionId f)

def writeInput (row : InputRow) : Except StoreError SessionTables :=
  if (t.inputs.find? row.key).isSome then
    match mode with
    | .append => .error (identityProjectionError .append .input)
    | .rebuild => do
      let changed ← t.updateInputs (fun other => other.key = row.key) row.replace
      requireTransition .rebuild changed
  else t.insertInput row

def admitInput (inputId : InputId) (prompt : PromptText) (deliveryMode : DeliveryMode) :
    Except StoreError SessionTables := do
  let admitted ← t.writeInput mode (.admitted event inputId prompt deliveryMode)
  let opened ← admitted.insertMessage (.first event (.input inputId) .user .complete)
  opened.insertSegment (.ofEvent event (.input inputId) prompt.value)

/-- The attempt that a retry names must be settled. -/
def requireRetry (retryOf : Option AttemptId) : Except StoreError Unit :=
  if retryOf.all fun priorId => (t.attempts.find? priorId).any fun prior =>
      prior.sessionId = event.sessionId && prior.state.isSettled then .ok ()
  else .error (transitionError mode)

def promoteInput (inputId : InputId) : Except StoreError SessionTables := do
  let changed ← t.updateInputs (fun row => row.key = (event.sessionId, inputId))
    (InputRow.promote event)
  requireTransition mode changed

def writeAttempt (row : AttemptRow) (existing : Bool) : Except StoreError SessionTables :=
  if existing then do
    let changed ← t.updateAttempts (fun other => other.attemptId = row.attemptId) row.replace
    requireTransition mode changed
  else t.insertAttempt row

def prepareAttempt (row : AttemptRow) : Except StoreError SessionTables :=
  let existing := (t.attempts.find? row.attemptId).isSome
  if existing && mode = .append then .error (identityProjectionError mode .attempt)
  else do
    t.requireRetry mode event row.retryOf
    let promoted ← t.promoteInput mode event row.inputId
    promoted.writeAttempt mode row existing

def changeAttempt (attemptId : AttemptId) (p : AttemptRow → Bool)
    (f : KeyedTable.RowMap AttemptRow.attemptId) : Except StoreError SessionTables := do
  let changed ← t.updateAttempts (AttemptRow.isAt event attemptId p) f
  requireTransition mode changed

def requireAttemptInFlight (attemptId : AttemptId) : Except StoreError Unit :=
  if (t.attempts.find? attemptId).any fun row =>
      row.sessionId = event.sessionId && row.state = .inFlight then .ok ()
  else .error (transitionError mode)

def writeMessage (attemptId : AttemptId) : Except StoreError SessionTables :=
  if (t.messages.find? (event.sessionId, .attempt attemptId)).isSome then do
    let changed ← t.updateMessages
      (MessageRow.isAt event attemptId fun row => row.state = .streaming) (MessageRow.extend event)
    requireTransition mode changed
  else t.insertMessage (.first event (.attempt attemptId) .assistant .streaming)

def appendText (attemptId : AttemptId) (text : ResponseText) : Except StoreError SessionTables := do
  t.requireAttemptInFlight mode event attemptId
  let extended ← t.writeMessage mode event attemptId
  extended.insertSegment (.ofEvent event (.attempt attemptId) text.value)

def settleAttempt (attemptId : AttemptId) (state : AttemptState)
    (failure : Option AttemptFailure) : Except StoreError SessionTables := do
  let settled ← t.changeAttempt mode event attemptId state.settles
    (AttemptRow.settle event state failure)
  let changed ← settled.updateMessages (MessageRow.isAt event attemptId fun _ => true)
    (MessageRow.close event state.transcriptState)
  .ok changed.1

end SessionTables

/-- What the events of a session say about the dispatch of one attempt. -/
structure AttemptBindingState where
  turnsStarted : UInt32
  dispatchReady : Bool
  pendingBinding : Bool
  maxTurns : Option UInt32
deriving DecidableEq, Repr

namespace AttemptBindingState

def initial : AttemptBindingState := ⟨0, false, false, none⟩

def step (attemptId : AttemptId) (s : AttemptBindingState) (event : EventEnvelope) :
    AttemptBindingState :=
  match event.payload with
  | .runBudgetConfigured found limits =>
    if found = attemptId then { s with maxTurns := some limits.maxTurns } else s
  | .attemptStarted found => if found = attemptId then { s with dispatchReady := true } else s
  | .contextTurnBound found .. =>
    if found = attemptId then { s with pendingBinding := true } else s
  | .runTurnStarted found turn =>
    if found = attemptId then
      { s with turnsStarted := turn, dispatchReady := false, pendingBinding := false }
    else s
  | .attemptPausedForTools found =>
    if found = attemptId then { s with dispatchReady := false } else s
  | .attemptResumedAfterTools found =>
    if found = attemptId then { s with dispatchReady := true } else s
  | _ => s

def ofEvents (attemptId : AttemptId) (events : List EventEnvelope) : AttemptBindingState :=
  events.foldl (step attemptId) initial

/-- The turn may be bound next. -/
def allows (s : AttemptBindingState) (runTurn : UInt32) : Bool :=
  (checkedSucc s.turnsStarted).any fun expected =>
    s.dispatchReady && !s.pendingBinding && expected = runTurn &&
      !s.maxTurns.any fun limit => limit < expected

end AttemptBindingState

namespace SessionTables

variable (t : SessionTables) (mode : ProjectionMode) (event : EventEnvelope)

def loadAttemptBindingState (sessionId : SessionId) (attemptId : AttemptId)
    (beforeSequence : Nat) : Except StoreError AttemptBindingState :=
  if (t.attempts.find? attemptId).any fun row =>
      row.sessionId = sessionId && row.state = .inFlight then
    .ok (.ofEvents attemptId
      ((t.stream sessionId).filter fun event => event.sequence.get < beforeSequence))
  else .error .invalidContextTransition

/-- The causation of a binding event, read again after the event was inserted. -/
def requireBindingCausation : Except StoreError Unit :=
  match event.causation with
  | .command commandId =>
    if t.events.rows.any fun other =>
        other.causingCommand? = some commandId && !(other.eventId = event.eventId) then
      .error (.identityConflict .command)
    else .ok ()
  | .event causeId =>
    if (t.events.find? causeId).any fun cause =>
        cause.sessionId = event.sessionId && cause.sequence.get < event.sequence.get then .ok ()
    else .error .invalidCausation

def validateBindingBoundary (turn : ContextTurnKey) : Except StoreError Unit := do
  let state ← t.loadAttemptBindingState turn.sessionId turn.attemptId event.sequence.get
  if state.allows turn.runTurn then t.requireBindingCausation event
  else .error .invalidContextTransition

def applyContextTurnBinding (attemptId : AttemptId) (runTurn : UInt32)
    (contextTurnId : ContextTurnId) (manifestHash : Sha256Digest) :
    Except StoreError SessionTables :=
  let turn : ContextTurnKey := ⟨event.sessionId, attemptId, runTurn, contextTurnId, manifestHash⟩
  if t.contextTurns.find? contextTurnId = some turn then do
    t.validateBindingBoundary event turn
    t.insertBinding
      ⟨contextTurnId, event.sessionId, attemptId, runTurn, event.eventId, manifestHash,
        event.occurredAt⟩
  else .error .invalidContextTransition

def validateRunTurnBinding (attemptId : AttemptId) (turn : UInt32) :
    Except StoreError SessionTables :=
  if t.bindings.rows.any fun binding =>
      binding.sessionId = event.sessionId && binding.attemptId = attemptId &&
        binding.runTurn = turn && (t.events.find? binding.boundEventId).any fun bound =>
          bound.sessionId = event.sessionId && bound.sequence.get = event.sequence.get - 1 then
    .ok t
  else .error .invalidSessionTransition

def applyProjection : Except StoreError SessionTables :=
  match event.payload with
  | .sessionCreated =>
    match mode with
    | .append => .ok t
    | .rebuild => t.updateHeader event (SessionRow.setCreated event)
  | .sessionRenamed title => t.updateHeader event (SessionRow.setTitle title)
  | .sessionArchived => t.updateHeader event (SessionRow.setStatus .archived)
  | .sessionUnarchived => t.updateHeader event (SessionRow.setStatus .active)
  | .modelSelected model => t.updateHeader event (SessionRow.setModel model)
  | .inputAdmitted inputId prompt deliveryMode =>
    t.admitInput mode event inputId prompt deliveryMode
  | .attemptPrepared attemptId inputId model retryOf =>
    t.prepareAttempt mode event (.prepared event attemptId inputId model retryOf)
  | .attemptStarted attemptId =>
    t.changeAttempt mode event attemptId (fun row => row.state = .prepared)
      (AttemptRow.start event)
  | .attemptTextAppended attemptId text => t.appendText mode event attemptId text
  | .attemptUsageRecorded attemptId usage =>
    t.changeAttempt mode event attemptId (fun row => row.state = .inFlight)
      (AttemptRow.recordUsage event usage)
  | .attemptCancellationRequested attemptId =>
    t.changeAttempt mode event attemptId
      (fun row => row.state = .inFlight && row.cancellationRequestedAt.isNone)
      (AttemptRow.requestCancellation event)
  | .attemptCompleted attemptId => t.settleAttempt mode event attemptId .completed none
  | .attemptFailed attemptId failure =>
    t.settleAttempt mode event attemptId .failed (some failure)
  | .attemptCancelled attemptId => t.settleAttempt mode event attemptId .cancelled none
  | .attemptMarkedUnknown attemptId => t.settleAttempt mode event attemptId .unknown none
  | .contextTurnBound attemptId runTurn contextTurnId manifestHash =>
    t.applyContextTurnBinding event attemptId runTurn contextTurnId manifestHash
  | .runTurnStarted attemptId turn => t.validateRunTurnBinding event attemptId turn
  | .runBudgetConfigured .. | .toolCallProposed .. | .toolPermissionRecorded ..
  | .toolPermissionAnswered .. | .toolCallStarted .. | .toolCallCompleted ..
  | .toolCallFailed .. | .toolCallDenied .. | .toolCallCancelled .. | .toolCallMarkedUnknown ..
  | .attemptPausedForTools .. | .attemptResumedAfterTools .. => .ok t

/-- The projection of an event, with the version of its session. -/
def projectEvent : Except StoreError SessionTables := do
  let projected ← t.applyProjection mode event
  .ok (projected.updateSessions event.sessionId (SessionRow.advance event)).1

end SessionTables

end AutoHarness
