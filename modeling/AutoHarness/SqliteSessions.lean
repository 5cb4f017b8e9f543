import AutoHarness.SessionProjection

namespace AutoHarness

/-- What the scan of one append batch remembers. -/
structure AppendScan where
  eventIds : List EventId
  commandIds : List CommandId
  expected : Nat

def AppendScan.next (scan : AppendScan) (event : EventEnvelope) : AppendScan where
  eventIds := event.eventId :: scan.eventIds
  commandIds := event.causingCommand?.toList ++ scan.commandIds
  expected := scan.expected + 1

def AppendScan.validateCausation (scan : AppendScan) (event : EventEnvelope) :
    Except StoreError Unit :=
  match event.causation with
  | .command commandId =>
    if scan.commandIds.contains commandId then .error (.identityConflict .command) else .ok ()
  | .event causeId => if causeId = event.eventId then .error .invalidCausation else .ok ()

namespace AppendRequest

variable (request : AppendRequest)

/-- Creation is the first event of a new stream and of nothing else. -/
def validatePosition (scan : AppendScan) (event : EventEnvelope) : Except StoreError AppendScan :=
  if event.payload = .sessionCreated ∧
      (0 < request.expectedLastSequence ∨ scan.eventIds ≠ []) then
    .error .invalidSessionTransition
  else if request.expectedLastSequence = 0 ∧ scan.eventIds = [] ∧ event.sequence.get ≠ 1 then
    .error .invalidSessionTransition
  else .ok (scan.next event)

def validateEvent (scan : AppendScan) (event : EventEnvelope) : Except StoreError AppendScan :=
  if event.sessionId ≠ request.sessionId then .error .mixedSessions
  else if event.schemaVersion ≠ eventSchemaV1 then
    .error (.unsupportedEventSchema event.schemaVersion)
  else if event.sequence.get ≠ scan.expected ∨ maxSequence < scan.expected then
    .error .nonContiguousBatch
  else if event.eventId ∈ scan.eventIds then .error (.identityConflict .event)
  else do
    scan.validateCausation event
    request.validatePosition scan event

def requireCreation : Except StoreError Unit :=
  if request.expectedLastSequence = 0 ∧
      request.events.head?.map EventEnvelope.payload ≠ some .sessionCreated then
    .error .invalidSessionTransition
  else .ok ()

/-- `validate_and_encode`. -/
def validate : Except StoreError Unit :=
  if request.events = [] then .error .emptyAppend
  else if maxSequence < request.expectedLastSequence then .error .sequenceOutOfRange
  else do
    let _ ← FallibleRun.run request.validateEvent ⟨[], [], request.expectedLastSequence + 1⟩
      request.events
    request.requireCreation

end AppendRequest

inductive ExistingBatchState where
  | none
  | partially
  | all
deriving DecidableEq, Repr

/-- The order in which one statement removes its rows. -/
structure RemovalOrder (ρ : Type) where
  arrange : List ρ → List ρ
  perm : ∀ rows, (arrange rows).Perm rows

def SessionRow.opened (first : EventEnvelope) (sessionId : SessionId) : SessionRow where
  sessionId := sessionId
  status := .active
  title := none
  selectedModel := none
  lastSequence := 0
  createdAt := first.occurredAt
  updatedAt := first.occurredAt
  workspaceId := none

def SessionRow.reset : KeyedTable.RowMap SessionRow.sessionId :=
  ⟨fun row => { row with
    status := .active, title := none, selectedModel := none, lastSequence := 0,
    createdAt := ⟨0⟩, updatedAt := ⟨0⟩ }, fun _ => rfl⟩

def InputRow.reset : KeyedTable.RowMap InputRow.key :=
  ⟨fun row => { row with state := .admitted, promotedAt := none }, fun _ => rfl⟩

def AttemptRow.reset : KeyedTable.RowMap AttemptRow.attemptId :=
  ⟨fun row => { row with
    state := .prepared, startedEventId := none, settledEventId := none,
    cancellationRequestedEventId := none, usageEventId := none, startedAt := none,
    settledAt := none, cancellationRequestedAt := none, usage := none,
    failure := none }, fun _ => rfl⟩

def SessionRow.bindWorkspace (workspaceId : WorkspaceId) :
    KeyedTable.RowMap SessionRow.sessionId :=
  ⟨fun row => { row with workspaceId := some workspaceId }, fun _ => rfl⟩

/-- What the scan of one complete stream remembers. -/
structure StreamScan where
  expected : Nat
  created : Bool
  inputIds : List InputId
  eventIds : List EventId
  commandIds : List CommandId

namespace StreamScan

def initial : StreamScan := ⟨1, false, [], [], []⟩

def causationSeen (scan : StreamScan) (event : EventEnvelope) : Bool :=
  match event.causation with
  | .command commandId => !scan.commandIds.contains commandId
  | .event causeId => causeId ∈ scan.eventIds

def payloadFits (scan : StreamScan) (event : EventEnvelope) : Bool :=
  match event.payload with
  | .sessionCreated => !scan.created
  | .inputAdmitted inputId _ _ => scan.created && inputId ∉ scan.inputIds
  | _ => scan.created

def admittedInput? (event : EventEnvelope) : Option InputId :=
  match event.payload with
  | .inputAdmitted inputId _ _ => some inputId
  | _ => none

def step (scan : StreamScan) (event : EventEnvelope) : Except StoreError StreamScan :=
  if event.sequence.get ≠ scan.expected then .error (.corruptData .eventSequence)
  else if !scan.causationSeen event || !scan.payloadFits event then .error (.corruptData .event)
  else .ok {
    expected := scan.expected + 1
    created := true
    inputIds := (admittedInput? event).toList ++ scan.inputIds
    eventIds := event.eventId :: scan.eventIds
    commandIds := event.causingCommand?.toList ++ scan.commandIds }

end StreamScan

/-- `validate_complete_streams` on one stream. -/
def validateCompleteStream (events : List EventEnvelope) : Except StoreError Unit := do
  let scan ← FallibleRun.run StreamScan.step .initial events
  if scan.created then .ok () else .error (.corruptData .event)

namespace SessionTables

variable (t : SessionTables)

/-- What reading a stored event checks beside its encoding. -/
def validateStored (event : EventEnvelope) : Except StoreError Unit :=
  if event.schemaVersion ≠ eventSchemaV1 then
    .error (.unsupportedEventSchema event.schemaVersion)
  else
    match event.causation with
    | .command _ => .ok ()
    | .event causeId =>
      if (t.events.find? causeId).any fun cause =>
          cause.sessionId = event.sessionId && cause.sequence.get < event.sequence.get then .ok ()
      else .error (.corruptData .event)

def findExisting (event : EventEnvelope) : Except StoreError Bool :=
  match t.events.find? event.eventId with
  | none => .ok false
  | some existing =>
    if existing ≠ event then .error (.identityConflict .event)
    else do
      t.validateStored existing
      .ok true

def existingBatchState (events : List EventEnvelope) : Except StoreError ExistingBatchState := do
  let found ← events.mapM t.findExisting
  if found.all (· = false) then .ok .none
  else if found.all (· = true) then .ok .all
  else .ok .partially

def currentSessionVersion (sessionId : SessionId) : Nat :=
  (t.sessions.find? sessionId).elim 0 SessionRow.lastSequence

def validateDurableCausation (event : EventEnvelope) : Except StoreError Unit :=
  match event.causation with
  | .command commandId =>
    if t.events.rows.any fun other => other.causingCommand? = some commandId then
      .error (.identityConflict .command)
    else .ok ()
  | .event causeId =>
    if (t.events.find? causeId).any fun cause =>
        cause.sessionId = event.sessionId && cause.sequence.get < event.sequence.get then .ok ()
    else .error .invalidCausation

def openSession (sessionId : SessionId) (first : EventEnvelope) :
    Except StoreError SessionTables :=
  if t.currentSessionVersion sessionId = 0 then
    if first.payload = .sessionCreated then t.insertSession (.opened first sessionId)
    else .error .invalidSessionTransition
  else .ok t

def appendEvent (event : EventEnvelope) : Except StoreError SessionTables := do
  t.validateDurableCausation event
  let inserted ← t.insertEvent event
  inserted.projectEvent .append event

def commitBatch (request : AppendRequest) (first last : EventEnvelope) :
    Except StoreError (AppendReceipt × SessionTables) :=
  if t.currentSessionVersion request.sessionId ≠ request.expectedLastSequence then
    .error (.versionConflict request.sessionId request.expectedLastSequence
      (t.currentSessionVersion request.sessionId))
  else do
    let opened ← t.openSession request.sessionId first
    let appended ← FallibleRun.run appendEvent opened request.events
    .ok (⟨.committed, last.sequence.get⟩, appended)

def alreadyCommitted (request : AppendRequest) (last : EventEnvelope) :
    Except StoreError (AppendReceipt × SessionTables) :=
  if t.currentSessionVersion request.sessionId < last.sequence.get then
    .error (.corruptData .sessionProjection)
  else .ok (⟨.alreadyCommitted, t.currentSessionVersion request.sessionId⟩, t)

/-- One transaction: an error leaves the tables as they were. -/
def append (request : AppendRequest) : Except StoreError (AppendReceipt × SessionTables) := do
  request.validate
  let state ← t.existingBatchState request.events
  match request.events.head?, request.events.getLast? with
  | some first, some last =>
    match state with
    | .none => t.commitBatch request first last
    | .partially => .error (.identityConflict .event)
    | .all => t.alreadyCommitted request last
  | _, _ => .error .emptyAppend

/-- The sessions that have events, in the order of their identifiers. -/
def streamIds : List SessionId :=
  (t.events.rows.map EventEnvelope.sessionId).dedup.mergeSort (· ≤ ·)

/-- The tables before the events are projected again. -/
def resetProjections : SessionTables :=
  { t with
    bindings := .empty
    segments := .empty
    messages := .empty
    attempts := t.attempts.update (fun _ => true) AttemptRow.reset
    inputs := t.inputs.update (fun _ => true) InputRow.reset
    sessions := t.sessions.update (fun _ => true) SessionRow.reset }

def requireProjected : Except StoreError SessionTables :=
  if t.sessions.rows.any fun row => row.lastSequence = 0 then
    .error (.corruptData .sessionProjection)
  else .ok t

def rebuildProjections : Except StoreError SessionTables := do
  let streams := t.streamIds.map t.stream
  streams.flatten.forM t.validateStored
  streams.forM validateCompleteStream
  let rebuilt ← FallibleRun.run (fun u event => u.projectEvent .rebuild event) t.resetProjections
    streams.flatten
  rebuilt.requireProjected

/-- Rows that refer to a context turn keep it from being removed. -/
def deleteContextTurns (sessionId : SessionId) : Except StoreError SessionTables :=
  if t.bindings.rows.any fun binding =>
      (t.contextTurns.find? binding.contextTurnId).any fun turn => turn.sessionId = sessionId then
    .error constraintViolation
  else .ok { t with
    contextTurns := t.contextTurns.delete fun turn => turn.sessionId = sessionId
    turnsDistinct := t.turnsDistinct.sublist (List.filter_sublist.map _) }

def deleteBindings (sessionId : SessionId) : SessionTables :=
  { t with bindings := t.bindings.delete fun row => row.sessionId = sessionId }

def deleteSegments (sessionId : SessionId) : SessionTables :=
  { t with segments := t.segments.delete fun row => row.sessionId = sessionId }

def deleteMessages (sessionId : SessionId) : Except StoreError SessionTables :=
  if t.segments.rows.any fun row => row.sessionId = sessionId then .error constraintViolation
  else .ok { t with messages := t.messages.delete fun row => row.sessionId = sessionId }

/-- Some row refers to the attempt. -/
def attemptReferenced (row : AttemptRow) : Bool :=
  (t.attempts.rows.any fun other =>
      other.sessionId = row.sessionId && other.retryOf = some row.attemptId) ||
    (t.bindings.rows.any fun binding =>
      binding.sessionId = row.sessionId && binding.attemptId = row.attemptId) ||
    t.contextTurns.rows.any fun turn =>
      turn.sessionId = row.sessionId && turn.attemptId = row.attemptId

/-- `ON DELETE RESTRICT` is checked at once for each removed row. -/
def removeAttempt (row : AttemptRow) : Except StoreError SessionTables :=
  if t.attemptReferenced row then .error constraintViolation
  else .ok { t with attempts := t.attempts.delete fun other => other.attemptId = row.attemptId }

def deleteAttempts (order : RemovalOrder AttemptRow) (sessionId : SessionId) :
    Except StoreError SessionTables :=
  FallibleRun.run removeAttempt t
    (order.arrange (t.attempts.select fun row => row.sessionId = sessionId))

def deleteInputs (sessionId : SessionId) : Except StoreError SessionTables :=
  if t.attempts.rows.any fun row => row.sessionId = sessionId then .error constraintViolation
  else .ok { t with inputs := t.inputs.delete fun row => row.sessionId = sessionId }

def eventReferenced (event : EventEnvelope) : Bool :=
  (t.events.rows.any fun other =>
      other.sessionId = event.sessionId && other.causation = .event event.eventId) ||
    (t.inputs.rows.any fun row =>
      row.sessionId = event.sessionId && row.admittedEventId = event.eventId) ||
    (t.attempts.rows.any fun row =>
      row.sessionId = event.sessionId && event.eventId ∈ row.eventIds) ||
    (t.segments.rows.any fun row =>
      row.sessionId = event.sessionId && row.sourceEventId = event.eventId) ||
    t.bindings.rows.any fun row =>
      row.sessionId = event.sessionId && row.boundEventId = event.eventId

def removeEvent (event : EventEnvelope) : Except StoreError SessionTables :=
  if t.eventReferenced event then .error constraintViolation
  else if (t.events.find? event.eventId).isSome then
    .ok { t with events := t.events.delete fun other => other.eventId = event.eventId }
  else .error (.corruptData .event)

/-- The events of a session go in the reverse of their order. -/
def deleteEvents (sessionId : SessionId) : Except StoreError SessionTables :=
  FallibleRun.run removeEvent t (t.stream sessionId).reverse

def sessionReferenced (sessionId : SessionId) : Bool :=
  (t.events.rows.any fun row => row.sessionId = sessionId) ||
    (t.inputs.rows.any fun row => row.sessionId = sessionId) ||
    (t.attempts.rows.any fun row => row.sessionId = sessionId) ||
    (t.messages.rows.any fun row => row.sessionId = sessionId) ||
    t.contextTurns.rows.any fun row => row.sessionId = sessionId

def removeSession (sessionId : SessionId) : Except StoreError SessionTables :=
  if t.sessionReferenced sessionId then .error constraintViolation
  else if (t.sessions.find? sessionId).isSome then
    .ok { t with sessions := t.sessions.delete fun row => row.sessionId = sessionId }
  else .error (.corruptData .sessionProjection)

/-- The projections of a session, deepest first. -/
def deleteProjections (order : RemovalOrder AttemptRow) (sessionId : SessionId) :
    Except StoreError SessionTables := do
  let turns ← (t.deleteBindings sessionId).deleteContextTurns sessionId
  let messages ← (turns.deleteSegments sessionId).deleteMessages sessionId
  let attempts ← messages.deleteAttempts order sessionId
  attempts.deleteInputs sessionId

def deleteRows (order : RemovalOrder AttemptRow) (sessionId : SessionId) :
    Except StoreError SessionTables := do
  let projections ← t.deleteProjections order sessionId
  let events ← projections.deleteEvents sessionId
  events.removeSession sessionId

/-- The checks of a deletion before it removes rows. -/
def requireDeletable (row : SessionRow) (expectedLastSequence : Nat) : Except StoreError Unit :=
  if row.lastSequence ≠ expectedLastSequence then
    .error (.versionConflict row.sessionId expectedLastSequence row.lastSequence)
  else if t.attempts.rows.any fun attempt =>
      attempt.sessionId = row.sessionId && !attempt.state.isSettled then
    .error .invalidSessionTransition
  else .ok ()

inductive DeletionDisposition where
  | deleted
  | notFound
deriving DecidableEq, Repr

def deleteSession (order : RemovalOrder AttemptRow) (sessionId : SessionId)
    (expectedLastSequence : Nat) : Except StoreError (DeletionDisposition × SessionTables) :=
  if maxSequence < expectedLastSequence then .error .sequenceOutOfRange
  else
    match t.sessions.find? sessionId with
    | none => .ok (.notFound, t)
    | some row => do
      t.requireDeletable row expectedLastSequence
      let deleted ← t.deleteRows order sessionId
      .ok (.deleted, deleted)

end SessionTables

end AutoHarness
