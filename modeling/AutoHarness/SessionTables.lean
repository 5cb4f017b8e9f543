import AutoHarness.KeyedTable
import AutoHarness.StorePort

namespace AutoHarness

inductive SessionStatus where
  | active
  | archived
deriving DecidableEq, Repr

/-- One session. The two columns of the selected model are set together. -/
structure SessionRow where
  sessionId : SessionId
  status : SessionStatus
  title : Option SessionTitle
  selectedModel : Option ModelRef
  lastSequence : Nat
  createdAt : TimestampMillis
  updatedAt : TimestampMillis
  workspaceId : Option WorkspaceId
deriving DecidableEq

inductive InputRowState where
  | admitted
  | promoted
deriving DecidableEq, Repr

structure InputRow where
  sessionId : SessionId
  inputId : InputId
  admittedEventId : EventId
  admittedSequence : SessionSequence
  deliveryMode : DeliveryMode
  state : InputRowState
  prompt : PromptText
  admittedAt : TimestampMillis
  promotedAt : Option TimestampMillis
deriving DecidableEq

def InputRow.key (row : InputRow) : SessionId × InputId := (row.sessionId, row.inputId)

def InputRow.check (row : InputRow) : Bool :=
  decide (row.state = .promoted) == row.promotedAt.isSome

inductive AttemptState where
  | prepared
  | inFlight
  | completed
  | failed
  | cancelled
  | unknown
deriving DecidableEq, Repr

def AttemptState.isSettled : AttemptState → Bool
  | .completed | .failed | .cancelled | .unknown => true
  | .prepared | .inFlight => false

structure AttemptRow where
  attemptId : AttemptId
  sessionId : SessionId
  inputId : InputId
  model : ModelRef
  retryOf : Option AttemptId
  state : AttemptState
  preparedEventId : EventId
  preparedSequence : SessionSequence
  startedEventId : Option EventId
  settledEventId : Option EventId
  cancellationRequestedEventId : Option EventId
  usageEventId : Option EventId
  preparedAt : TimestampMillis
  startedAt : Option TimestampMillis
  settledAt : Option TimestampMillis
  cancellationRequestedAt : Option TimestampMillis
  usage : Option UsageSnapshot
  failure : Option AttemptFailure
deriving DecidableEq

/-- The `CHECK` of the times of an attempt against its state. -/
def AttemptRow.timesCheck (row : AttemptRow) : Bool :=
  match row.state with
  | .prepared => row.startedAt.isNone && row.settledAt.isNone
  | .inFlight => row.startedAt.isSome && row.settledAt.isNone
  | .completed | .cancelled | .unknown => row.startedAt.isSome && row.settledAt.isSome
  | .failed => row.settledAt.isSome

def AttemptRow.check (row : AttemptRow) : Bool :=
  row.timesCheck && decide (row.state = .failed) == row.failure.isSome &&
    row.cancellationRequestedEventId.isSome == row.cancellationRequestedAt.isSome &&
    row.usageEventId.isSome == row.usage.isSome

/-- The events that an attempt refers to. -/
def AttemptRow.eventIds (row : AttemptRow) : List EventId :=
  row.preparedEventId :: (row.startedEventId.toList ++ row.settledEventId.toList ++
    row.cancellationRequestedEventId.toList ++ row.usageEventId.toList)

/-- Equal values of a `UNIQUE` column that may be null. -/
def sharesValue (a b : Option EventId) : Bool := a.isSome && a = b

/-- The `UNIQUE` columns of the attempt table beside its key. -/
def AttemptRow.sharesEvent (row other : AttemptRow) : Bool :=
  row.preparedEventId = other.preparedEventId ||
    sharesValue row.startedEventId other.startedEventId ||
    sharesValue row.settledEventId other.settledEventId ||
    sharesValue row.cancellationRequestedEventId other.cancellationRequestedEventId ||
    sharesValue row.usageEventId other.usageEventId

/-- The source of a transcript message: `source_kind` and `source_id`. -/
inductive TranscriptSource where
  | input (inputId : InputId)
  | attempt (attemptId : AttemptId)
deriving DecidableEq, Repr

inductive TranscriptRole where
  | user
  | assistant
deriving DecidableEq, Repr

inductive TranscriptState where
  | complete
  | streaming
  | failed
  | cancelled
  | unknown
deriving DecidableEq, Repr

structure MessageRow where
  sessionId : SessionId
  source : TranscriptSource
  role : TranscriptRole
  state : TranscriptState
  firstSequence : SessionSequence
  lastSequence : SessionSequence
deriving DecidableEq

def MessageRow.key (row : MessageRow) : SessionId × TranscriptSource := (row.sessionId, row.source)

def MessageRow.check (row : MessageRow) : Bool := row.firstSequence.get ≤ row.lastSequence.get

structure SegmentRow where
  sessionId : SessionId
  source : TranscriptSource
  eventSequence : SessionSequence
  sourceEventId : EventId
  content : String
deriving DecidableEq

def SegmentRow.key (row : SegmentRow) : SessionId × TranscriptSource × SessionSequence :=
  (row.sessionId, row.source, row.eventSequence)

structure ContextTurnBindingRow where
  contextTurnId : ContextTurnId
  sessionId : SessionId
  attemptId : AttemptId
  runTurn : UInt32
  boundEventId : EventId
  manifestHash : Sha256Digest
  boundAt : TimestampMillis
deriving DecidableEq

/-- The second `UNIQUE` key of the context turns. -/
def ContextTurnKey.turnKey (turn : ContextTurnKey) : AttemptId × UInt32 :=
  (turn.attemptId, turn.runTurn)

/-- The session tables of the store, with the context turns that bindings refer to. -/
structure SessionTables where
  sessions : KeyedTable SessionRow.sessionId
  events : KeyedTable EventEnvelope.eventId
  inputs : KeyedTable InputRow.key
  attempts : KeyedTable AttemptRow.attemptId
  messages : KeyedTable MessageRow.key
  segments : KeyedTable SegmentRow.key
  bindings : KeyedTable ContextTurnBindingRow.contextTurnId
  contextTurns : KeyedTable ContextTurnKey.contextTurnId
  turnsDistinct : (contextTurns.rows.map ContextTurnKey.turnKey).Nodup

def SessionTables.empty : SessionTables :=
  ⟨.empty, .empty, .empty, .empty, .empty, .empty, .empty, .empty, List.nodup_nil⟩

/-- How the store reports a violated constraint of the schema. -/
def constraintViolation : StoreError := .identityConflict .constraint

namespace SessionTables

variable (t : SessionTables)

def hasSession (sessionId : SessionId) : Bool := (t.sessions.find? sessionId).isSome

def hasEvent (sessionId : SessionId) (eventId : EventId) : Bool :=
  (t.events.find? eventId).any fun event => event.sessionId = sessionId

def hasAttempt (sessionId : SessionId) (attemptId : AttemptId) : Bool :=
  (t.attempts.find? attemptId).any fun row => row.sessionId = sessionId

/-- The foreign keys and the `UNIQUE` columns of the event table. -/
def eventAllowed (event : EventEnvelope) : Bool :=
  t.hasSession event.sessionId &&
    (match event.causation with
      | .command _ => true
      | .event causeId => t.hasEvent event.sessionId causeId) &&
    t.events.rows.all fun other =>
      !(other.sessionId = event.sessionId && other.sequence = event.sequence) &&
        !(other.causingCommand?.isSome && other.causingCommand? = event.causingCommand?)

def inputAllowed (row : InputRow) : Bool :=
  row.check && t.hasSession row.sessionId && t.hasEvent row.sessionId row.admittedEventId &&
    t.inputs.rows.all fun other =>
      other.key = row.key || !(other.admittedEventId = row.admittedEventId)

def attemptAllowed (row : AttemptRow) : Bool :=
  row.check && t.hasSession row.sessionId &&
    (t.inputs.find? (row.sessionId, row.inputId)).isSome &&
    (row.retryOf.all fun priorId => t.hasAttempt row.sessionId priorId) &&
    (row.eventIds.all fun eventId => t.hasEvent row.sessionId eventId) &&
    t.attempts.rows.all fun other => other.attemptId = row.attemptId || !row.sharesEvent other

def messageAllowed (row : MessageRow) : Bool :=
  row.check && t.hasSession row.sessionId && t.messages.rows.all fun other =>
    other.key = row.key ||
      !(other.sessionId = row.sessionId && other.firstSequence = row.firstSequence)

def segmentAllowed (row : SegmentRow) : Bool :=
  (t.messages.find? (row.sessionId, row.source)).isSome &&
    t.hasEvent row.sessionId row.sourceEventId &&
    t.segments.rows.all fun other =>
      other.key = row.key || !(other.sourceEventId = row.sourceEventId)

def bindingAllowed (row : ContextTurnBindingRow) : Bool :=
  (t.contextTurns.find? row.contextTurnId).isSome && row.runTurn ≠ 0 &&
    t.hasAttempt row.sessionId row.attemptId && t.hasEvent row.sessionId row.boundEventId &&
    t.bindings.rows.all fun other => other.contextTurnId = row.contextTurnId ||
      (!(other.attemptId = row.attemptId && other.runTurn = row.runTurn) &&
        !(other.sessionId = row.sessionId && other.boundEventId = row.boundEventId))

def insertSession (row : SessionRow) : Except StoreError SessionTables :=
  match t.sessions.insert? row with
  | some sessions => .ok { t with sessions }
  | none => .error constraintViolation

def insertEvent (event : EventEnvelope) : Except StoreError SessionTables :=
  match t.events.insert? event with
  | some events => if t.eventAllowed event then .ok { t with events } else .error constraintViolation
  | none => .error constraintViolation

def insertInput (row : InputRow) : Except StoreError SessionTables :=
  match t.inputs.insert? row with
  | some inputs => if t.inputAllowed row then .ok { t with inputs } else .error constraintViolation
  | none => .error constraintViolation

def insertAttempt (row : AttemptRow) : Except StoreError SessionTables :=
  match t.attempts.insert? row with
  | some attempts =>
    if t.attemptAllowed row then .ok { t with attempts } else .error constraintViolation
  | none => .error constraintViolation

def insertMessage (row : MessageRow) : Except StoreError SessionTables :=
  match t.messages.insert? row with
  | some messages =>
    if t.messageAllowed row then .ok { t with messages } else .error constraintViolation
  | none => .error constraintViolation

def insertSegment (row : SegmentRow) : Except StoreError SessionTables :=
  match t.segments.insert? row with
  | some segments =>
    if t.segmentAllowed row then .ok { t with segments } else .error constraintViolation
  | none => .error constraintViolation

/-- A binding that breaks a constraint is reported as a conflict of its context turn. -/
def insertBinding (row : ContextTurnBindingRow) : Except StoreError SessionTables :=
  match t.bindings.insert? row with
  | some bindings =>
    if t.bindingAllowed row then .ok { t with bindings }
    else .error (.identityConflict .contextTurn)
  | none => .error (.identityConflict .contextTurn)

/-- `UPDATE sessions … WHERE session_id = ?`, with the number of changed rows. -/
def updateSessions (sessionId : SessionId) (f : KeyedTable.RowMap SessionRow.sessionId) :
    SessionTables × Nat :=
  ({ t with sessions := t.sessions.update (·.sessionId = sessionId) f },
    (t.sessions.select (·.sessionId = sessionId)).length)

/-- `UPDATE admitted_inputs`, with the number of changed rows. -/
def updateInputs (p : InputRow → Bool) (f : KeyedTable.RowMap InputRow.key) :
    Except StoreError (SessionTables × Nat) :=
  if (t.inputs.select p).all fun row => t.inputAllowed (f.apply row) then
    .ok ({ t with inputs := t.inputs.update p f }, (t.inputs.select p).length)
  else .error constraintViolation

/-- `UPDATE provider_attempts`, with the number of changed rows. -/
def updateAttempts (p : AttemptRow → Bool) (f : KeyedTable.RowMap AttemptRow.attemptId) :
    Except StoreError (SessionTables × Nat) :=
  if (t.attempts.select p).all fun row => t.attemptAllowed (f.apply row) then
    .ok ({ t with attempts := t.attempts.update p f }, (t.attempts.select p).length)
  else .error constraintViolation

/-- `UPDATE transcript_messages`, with the number of changed rows. -/
def updateMessages (p : MessageRow → Bool) (f : KeyedTable.RowMap MessageRow.key) :
    Except StoreError (SessionTables × Nat) :=
  if (t.messages.select p).all fun row => t.messageAllowed (f.apply row) then
    .ok ({ t with messages := t.messages.update p f }, (t.messages.select p).length)
  else .error constraintViolation

end SessionTables

end AutoHarness
