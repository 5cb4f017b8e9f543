import AutoHarness.SqliteSessions

namespace AutoHarness

/-- The event that binds a turn to its session. -/
def ContextTurnKey.boundPayload (turn : ContextTurnKey) : EventPayload :=
  .contextTurnBound turn.attemptId turn.runTurn turn.contextTurnId turn.manifestHash

/-- The row that the binding of a turn leaves. -/
def ContextTurnKey.bindingRow (turn : ContextTurnKey) (event : EventEnvelope) :
    ContextTurnBindingRow :=
  ⟨turn.contextTurnId, turn.sessionId, turn.attemptId, turn.runTurn, event.eventId,
    turn.manifestHash, event.occurredAt⟩

namespace SessionTables

variable (t : SessionTables) (turn : ContextTurnKey)

def bindSessionWorkspace (workspaceId : WorkspaceId) : Except StoreError SessionTables :=
  match t.sessions.find? turn.sessionId with
  | none => .error .invalidContextTransition
  | some row =>
    match row.workspaceId with
    | some existing => if existing = workspaceId then .ok t else .error .invalidContextTransition
    | none => .ok (t.updateSessions turn.sessionId (SessionRow.bindWorkspace workspaceId)).1

/-- A staged turn that was never bound makes room for another turn of its attempt. -/
def reconcileUnboundTurnConflict : Except StoreError SessionTables :=
  match t.contextTurns.rows.find? fun other => other.turnKey = turn.turnKey with
  | none => .ok t
  | some other =>
    if other.contextTurnId = turn.contextTurnId then .ok t
    else if (t.bindings.find? other.contextTurnId).isSome then
      .error (.identityConflict .contextTurn)
    else .ok { t with
      contextTurns := t.contextTurns.delete fun row => row.contextTurnId = other.contextTurnId
      turnsDistinct := t.turnsDistinct.sublist (List.filter_sublist.map _) }

/-- The turns with one more, where no key of theirs is taken. -/
def insertTurn? : Option SessionTables :=
  if fresh : turn.contextTurnId ∉ t.contextTurns.rows.map ContextTurnKey.contextTurnId ∧
      turn.turnKey ∉ t.contextTurns.rows.map ContextTurnKey.turnKey then
    some { t with
      contextTurns := ⟨t.contextTurns.rows ++ [turn], by
        rw [List.map_append]
        exact List.Nodup.append t.contextTurns.distinct (by simp) (by simpa using fresh.1)⟩
      turnsDistinct := by
        rw [List.map_append]
        exact List.Nodup.append t.turnsDistinct (by simp) (by simpa using fresh.2) }
  else none

/-- `commit_context_turn`, as far as it concerns the key columns of the turn. -/
def commitContextTurn : Except StoreError SessionTables :=
  match t.contextTurns.find? turn.contextTurnId with
  | some existing =>
    if existing = turn then .ok t else .error (.identityConflict .contextTurn)
  | none =>
    if turn.runTurn ≠ 0 ∧ t.hasAttempt turn.sessionId turn.attemptId then
      match t.insertTurn? turn with
      | some inserted => .ok inserted
      | none => .error (.identityConflict .contextTurn)
    else .error .invalidContextTransition

def validateBindingRequest (expectedSequence : Nat) (event : EventEnvelope) :
    Except StoreError Unit :=
  if event.schemaVersion = eventSchemaV1 ∧ event.sessionId = turn.sessionId ∧
      event.sequence.get = expectedSequence + 1 ∧ event.payload = turn.boundPayload then .ok ()
  else .error .invalidContextTransition

/-- The binding event is stored already: its binding is read, or projected again. -/
def confirmBinding (event : EventEnvelope) : Except StoreError SessionTables :=
  match t.bindings.find? turn.contextTurnId with
  | some binding =>
    if binding.sessionId = turn.sessionId ∧ binding.attemptId = turn.attemptId ∧
        binding.runTurn = turn.runTurn ∧ binding.boundEventId = event.eventId ∧
        binding.manifestHash = turn.manifestHash then .ok t
    else .error (.corruptData .contextLedger)
  | none => t.applyContextTurnBinding event turn.attemptId turn.runTurn turn.contextTurnId
      turn.manifestHash

/-- A stored binding event is covered by the version of its session. -/
def requireCovered (event : EventEnvelope) : Except StoreError SessionTables :=
  if t.currentSessionVersion event.sessionId < event.sequence.get then
    .error (.corruptData .contextLedger)
  else .ok t

def bindNewEvent (event : EventEnvelope) : Except StoreError SessionTables := do
  t.validateBindingBoundary event turn
  let inserted ← t.insertEvent event
  inserted.projectEvent .append event

def appendContextBindingEvent (expectedSequence : Nat) (event : EventEnvelope) :
    Except StoreError SessionTables :=
  match t.events.find? event.eventId with
  | some existing =>
    if existing = event then do
      let confirmed ← t.confirmBinding turn event
      confirmed.requireCovered event
    else .error (.identityConflict .event)
  | none =>
    if t.currentSessionVersion turn.sessionId = expectedSequence then t.bindNewEvent turn event
    else .error (.versionConflict turn.sessionId expectedSequence
      (t.currentSessionVersion turn.sessionId))

def commitContextTurnAndBind (expectedSequence : Nat) (workspaceId : WorkspaceId)
    (event : EventEnvelope) : Except StoreError SessionTables := do
  validateBindingRequest turn expectedSequence event
  let bound ← t.bindSessionWorkspace turn workspaceId
  let reconciled ← bound.reconcileUnboundTurnConflict turn
  let stored ← reconciled.commitContextTurn turn
  stored.appendContextBindingEvent turn expectedSequence event

end SessionTables

end AutoHarness
