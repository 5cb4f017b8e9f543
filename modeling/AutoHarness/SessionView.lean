import AutoHarness.ContextTurns

namespace AutoHarness

open KeyedTable (alter RowMap)

/-- The rows of one session, as its events alone determine them. -/
structure SessionView where
  header : SessionRow
  inputs : List InputRow
  attempts : List AttemptRow
  messages : List MessageRow
  segments : List SegmentRow
  bindings : List ContextTurnBindingRow

namespace SessionView

def initial (sessionId : SessionId) (workspaceId : Option WorkspaceId) : SessionView where
  header := ⟨sessionId, .active, none, none, 0, ⟨0⟩, ⟨0⟩, workspaceId⟩
  inputs := []
  attempts := []
  messages := []
  segments := []
  bindings := []

section Edits

variable (v : SessionView) (event : EventEnvelope)

def setHeader (f : RowMap SessionRow.sessionId) : SessionView :=
  { v with header := f.apply v.header }

def addText (source : TranscriptSource) (content : String) : SessionView :=
  { v with segments := v.segments ++ [.ofEvent event source content] }

def admitInput (inputId : InputId) (prompt : PromptText) (deliveryMode : DeliveryMode) :
    SessionView :=
  { v with
    inputs := v.inputs ++ [.admitted event inputId prompt deliveryMode]
    messages := v.messages ++ [.first event (.input inputId) .user .complete]
    segments := v.segments ++ [.ofEvent event (.input inputId) prompt.value] }

def promoteInput (inputId : InputId) : SessionView :=
  { v with
    inputs := v.inputs.map
      (alter (fun row => row.key = (event.sessionId, inputId)) (InputRow.promote event)) }

def prepareAttempt (attemptId : AttemptId) (inputId : InputId) (model : ModelRef)
    (retryOf : Option AttemptId) : SessionView :=
  { v.promoteInput event inputId with
    attempts := v.attempts ++ [.prepared event attemptId inputId model retryOf] }

def changeAttempt (attemptId : AttemptId) (p : AttemptRow → Bool)
    (f : RowMap AttemptRow.attemptId) : SessionView :=
  { v with attempts := v.attempts.map (alter (AttemptRow.isAt event attemptId p) f) }

def changeMessage (attemptId : AttemptId) (p : MessageRow → Bool) (f : RowMap MessageRow.key) :
    SessionView :=
  { v with messages := v.messages.map (alter (MessageRow.isAt event attemptId p) f) }

def hasMessage (source : TranscriptSource) : Bool :=
  v.messages.any fun row => row.source = source

/-- The message of the attempt, opened by its first text. -/
def writeMessage (attemptId : AttemptId) : SessionView :=
  if v.hasMessage (.attempt attemptId) then
    v.changeMessage event attemptId (fun row => row.state = .streaming) (MessageRow.extend event)
  else
    { v with messages := v.messages ++ [.first event (.attempt attemptId) .assistant .streaming] }

def settleAttempt (attemptId : AttemptId) (state : AttemptState)
    (failure : Option AttemptFailure) : SessionView :=
  (v.changeAttempt event attemptId state.settles (AttemptRow.settle event state failure))
    |>.changeMessage event attemptId (fun _ => true) (MessageRow.close event state.transcriptState)

def bindTurn (turn : ContextTurnKey) : SessionView :=
  { v with bindings := v.bindings ++ [turn.bindingRow event] }

/-- What the payload of an event does to the rows of its session. -/
def apply : SessionView :=
  match event.payload with
  | .sessionCreated => v.setHeader (SessionRow.setCreated event)
  | .sessionRenamed title => v.setHeader (SessionRow.setTitle title)
  | .sessionArchived => v.setHeader (SessionRow.setStatus .archived)
  | .sessionUnarchived => v.setHeader (SessionRow.setStatus .active)
  | .modelSelected model => v.setHeader (SessionRow.setModel model)
  | .inputAdmitted inputId prompt deliveryMode => v.admitInput event inputId prompt deliveryMode
  | .attemptPrepared attemptId inputId model retryOf =>
    v.prepareAttempt event attemptId inputId model retryOf
  | .attemptStarted attemptId =>
    v.changeAttempt event attemptId (fun row => row.state = .prepared) (AttemptRow.start event)
  | .attemptTextAppended attemptId text =>
    (v.writeMessage event attemptId).addText event (.attempt attemptId) text.value
  | .attemptUsageRecorded attemptId usage =>
    v.changeAttempt event attemptId (fun row => row.state = .inFlight)
      (AttemptRow.recordUsage event usage)
  | .attemptCancellationRequested attemptId =>
    v.changeAttempt event attemptId
      (fun row => row.state = .inFlight && row.cancellationRequestedAt.isNone)
      (AttemptRow.requestCancellation event)
  | .attemptCompleted attemptId => v.settleAttempt event attemptId .completed none
  | .attemptFailed attemptId failure => v.settleAttempt event attemptId .failed (some failure)
  | .attemptCancelled attemptId => v.settleAttempt event attemptId .cancelled none
  | .attemptMarkedUnknown attemptId => v.settleAttempt event attemptId .unknown none
  | .contextTurnBound attemptId runTurn contextTurnId manifestHash =>
    v.bindTurn event ⟨event.sessionId, attemptId, runTurn, contextTurnId, manifestHash⟩
  | _ => v

def step : SessionView := (v.apply event).setHeader (SessionRow.advance event)

end Edits

/-- The rows of a session after its events. -/
def ofEvents (sessionId : SessionId) (workspaceId : Option WorkspaceId)
    (events : List EventEnvelope) : SessionView :=
  events.foldl step (initial sessionId workspaceId)

theorem ofEvents_concat {sessionId : SessionId} {workspaceId : Option WorkspaceId}
    {events : List EventEnvelope} {event : EventEnvelope} :
    ofEvents sessionId workspaceId (events ++ [event]) =
      (ofEvents sessionId workspaceId events).step event := by
  simp [ofEvents]

section Admission

variable (v : SessionView)

def InFlight (attemptId : AttemptId) : Prop :=
  ∃ row ∈ v.attempts, row.attemptId = attemptId ∧ row.state = .inFlight

/-- The message of the attempt did not open after the event. -/
def MessageBefore (event : EventEnvelope) (attemptId : AttemptId) : Prop :=
  ∀ row ∈ v.messages, row.source = .attempt attemptId →
    row.firstSequence.get ≤ event.sequence.get

def Settles (event : EventEnvelope) (attemptId : AttemptId) (state : AttemptState) : Prop :=
  (∃ row ∈ v.attempts, row.attemptId = attemptId ∧ state.settles row = true) ∧
    v.MessageBefore event attemptId

def NewText (event : EventEnvelope) : Prop :=
  ∀ row ∈ v.segments, row.sourceEventId ≠ event.eventId

/-- The conditions on the rows of one session under which the store projects an event, given the
events before it and the context turns. -/
def Admits (turns : KeyedTable ContextTurnKey.contextTurnId) (past : List EventEnvelope)
    (event : EventEnvelope) : Prop :=
  match event.payload with
  | .inputAdmitted inputId _ _ =>
    (∀ row ∈ v.messages, row.source ≠ .input inputId) ∧ v.NewText event
  | .attemptPrepared _ inputId _ retryOf =>
    (∃ row ∈ v.inputs, row.inputId = inputId) ∧ ∀ priorId, retryOf = some priorId →
      ∃ row ∈ v.attempts, row.attemptId = priorId ∧ row.state.isSettled = true
  | .attemptStarted attemptId =>
    ∃ row ∈ v.attempts, row.attemptId = attemptId ∧ row.state = .prepared
  | .attemptTextAppended attemptId _ =>
    v.InFlight attemptId ∧ v.MessageBefore event attemptId ∧ v.NewText event ∧
      ∀ row ∈ v.messages, row.source = .attempt attemptId → row.state = .streaming
  | .attemptUsageRecorded attemptId _ => v.InFlight attemptId
  | .attemptCancellationRequested attemptId =>
    ∃ row ∈ v.attempts, row.attemptId = attemptId ∧ row.state = .inFlight ∧
      row.cancellationRequestedAt = none
  | .attemptCompleted attemptId => v.Settles event attemptId .completed
  | .attemptFailed attemptId _ => v.Settles event attemptId .failed
  | .attemptCancelled attemptId => v.Settles event attemptId .cancelled
  | .attemptMarkedUnknown attemptId => v.Settles event attemptId .unknown
  | .contextTurnBound attemptId runTurn contextTurnId manifestHash =>
    turns.find? contextTurnId =
        some ⟨event.sessionId, attemptId, runTurn, contextTurnId, manifestHash⟩ ∧
      v.InFlight attemptId ∧ (AttemptBindingState.ofEvents attemptId past).allows runTurn = true ∧
      ∀ row ∈ v.bindings, row.contextTurnId ≠ contextTurnId
  | .runTurnStarted attemptId turn =>
    ∃ row ∈ v.bindings, row.attemptId = attemptId ∧ row.runTurn = turn ∧
      ∃ bound ∈ past, bound.eventId = row.boundEventId ∧
        bound.sequence.get = event.sequence.get - 1
  | _ => True

end Admission

end SessionView

end AutoHarness
