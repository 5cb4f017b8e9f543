import AutoHarness.SessionAdmission

namespace AutoHarness

open KeyedTable (alter RowMap)
open FallibleRun (bind_eq_ok_iff run)

namespace SessionView

variable {v : SessionView} {event : EventEnvelope} {sessionId : SessionId}
  {workspaceId : Option WorkspaceId} {events : List EventEnvelope}

def setWorkspace (v : SessionView) (workspaceId : Option WorkspaceId) : SessionView :=
  { v with header := { v.header with workspaceId } }

theorem writeMessage_setWorkspace {attemptId : AttemptId} :
    (v.setWorkspace workspaceId).writeMessage event attemptId =
      (v.writeMessage event attemptId).setWorkspace workspaceId := by
  have same : (v.setWorkspace workspaceId).hasMessage (.attempt attemptId) =
      v.hasMessage (.attempt attemptId) := rfl
  unfold writeMessage
  rw [same]
  split <;> rfl

/-- No event touches the workspace of a session. -/
theorem step_setWorkspace : (v.setWorkspace workspaceId).step event =
    (v.step event).setWorkspace workspaceId := by
  unfold step apply
  cases event.payload
  case attemptTextAppended attemptId text =>
    dsimp only
    rw [writeMessage_setWorkspace]
    rfl
  all_goals rfl

theorem ofEvents_workspace (workspaceId workspaceId' : Option WorkspaceId) :
    ofEvents sessionId workspaceId events =
      (ofEvents sessionId workspaceId' events).setWorkspace workspaceId := by
  induction events using List.reverseRecOn with
  | nil => rfl
  | append_singleton events event ih => rw [ofEvents_concat, ofEvents_concat, ih, step_setWorkspace]

theorem step_lastSequence : (v.step event).header.lastSequence = event.sequence.get := rfl

theorem writeMessage_bindings {attemptId : AttemptId} :
    (v.writeMessage event attemptId).bindings = v.bindings := by
  unfold writeMessage
  split <;> rfl

theorem writeMessage_attempts {attemptId : AttemptId} :
    (v.writeMessage event attemptId).attempts = v.attempts := by
  unfold writeMessage
  split <;> rfl

theorem writeMessage_inputs {attemptId : AttemptId} :
    (v.writeMessage event attemptId).inputs = v.inputs := by
  unfold writeMessage
  split <;> rfl

/-- The turn that an event binds. -/
def boundTurn? (event : EventEnvelope) : Option ContextTurnId :=
  match event.payload with
  | .contextTurnBound _ _ contextTurnId _ => some contextTurnId
  | _ => none

theorem step_bindings : (v.step event).bindings.map ContextTurnBindingRow.contextTurnId =
    v.bindings.map ContextTurnBindingRow.contextTurnId ++ (boundTurn? event).toList := by
  change (v.apply event).bindings.map _ = _
  unfold apply boundTurn?
  cases event.payload <;>
    simp [setHeader, admitInput, prepareAttempt, promoteInput, changeAttempt, settleAttempt,
      changeMessage, bindTurn, addText, ContextTurnKey.bindingRow, writeMessage_bindings]

theorem step_attempts : (v.step event).attempts.map AttemptRow.attemptId =
    v.attempts.map AttemptRow.attemptId ++ event.preparedAttempt?.toList := by
  have kept (p : AttemptRow → Bool) (f : RowMap AttemptRow.attemptId) :
      AttemptRow.attemptId ∘ alter p f = AttemptRow.attemptId :=
    funext (KeyedTable.alter_congr f.keeps)
  change (v.apply event).attempts.map _ = _
  unfold apply EventEnvelope.preparedAttempt? EventPayload.preparedAttempt?
  cases event.payload <;>
    simp [setHeader, admitInput, prepareAttempt, promoteInput, changeAttempt, settleAttempt,
      changeMessage, bindTurn, addText, writeMessage_attempts, kept, AttemptRow.prepared]

theorem step_inputs : (v.step event).inputs.map InputRow.inputId =
    v.inputs.map InputRow.inputId ++ (StreamScan.admittedInput? event).toList := by
  have kept (p : InputRow → Bool) : InputRow.inputId ∘ alter p (InputRow.promote event) =
      InputRow.inputId := by
    funext row
    exact congrArg Prod.snd (KeyedTable.alter_congr (InputRow.promote event).keeps row)
  change (v.apply event).inputs.map _ = _
  unfold apply StreamScan.admittedInput?
  cases event.payload <;>
    simp [setHeader, admitInput, prepareAttempt, promoteInput, changeAttempt, settleAttempt,
      changeMessage, bindTurn, addText, writeMessage_inputs, kept, InputRow.admitted]

theorem ofEvents_bindings : (ofEvents sessionId workspaceId events).bindings.map
    ContextTurnBindingRow.contextTurnId = events.filterMap boundTurn? := by
  induction events using List.reverseRecOn with
  | nil => rfl
  | append_singleton events event ih =>
    rw [ofEvents_concat, step_bindings, ih, List.filterMap_append]
    cases h : boundTurn? event <;> simp [h]

theorem ofEvents_attempts : (ofEvents sessionId workspaceId events).attempts.map
    AttemptRow.attemptId = events.filterMap EventEnvelope.preparedAttempt? := by
  induction events using List.reverseRecOn with
  | nil => rfl
  | append_singleton events event ih =>
    rw [ofEvents_concat, step_attempts, ih, List.filterMap_append]
    cases h : event.preparedAttempt? <;> simp [h]

theorem ofEvents_inputs : (ofEvents sessionId workspaceId events).inputs.map
    InputRow.inputId = events.filterMap StreamScan.admittedInput? := by
  induction events using List.reverseRecOn with
  | nil => rfl
  | append_singleton events event ih =>
    rw [ofEvents_concat, step_inputs, ih, List.filterMap_append]
    cases h : StreamScan.admittedInput? event <;> simp [h]

end SessionView

/-- What the scan of a stream has seen. -/
structure StreamScan.Seen (scan : StreamScan) (events : List EventEnvelope) : Prop where
  expected : scan.expected = events.length + 1
  created : scan.created = true ↔ events ≠ []
  inputIds : ∀ inputId, inputId ∈ scan.inputIds ↔
    ∃ event ∈ events, StreamScan.admittedInput? event = some inputId
  eventIds : ∀ eventId, eventId ∈ scan.eventIds ↔ ∃ event ∈ events, event.eventId = eventId
  commandIds : ∀ commandId, commandId ∈ scan.commandIds ↔
    ∃ event ∈ events, event.causingCommand? = some commandId

namespace StreamScan

variable {scan next : StreamScan} {events : List EventEnvelope} {event : EventEnvelope}

/-- The event continues the stream. -/
def Fits (scan : StreamScan) (event : EventEnvelope) : Prop :=
  event.sequence.get = scan.expected ∧ scan.causationSeen event = true ∧
    scan.payloadFits event = true

theorem step_eq_ok_iff : scan.step event = .ok next ↔
    scan.Fits event ∧ next = {
      expected := scan.expected + 1
      created := true
      inputIds := (admittedInput? event).toList ++ scan.inputIds
      eventIds := event.eventId :: scan.eventIds
      commandIds := event.causingCommand?.toList ++ scan.commandIds } := by
  unfold step Fits
  split
  next h => simp [h]
  next h =>
    split
    next bad =>
      simp only [Bool.or_eq_true, Bool.not_eq_true'] at bad
      simp only [reduceCtorEq, false_iff, not_and]
      intro fits
      rcases bad with bad | bad <;> simp [bad] at fits
    next good =>
      simp only [Bool.or_eq_true, Bool.not_eq_true', not_or, Bool.not_eq_false] at good
      simp [not_not.mp h, good, eq_comm]

theorem Seen.step (h : scan.Seen events) (hs : scan.step event = .ok next) :
    next.Seen (events ++ [event]) := by
  obtain ⟨-, rfl⟩ := step_eq_ok_iff.mp hs
  refine ⟨?_, ?_, ?_, ?_, ?_⟩
  · simp [h.expected]
  · simp
  · intro inputId
    simp only [List.mem_append, Option.mem_toList, h.inputIds, List.mem_singleton, or_and_right,
      exists_or, exists_eq_left]
    exact or_comm
  · intro eventId
    simp only [List.mem_cons, List.mem_append, h.eventIds, or_and_right,
      exists_or, exists_eq_left, List.not_mem_nil, or_false]
    rw [or_comm, eq_comm]
  · intro commandId
    simp only [List.mem_append, Option.mem_toList, h.commandIds, List.mem_singleton, or_and_right,
      exists_or, exists_eq_left]
    exact or_comm

theorem seen_initial : initial.Seen [] := by
  refine ⟨rfl, ?_, ?_, ?_, ?_⟩ <;> simp [initial]

theorem seen_of_run (h : run step initial events = .ok scan) : scan.Seen events :=
  FallibleRun.run_history (P := fun events scan => scan.Seen events) seen_initial
    (fun _ _ _ _ _ seen hs => seen.step hs) h

theorem ordered_of_run (h : run step initial events = .ok scan) :
    (events.Pairwise fun a b => a.sequence.get < b.sequence.get) ∧
      ∀ event ∈ events, event.sequence.get < scan.expected := by
  refine FallibleRun.run_history
    (P := fun events scan => (events.Pairwise fun a b => a.sequence.get < b.sequence.get) ∧
      ∀ event ∈ events, event.sequence.get < scan.expected) (by simp) (fun xs m e t _ ih hs => ?_) h
  obtain ⟨⟨sequence, -⟩, rfl⟩ := step_eq_ok_iff.mp hs
  refine ⟨?_, fun event he => ?_⟩
  · refine List.pairwise_append.mpr ⟨ih.1, List.pairwise_singleton _ _, fun a ha b hb => ?_⟩
    rw [List.mem_singleton.mp hb, sequence]
    exact ih.2 a ha
  · rcases List.mem_append.mp he with old | new
    · have before := ih.2 event old
      exact Nat.lt_succ_of_lt before
    · rw [List.mem_singleton.mp new, sequence]
      exact Nat.lt_succ_self _

/-- The version in the header is that of the stream. -/
theorem lastSequence_of_run (sessionId : SessionId) (workspaceId : Option WorkspaceId)
    (h : run step initial events = .ok scan) :
    (SessionView.ofEvents sessionId workspaceId events).header.lastSequence + 1 =
      scan.expected := by
  refine FallibleRun.run_history
    (P := fun events scan => (SessionView.ofEvents sessionId workspaceId events).header.lastSequence
      + 1 = scan.expected) rfl (fun xs m e t _ _ hs => ?_) h
  obtain ⟨⟨sequence, -⟩, rfl⟩ := step_eq_ok_iff.mp hs
  rw [SessionView.ofEvents_concat, SessionView.step_lastSequence, sequence]

end StreamScan

namespace SessionTables

/-- Every event of the stream was admissible at its place. -/
def Admitted (t : SessionTables) (sessionId : SessionId) (events : List EventEnvelope) : Prop :=
  ∀ past event future, events = past ++ event :: future →
    (SessionView.ofEvents sessionId none past).Admits t.contextTurns past event

/-- The stream of a session is complete and its projections are those of its events. -/
structure SessionLive (t : SessionTables) (sessionId : SessionId) : Prop where
  scanned : ∃ scan, run StreamScan.step .initial (t.eventsOf sessionId) = .ok scan
  admitted : t.Admitted sessionId (t.eventsOf sessionId)
  unknown : t.eventsOf sessionId = [] → t.sessions.find? sessionId = none
  mirrored : t.eventsOf sessionId ≠ [] → ∃ workspaceId,
    Mirrors t (.ofEvents sessionId workspaceId (t.eventsOf sessionId)) sessionId [] []

structure Live (t : SessionTables) : Prop where
  sourced : t.Sourced
  schema : ∀ event ∈ t.events, event.schemaVersion = eventSchemaV1
  sessions : ∀ sessionId, t.SessionLive sessionId

end SessionTables

end AutoHarness
