import AutoHarness.SessionReplay

namespace AutoHarness

open KeyedTable (alter RowMap)
open FallibleRun (bind_eq_ok_iff)

theorem AttemptBindingState.allows_ne_zero {state : AttemptBindingState} {runTurn : UInt32}
    (h : state.allows runTurn = true) : runTurn ≠ 0 := by
  intro zero
  simp only [AttemptBindingState.allows, Option.any_eq_true, Bool.and_eq_true,
    decide_eq_true_eq] at h
  obtain ⟨expected, next, ⟨-, same⟩, -⟩ := h
  have value := checkedSucc_eq_some_iff.mp next
  rw [same, zero] at value
  simp at value

namespace SessionTables

variable {t u : SessionTables} {v : SessionView} {mode : ProjectionMode} {event : EventEnvelope}
  {past future : List EventEnvelope} {restI : List InputRow} {restA : List AttemptRow}

section Stream

theorem stream_eq_eventsOf {sessionId : SessionId}
    (ordered : (t.eventsOf sessionId).Pairwise fun a b => a.sequence.get < b.sequence.get) :
    t.stream sessionId = t.eventsOf sessionId := by
  refine List.mergeSort_of_pairwise (ordered.imp fun before => ?_)
  exact decide_eq_true (Nat.le_of_lt before)

theorem Placed.stream (h : Placed t past event future) :
    t.stream event.sessionId = past ++ event :: future := by
  rw [stream_eq_eventsOf, h.events]
  rw [h.events]
  exact h.ordered

/-- The events before an event are those with a smaller sequence. -/
theorem Placed.before (h : Placed t past event future) :
    ((t.stream event.sessionId).filter fun other => other.sequence.get < event.sequence.get) =
      past := by
  obtain ⟨-, later, across⟩ := List.pairwise_append.mp h.ordered
  have front : (past.filter fun other => other.sequence.get < event.sequence.get) = past :=
    List.filter_eq_self.mpr fun other ho => decide_eq_true (across other ho event (by simp))
  have back : ((event :: future).filter fun other => other.sequence.get < event.sequence.get) =
      [] := by
    refine List.filter_eq_nil_iff.mpr fun other ho before => ?_
    have smaller := of_decide_eq_true before
    rcases List.mem_cons.mp ho with rfl | mem
    · omega
    · have greater := (List.pairwise_cons.mp later).1 other mem
      omega
  rw [h.stream, List.filter_append, front, back, List.append_nil]

theorem Placed.past_mem (h : Placed t past event future) {other : EventEnvelope}
    (ho : other ∈ past) : other ∈ t.events ∧ other.sessionId = event.sessionId := by
  have mem : other ∈ t.eventsOf event.sessionId := by
    rw [h.events]
    exact List.mem_append_left _ ho
  exact Interleaving.mem_project.mp mem

end Stream

section Binding

variable (s : t.Sourced) (m : Mirrors t v event.sessionId restI restA)
include s m

omit m in
theorem requireBindingCausation_eq_ok (he : event ∈ t.events) :
    t.requireBindingCausation event = .ok () := by
  unfold requireBindingCausation
  split
  next commandId caused =>
    refine if_neg fun taken => ?_
    simp only [List.any_eq_true, Bool.and_eq_true, Bool.not_eq_true', decide_eq_true_eq,
      decide_eq_false_iff_not] at taken
    obtain ⟨other, ho, command, different⟩ := taken
    have own : event.causingCommand? = some commandId := by
      rw [EventEnvelope.causingCommand?, caused]
    have same := s.ledger.command other ho event he (by rw [command]; rfl) (command.trans own.symm)
    exact different (congrArg EventEnvelope.eventId same)
  next causeId caused =>
    obtain ⟨cause, hc, rfl, session, before⟩ := s.ledger.cause event he causeId caused
    refine if_pos ?_
    rw [KeyedTable.find?_eq_some_iff.mpr ⟨hc, rfl⟩]
    simp [session, before]

theorem validateBindingBoundary_eq_ok (turn : ContextTurnKey)
    (placed : Placed t past event future) (own : turn.sessionId = event.sessionId)
    (flight : v.InFlight turn.attemptId)
    (allows : (AttemptBindingState.ofEvents turn.attemptId past).allows turn.runTurn = true) :
    t.validateBindingBoundary event turn = .ok () := by
  obtain ⟨row, hr, attempt, state⟩ := flight
  have loaded : t.loadAttemptBindingState turn.sessionId turn.attemptId event.sequence.get =
      .ok (.ofEvents turn.attemptId past) := by
    rw [loadAttemptBindingState, ← attempt, m.find?_attempt hr, own, placed.before]
    simp [(m.mem_attempt hr).2, state]
  rw [validateBindingBoundary, loaded, FallibleRun.ok_bind, if_pos allows]
  exact requireBindingCausation_eq_ok s placed.mem

theorem applyContextTurnBinding_writes {attemptId : AttemptId} {runTurn : UInt32}
    {contextTurnId : ContextTurnId} {manifestHash : Sha256Digest}
    (payload : event.payload = .contextTurnBound attemptId runTurn contextTurnId manifestHash)
    (placed : Placed t past event future)
    (stored : t.contextTurns.find? contextTurnId =
      some ⟨event.sessionId, attemptId, runTurn, contextTurnId, manifestHash⟩)
    (flight : v.InFlight attemptId)
    (allows : (AttemptBindingState.ofEvents attemptId past).allows runTurn = true)
    (fresh : ∀ row ∈ v.bindings, row.contextTurnId ≠ contextTurnId) :
    Writes t (t.applyContextTurnBinding event attemptId runTurn contextTurnId manifestHash)
      (v.bindTurn event ⟨event.sessionId, attemptId, runTurn, contextTurnId, manifestHash⟩)
      event.sessionId restI restA := by
  have valid := validateBindingBoundary_eq_ok s m
    ⟨event.sessionId, attemptId, runTurn, contextTurnId, manifestHash⟩ placed rfl
    flight allows
  have ready : t.hasAttempt event.sessionId attemptId = true := by
    obtain ⟨row, hr, attempt, -⟩ := flight
    obtain ⟨mem, session⟩ := m.mem_attempt hr
    exact hasAttempt_iff.mpr ⟨row, mem, attempt, session⟩
  have written := insertBinding_writes ⟨contextTurnId, event.sessionId, attemptId, runTurn,
      event.eventId, manifestHash, event.occurredAt⟩ s m
    ⟨(KeyedTable.find?_eq_some_iff.mp stored).1, event, placed.mem, rfl, rfl, payload⟩
    (AttemptBindingState.allows_ne_zero allows) ready fresh
  obtain ⟨u, hu, su, mu, framed⟩ := written
  refine ⟨u, ?_, su, mu, framed⟩
  refine (if_pos stored).trans ?_
  exact bind_eq_ok_iff.mpr ⟨(), valid, hu⟩

theorem validateRunTurnBinding_writes {attemptId : AttemptId} {turn : UInt32}
    (placed : Placed t past event future)
    (bound : ∃ row ∈ v.bindings, row.attemptId = attemptId ∧ row.runTurn = turn ∧
      ∃ other ∈ past, other.eventId = row.boundEventId ∧
        other.sequence.get = event.sequence.get - 1) :
    Writes t (t.validateRunTurnBinding event attemptId turn) v event.sessionId restI restA := by
  refine ⟨t, ?_, s, m, Framed.refl t _⟩
  obtain ⟨row, hr, attempt, turn, other, ho, source, previous⟩ := bound
  obtain ⟨mem, session⟩ := m.mem_binding_iff.mp hr
  obtain ⟨mem', session'⟩ := placed.past_mem ho
  refine if_pos (List.any_eq_true.mpr ⟨row, mem, ?_⟩)
  rw [KeyedTable.find?_eq_some_iff.mpr ⟨mem', source⟩]
  simp [session, attempt, turn, session', previous]

end Binding

/-- An admissible event is projected, live and in a rebuild. -/
theorem applyProjection_writes (s : t.Sourced) (m : Mirrors t v event.sessionId restI restA)
    (placed : Placed t past event future) (waiting : Waiting mode (event :: future) restI restA)
    (fresh : mode = .append → t.NewKeys event) (admits : v.Admits t.contextTurns past event)
    (opened : mode = .append → event.payload = .sessionCreated →
      v.setHeader (SessionRow.setCreated event) = v) :
    ∃ restI' restA', Writes t (t.applyProjection mode event) (v.apply event) event.sessionId
      restI' restA' ∧ Waiting mode future restI' restA' := by
  have he := placed.mem
  have other (input : StreamScan.admittedInput? event = none)
      (attempt : event.preparedAttempt? = none)
      (h : Writes t (t.applyProjection mode event) (v.apply event) event.sessionId restI restA) :
      ∃ restI' restA', Writes t (t.applyProjection mode event) (v.apply event) event.sessionId
        restI' restA' ∧ Waiting mode future restI' restA' :=
    ⟨restI, restA, h, waiting.of_other input attempt⟩
  have checked {row : AttemptRow} (hr : row ∈ v.attempts) : row.check = true :=
    (s.attempts row (m.mem_attempt hr).1).check
  unfold SessionView.Admits at admits
  unfold applyProjection SessionView.apply at other ⊢
  cases payload : event.payload <;>
    simp only [payload, StreamScan.admittedInput?, EventEnvelope.preparedAttempt?,
      EventPayload.preparedAttempt?, forall_const] at admits other ⊢
  case sessionCreated =>
    cases mode with
    | append =>
      refine other ⟨t, rfl, s, ?_, Framed.refl t _⟩
      rw [opened rfl payload]
      exact m
    | rebuild => exact other (updateHeader_writes s m)
  case sessionRenamed | sessionArchived | sessionUnarchived | modelSelected =>
    exact other (updateHeader_writes s m)
  case inputAdmitted inputId prompt deliveryMode =>
    obtain ⟨restI', h⟩ := admitInput_writes s m payload he admits.1 admits.2 waiting fresh
    exact ⟨restI', restA, h⟩
  case attemptPrepared attemptId inputId model retryOf =>
    obtain ⟨restA', h⟩ := prepareAttempt_writes s m payload he admits.1 admits.2 waiting fresh
    exact ⟨restI, restA', h⟩
  case attemptStarted attemptId =>
    obtain ⟨row, hr, rfl, state⟩ := admits
    exact other (changeAttempt_writes s m he hr (decide_eq_true state) (start_edit payload)
      (start_check (checked hr) state))
  case attemptTextAppended attemptId text =>
    obtain ⟨flight, before, new, streaming⟩ := admits
    exact other (appendText_writes s m payload he flight before new streaming)
  case attemptUsageRecorded attemptId usage =>
    obtain ⟨row, hr, rfl, state⟩ := admits
    exact other (changeAttempt_writes s m he hr (decide_eq_true state) (recordUsage_edit payload)
      (recordUsage_check (checked hr)))
  case attemptCancellationRequested attemptId =>
    obtain ⟨row, hr, rfl, state, unasked⟩ := admits
    exact other (changeAttempt_writes s m he hr (by simp [state, unasked])
      (requestCancellation_edit payload) (requestCancellation_check (checked hr)))
  case attemptCompleted | attemptFailed | attemptCancelled | attemptMarkedUnknown =>
    exact other (settleAttempt_writes s m rfl rfl (by rw [payload]; rfl) he admits)
  case contextTurnBound attemptId runTurn contextTurnId manifestHash =>
    obtain ⟨stored, flight, allows, new⟩ := admits
    exact other (applyContextTurnBinding_writes s m payload placed stored flight allows new)
  case runTurnStarted attemptId turn =>
    exact other (validateRunTurnBinding_writes s m placed admits)
  all_goals exact other ⟨t, rfl, s, m, Framed.refl t _⟩

theorem projectEvent_writes (mode : ProjectionMode) (s : t.Sourced) (m : Mirrors t v event.sessionId restI restA)
    (placed : Placed t past event future) (waiting : Waiting mode (event :: future) restI restA)
    (fresh : mode = .append → t.NewKeys event) (admits : v.Admits t.contextTurns past event)
    (opened : mode = .append → event.payload = .sessionCreated →
      v.setHeader (SessionRow.setCreated event) = v) :
    ∃ restI' restA', Writes t (t.projectEvent mode event) (v.step event) event.sessionId
      restI' restA' ∧ Waiting mode future restI' restA' := by
  obtain ⟨restI', restA', written, rest⟩ := applyProjection_writes s m placed waiting fresh admits
    opened
  refine ⟨restI', restA', written.bind fun u su mu _ => ?_, rest⟩
  exact updateSessions_writes su mu

end SessionTables

end AutoHarness
