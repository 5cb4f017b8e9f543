import AutoHarness.SessionEffect

namespace AutoHarness

open KeyedTable (alter RowMap)
open FallibleRun (bind_eq_ok_iff)

namespace SessionTables

variable {t u : SessionTables} {v : SessionView} {event : EventEnvelope}
  {past future : List EventEnvelope} {restI : List InputRow} {restA : List AttemptRow}

section Inversion

theorem insertInput_eq_ok {row : InputRow} (h : t.insertInput row = .ok u) :
    ∃ inputs, t.inputs.insert? row = some inputs ∧ u = { t with inputs } := by
  unfold insertInput at h
  split at h
  next inputs inserted =>
    split at h
    · exact ⟨inputs, inserted, (Except.ok.inj h).symm⟩
    · cases h
  next => cases h

theorem insertMessage_eq_ok {row : MessageRow} (h : t.insertMessage row = .ok u) :
    ∃ messages, t.messages.insert? row = some messages ∧ u = { t with messages } := by
  unfold insertMessage at h
  split at h
  next messages inserted =>
    split at h
    · exact ⟨messages, inserted, (Except.ok.inj h).symm⟩
    · cases h
  next => cases h

theorem insertSegment_eq_ok {row : SegmentRow} (h : t.insertSegment row = .ok u) :
    ∀ other ∈ t.segments, other.sourceEventId ≠ row.sourceEventId := by
  unfold insertSegment at h
  split at h
  next segments inserted =>
    split at h
    next allowed =>
      intro other ho
      simp only [segmentAllowed, Bool.and_eq_true, List.all_eq_true, Bool.or_eq_true,
        decide_eq_true_eq, Bool.not_eq_true', decide_eq_false_iff_not] at allowed
      have different := (KeyedTable.insert?_eq_some inserted).2 other ho
      exact (allowed.2 other ho).resolve_left different
    next => cases h
  next => cases h

theorem insertBinding_eq_ok {row : ContextTurnBindingRow} (h : t.insertBinding row = .ok u) :
    ∀ other ∈ t.bindings, other.contextTurnId ≠ row.contextTurnId := by
  unfold insertBinding at h
  split at h
  next bindings inserted => exact (KeyedTable.insert?_eq_some inserted).2
  next => cases h

theorem requireTransition_eq_ok {mode : ProjectionMode} {changed : SessionTables × Nat}
    (h : requireTransition mode changed = .ok u) : changed.2 = 1 ∧ u = changed.1 := by
  unfold requireTransition at h
  split at h
  next one => exact ⟨one, (Except.ok.inj h).symm⟩
  next => cases h

theorem select_of_length_one {κ ρ : Type} {key : ρ → κ} {table : KeyedTable key} {p : ρ → Bool}
    (h : (table.select p).length = 1) : ∃ row ∈ table, p row = true := by
  obtain ⟨row, hr⟩ := List.length_eq_one_iff.mp h
  have mem : row ∈ table.select p := by simp [hr]
  exact ⟨row, KeyedTable.mem_select.mp mem⟩

theorem updateInputs_eq_ok {p : InputRow → Bool} {f : RowMap InputRow.key}
    {changed : SessionTables × Nat} (h : t.updateInputs p f = .ok changed) :
    changed.2 = (t.inputs.select p).length := by
  unfold updateInputs at h
  split at h
  · rw [← Except.ok.inj h]
  · cases h

theorem updateAttempts_eq_ok {p : AttemptRow → Bool} {f : RowMap AttemptRow.attemptId}
    {changed : SessionTables × Nat} (h : t.updateAttempts p f = .ok changed) :
    changed.2 = (t.attempts.select p).length ∧
      changed.1 = { t with attempts := t.attempts.update p f } := by
  unfold updateAttempts at h
  split at h
  · rw [← Except.ok.inj h]
    exact ⟨rfl, rfl⟩
  · cases h

theorem updateMessages_eq_ok {p : MessageRow → Bool} {f : RowMap MessageRow.key}
    {changed : SessionTables × Nat} (h : t.updateMessages p f = .ok changed) :
    changed = ({ t with messages := t.messages.update p f }, (t.messages.select p).length) ∧
      ∀ row ∈ t.messages, p row = true → (f.apply row).check = true := by
  unfold updateMessages at h
  split at h
  next allowed =>
    refine ⟨(Except.ok.inj h).symm, fun row hr hp => ?_⟩
    have fits := List.all_eq_true.mp allowed row (KeyedTable.mem_select.mpr ⟨hr, hp⟩)
    simp only [messageAllowed, Bool.and_eq_true] at fits
    exact fits.1.1
  next => cases h

theorem changeAttempt_eq_ok {mode : ProjectionMode} {attemptId : AttemptId}
    {p : AttemptRow → Bool} {f : RowMap AttemptRow.attemptId}
    (h : t.changeAttempt mode event attemptId p f = .ok u) :
    (∃ row ∈ t.attempts, row.sessionId = event.sessionId ∧ row.attemptId = attemptId ∧
        p row = true) ∧
      u = { t with attempts := t.attempts.update (AttemptRow.isAt event attemptId p) f } := by
  obtain ⟨changed, updated, required⟩ := bind_eq_ok_iff.mp h
  obtain ⟨count, tables⟩ := updateAttempts_eq_ok updated
  obtain ⟨one, rfl⟩ := requireTransition_eq_ok required
  obtain ⟨row, hr, selected⟩ := select_of_length_one (count.symm.trans one)
  simp only [AttemptRow.isAt, Bool.and_eq_true, decide_eq_true_eq] at selected
  exact ⟨⟨row, hr, selected.1.1, selected.1.2, selected.2⟩, tables⟩

end Inversion

theorem Mirrors.mem_attempt_iff (m : Mirrors t v event.sessionId [] []) {row : AttemptRow} :
    row ∈ v.attempts ↔ row ∈ t.attempts ∧ row.sessionId = event.sessionId := by
  have rows := m.attempts
  rw [List.append_nil] at rows
  rw [← rows]
  exact Interleaving.mem_project

theorem Mirrors.mem_input_iff (m : Mirrors t v event.sessionId [] []) {row : InputRow} :
    row ∈ v.inputs ↔ row ∈ t.inputs ∧ row.sessionId = event.sessionId := by
  have rows := m.inputs
  rw [List.append_nil] at rows
  rw [← rows]
  exact Interleaving.mem_project

section Kinds

variable (m : Mirrors t v event.sessionId [] [])
include m

theorem admitInput_admits {inputId : InputId} {prompt : PromptText} {deliveryMode : DeliveryMode}
    (h : t.admitInput .append event inputId prompt deliveryMode = .ok u) :
    (∀ row ∈ t.inputs, row.key ≠ (event.sessionId, inputId)) ∧
      (∀ row ∈ v.messages, row.source ≠ .input inputId) ∧ v.NewText event := by
  obtain ⟨admitted, written, h⟩ := bind_eq_ok_iff.mp h
  obtain ⟨opened, message, segment⟩ := bind_eq_ok_iff.mp h
  unfold writeInput at written
  split at written
  next => cases written
  next absent =>
    obtain ⟨inputs, inserted, rfl⟩ := insertInput_eq_ok written
    obtain ⟨messages, first, rfl⟩ := insertMessage_eq_ok message
    refine ⟨(KeyedTable.insert?_eq_some inserted).2, fun row hr same => ?_, fun row hr => ?_⟩
    · obtain ⟨mem, session⟩ := m.mem_message_iff.mp hr
      exact (KeyedTable.insert?_eq_some first).2 row mem (Prod.ext session same)
    · exact insertSegment_eq_ok segment row (m.mem_segment_iff.mp hr).1

theorem prepareAttempt_admits {row : AttemptRow}
    (h : t.prepareAttempt .append event row = .ok u) :
    (∀ other ∈ t.attempts, other.attemptId ≠ row.attemptId) ∧
      (∃ input ∈ v.inputs, input.inputId = row.inputId) ∧
      ∀ priorId, row.retryOf = some priorId →
        ∃ prior ∈ v.attempts, prior.attemptId = priorId ∧ prior.state.isSettled = true := by
  unfold prepareAttempt at h
  dsimp only at h
  split at h
  next => cases h
  next free =>
    simp only [decide_true, Bool.and_true, Bool.not_eq_true, Option.isSome_eq_false_iff,
      Option.isNone_iff_eq_none] at free
    obtain ⟨⟨⟩, retried, h⟩ := bind_eq_ok_iff.mp h
    obtain ⟨promoted, promotion, -⟩ := bind_eq_ok_iff.mp h
    refine ⟨KeyedTable.find?_eq_none_iff.mp free, ?_, fun priorId hp => ?_⟩
    · obtain ⟨changed, updated, required⟩ := bind_eq_ok_iff.mp promotion
      obtain ⟨input, hi, key⟩ := select_of_length_one
        ((updateInputs_eq_ok updated).symm.trans (requireTransition_eq_ok required).1)
      have parts := Prod.ext_iff.mp (of_decide_eq_true key)
      exact ⟨input, m.mem_input_iff.mpr ⟨hi, parts.1⟩, parts.2⟩
    · unfold requireRetry at retried
      split at retried
      next settled =>
        rw [Option.all_eq_true] at settled
        obtain ⟨prior, found, fits⟩ := Option.any_eq_true _ _ |>.mp (settled priorId hp)
        simp only [Bool.and_eq_true, decide_eq_true_eq] at fits
        obtain ⟨mem, key⟩ := KeyedTable.find?_eq_some_iff.mp found
        exact ⟨prior, m.mem_attempt_iff.mpr ⟨mem, fits.1⟩, key, fits.2⟩
      next => cases retried

theorem changeAttempt_admits {mode : ProjectionMode} {attemptId : AttemptId}
    {p : AttemptRow → Bool} {f : RowMap AttemptRow.attemptId}
    (h : t.changeAttempt mode event attemptId p f = .ok u) :
    ∃ row ∈ v.attempts, row.attemptId = attemptId ∧ p row = true := by
  obtain ⟨⟨row, hr, session, own, hp⟩, -⟩ := changeAttempt_eq_ok h
  exact ⟨row, m.mem_attempt_iff.mpr ⟨hr, session⟩, own, hp⟩

theorem requireAttemptInFlight_admits {mode : ProjectionMode} {attemptId : AttemptId}
    (h : t.requireAttemptInFlight mode event attemptId = .ok ()) : v.InFlight attemptId := by
  unfold requireAttemptInFlight at h
  split at h
  next flight =>
    obtain ⟨row, found, fits⟩ := Option.any_eq_true _ _ |>.mp flight
    simp only [Bool.and_eq_true, decide_eq_true_eq] at fits
    obtain ⟨mem, key⟩ := KeyedTable.find?_eq_some_iff.mp found
    exact ⟨row, m.mem_attempt_iff.mpr ⟨mem, fits.1⟩, key, fits.2⟩
  next => cases h

theorem writeMessage_admits {mode : ProjectionMode} {attemptId : AttemptId}
    (h : t.writeMessage mode event attemptId = .ok u) :
    v.MessageBefore event attemptId ∧
      (∀ row ∈ v.messages, row.source = .attempt attemptId → row.state = .streaming) ∧
      u.segments = t.segments := by
  unfold writeMessage at h
  split at h
  next found =>
    obtain ⟨changed, updated, required⟩ := bind_eq_ok_iff.mp h
    obtain ⟨rfl, checks⟩ := updateMessages_eq_ok updated
    obtain ⟨one, rfl⟩ := requireTransition_eq_ok required
    obtain ⟨row, hr, selected⟩ := select_of_length_one one
    have fits := selected
    simp only [MessageRow.isAt, Bool.and_eq_true, decide_eq_true_eq] at fits
    have only (other : MessageRow) (ho : other ∈ v.messages)
        (source : other.source = .attempt attemptId) : other = row := by
      obtain ⟨mem, session⟩ := m.mem_message_iff.mp ho
      exact KeyedTable.eq_of_key mem hr ((Prod.ext session source).trans fits.1.symm)
    refine ⟨fun other ho source => ?_, fun other ho source => ?_, rfl⟩
    · rw [only other ho source]
      exact of_decide_eq_true (checks row hr selected)
    · rw [only other ho source]
      exact fits.2
  next absent =>
    rw [Bool.not_eq_true, Option.isSome_eq_false_iff, Option.isNone_iff_eq_none] at absent
    have none (other : MessageRow) (ho : other ∈ v.messages)
        (source : other.source = .attempt attemptId) : False := by
      obtain ⟨mem, session⟩ := m.mem_message_iff.mp ho
      exact KeyedTable.find?_eq_none_iff.mp absent other mem (Prod.ext session source)
    obtain ⟨messages, -, rfl⟩ := insertMessage_eq_ok h
    exact ⟨fun other ho source => (none other ho source).elim,
      fun other ho source => (none other ho source).elim, rfl⟩

theorem appendText_admits {mode : ProjectionMode} {attemptId : AttemptId} {text : ResponseText}
    (h : t.appendText mode event attemptId text = .ok u) :
    v.InFlight attemptId ∧ v.MessageBefore event attemptId ∧ v.NewText event ∧
      ∀ row ∈ v.messages, row.source = .attempt attemptId → row.state = .streaming := by
  obtain ⟨⟨⟩, flight, h⟩ := bind_eq_ok_iff.mp h
  obtain ⟨extended, message, segment⟩ := bind_eq_ok_iff.mp h
  obtain ⟨before, streaming, same⟩ := writeMessage_admits m message
  refine ⟨requireAttemptInFlight_admits m flight, before, fun row hr => ?_, streaming⟩
  refine insertSegment_eq_ok segment row ?_
  rw [same]
  exact (m.mem_segment_iff.mp hr).1

theorem settleAttempt_admits {mode : ProjectionMode} {attemptId : AttemptId}
    {state : AttemptState} {failure : Option AttemptFailure}
    (h : t.settleAttempt mode event attemptId state failure = .ok u) :
    v.Settles event attemptId state := by
  obtain ⟨settled, changed, h⟩ := bind_eq_ok_iff.mp h
  obtain ⟨closed, updated, -⟩ := bind_eq_ok_iff.mp h
  refine ⟨changeAttempt_admits m changed, fun row hr source => ?_⟩
  obtain ⟨mem, session⟩ := m.mem_message_iff.mp hr
  obtain ⟨-, rfl⟩ := changeAttempt_eq_ok changed
  obtain ⟨-, checks⟩ := updateMessages_eq_ok updated
  have selected : MessageRow.isAt event attemptId (fun _ => true) row = true := by
    simp [MessageRow.isAt, MessageRow.key, session, source]
  exact of_decide_eq_true (checks row mem selected)

theorem applyContextTurnBinding_admits {attemptId : AttemptId} {runTurn : UInt32}
    {contextTurnId : ContextTurnId} {manifestHash : Sha256Digest}
    (placed : Placed t past event future)
    (h : t.applyContextTurnBinding event attemptId runTurn contextTurnId manifestHash = .ok u) :
    t.contextTurns.find? contextTurnId =
        some ⟨event.sessionId, attemptId, runTurn, contextTurnId, manifestHash⟩ ∧
      v.InFlight attemptId ∧ (AttemptBindingState.ofEvents attemptId past).allows runTurn = true ∧
      ∀ row ∈ v.bindings, row.contextTurnId ≠ contextTurnId := by
  unfold applyContextTurnBinding at h
  dsimp only at h
  split at h
  next stored =>
    obtain ⟨⟨⟩, valid, inserted⟩ := bind_eq_ok_iff.mp h
    obtain ⟨state, loaded, boundary⟩ := bind_eq_ok_iff.mp valid
    dsimp only at loaded boundary
    unfold loadAttemptBindingState at loaded
    split at loaded
    next flight =>
      rw [placed.before] at loaded
      cases Except.ok.inj loaded
      split at boundary
      next allows =>
        obtain ⟨row, found, fits⟩ := Option.any_eq_true _ _ |>.mp flight
        simp only [Bool.and_eq_true, decide_eq_true_eq] at fits
        obtain ⟨mem, key⟩ := KeyedTable.find?_eq_some_iff.mp found
        refine ⟨stored, ⟨row, m.mem_attempt_iff.mpr ⟨mem, fits.1⟩, key, fits.2⟩, allows, ?_⟩
        exact fun other ho => insertBinding_eq_ok inserted other (m.mem_binding_iff.mp ho).1
      next => cases boundary
    next => cases loaded
  next => cases h

theorem validateRunTurnBinding_admits {attemptId : AttemptId} {turn : UInt32}
    (placed : Placed t past event future)
    (h : t.validateRunTurnBinding event attemptId turn = .ok u) :
    ∃ row ∈ v.bindings, row.attemptId = attemptId ∧ row.runTurn = turn ∧
      ∃ bound ∈ past, bound.eventId = row.boundEventId ∧
        bound.sequence.get = event.sequence.get - 1 := by
  unfold validateRunTurnBinding at h
  split at h
  next found =>
    obtain ⟨row, hr, fits⟩ := List.any_eq_true.mp found
    simp only [Bool.and_eq_true, decide_eq_true_eq, Option.any_eq_true] at fits
    obtain ⟨⟨⟨session, attempt⟩, turn⟩, bound, source, session', previous⟩ := fits
    obtain ⟨mem, key⟩ := KeyedTable.find?_eq_some_iff.mp source
    refine ⟨row, m.mem_binding_iff.mpr ⟨hr, session⟩, attempt, turn, bound, ?_, key, previous⟩
    have positive := event.sequence.positive
    have stream : bound ∈ past ++ event :: future := by
      rw [← placed.events]
      exact Interleaving.mem_project.mpr ⟨mem, session'⟩
    rw [← placed.before, List.mem_filter, placed.stream]
    exact ⟨stream, decide_eq_true (by omega)⟩
  next => cases h

/-- What the live projection accepts is admissible, and its keys were free. -/
theorem applyProjection_admits (placed : Placed t past event future)
    (h : t.applyProjection .append event = .ok u) :
    v.Admits t.contextTurns past event ∧ t.NewKeys event := by
  have other (input : StreamScan.admittedInput? event = none)
      (attempt : event.preparedAttempt? = none) : t.NewKeys event := by
    refine ⟨fun inputId hi => ?_, fun attemptId ha => ?_⟩
    · rw [input] at hi
      cases hi
    · rw [attempt] at ha
      cases ha
  unfold applyProjection at h
  unfold SessionView.Admits
  cases payload : event.payload <;>
    simp only [payload, StreamScan.admittedInput?, EventEnvelope.preparedAttempt?,
      EventPayload.preparedAttempt?, forall_const] at h other ⊢
  case inputAdmitted inputId prompt deliveryMode =>
    obtain ⟨free, admits⟩ := admitInput_admits m h
    refine ⟨admits, fun id hi => ?_, fun id ha => ?_⟩
    · rw [StreamScan.admittedInput?, payload] at hi
      cases Option.some.inj hi
      exact free
    · rw [EventEnvelope.preparedAttempt?, payload] at ha
      cases ha
  case attemptPrepared attemptId inputId model retryOf =>
    obtain ⟨free, admits⟩ := prepareAttempt_admits m h
    refine ⟨admits, fun id hi => ?_, fun id ha => ?_⟩
    · rw [StreamScan.admittedInput?, payload] at hi
      cases hi
    · rw [EventEnvelope.preparedAttempt?, payload] at ha
      cases Option.some.inj ha
      exact free
  case attemptStarted attemptId =>
    obtain ⟨row, hr, own, state⟩ := changeAttempt_admits m h
    exact ⟨⟨row, hr, own, of_decide_eq_true state⟩, other⟩
  case attemptTextAppended attemptId text => exact ⟨appendText_admits m h, other⟩
  case attemptUsageRecorded attemptId usage =>
    obtain ⟨row, hr, own, state⟩ := changeAttempt_admits m h
    exact ⟨⟨row, hr, own, of_decide_eq_true state⟩, other⟩
  case attemptCancellationRequested attemptId =>
    obtain ⟨row, hr, own, state⟩ := changeAttempt_admits m h
    simp only [Bool.and_eq_true, decide_eq_true_eq, Option.isNone_iff_eq_none] at state
    exact ⟨⟨row, hr, own, state⟩, other⟩
  case attemptCompleted | attemptFailed | attemptCancelled | attemptMarkedUnknown =>
    exact ⟨settleAttempt_admits m h, other⟩
  case contextTurnBound attemptId runTurn contextTurnId manifestHash =>
    exact ⟨applyContextTurnBinding_admits m placed h, other⟩
  case runTurnStarted attemptId turn => exact ⟨validateRunTurnBinding_admits m placed h, other⟩
  all_goals exact ⟨trivial, other⟩

end Kinds

end SessionTables

end AutoHarness
