import AutoHarness.SessionReads

namespace AutoHarness

open KeyedTable (alter RowMap)

section Projection

variable (event : EventEnvelope)

/-- The rows that an event adds. -/
def EventEnvelope.inputRow? : Option InputRow :=
  match event.payload with
  | .inputAdmitted inputId prompt deliveryMode => some (.admitted event inputId prompt deliveryMode)
  | _ => none

def EventEnvelope.attemptRow? : Option AttemptRow :=
  match event.payload with
  | .attemptPrepared attemptId inputId model retryOf =>
    some (.prepared event attemptId inputId model retryOf)
  | _ => none

def EventEnvelope.segmentRow? : Option SegmentRow :=
  match event.payload with
  | .inputAdmitted inputId prompt _ => some (.ofEvent event (.input inputId) prompt.value)
  | .attemptTextAppended attemptId text => some (.ofEvent event (.attempt attemptId) text.value)
  | _ => none

/-- What an event does to the input rows that are there. -/
def InputRow.step (row : InputRow) : InputRow :=
  match event.payload with
  | .attemptPrepared _ inputId _ _ =>
    alter (fun row => row.key = (event.sessionId, inputId)) (InputRow.promote event) row
  | _ => row

def AttemptRow.settleStep (attemptId : AttemptId) (state : AttemptState)
    (failure : Option AttemptFailure) (row : AttemptRow) : AttemptRow :=
  alter (AttemptRow.isAt event attemptId state.settles) (AttemptRow.settle event state failure) row

def AttemptRow.step (row : AttemptRow) : AttemptRow :=
  match event.payload with
  | .attemptStarted attemptId =>
    alter (AttemptRow.isAt event attemptId fun row => row.state = .prepared) (AttemptRow.start event)
      row
  | .attemptUsageRecorded attemptId usage =>
    alter (AttemptRow.isAt event attemptId fun row => row.state = .inFlight)
      (AttemptRow.recordUsage event usage) row
  | .attemptCancellationRequested attemptId =>
    alter (AttemptRow.isAt event attemptId fun row =>
      row.state = .inFlight && row.cancellationRequestedAt.isNone)
      (AttemptRow.requestCancellation event) row
  | .attemptCompleted attemptId => row.settleStep event attemptId .completed none
  | .attemptFailed attemptId failure => row.settleStep event attemptId .failed (some failure)
  | .attemptCancelled attemptId => row.settleStep event attemptId .cancelled none
  | .attemptMarkedUnknown attemptId => row.settleStep event attemptId .unknown none
  | _ => row

end Projection

namespace SessionView

variable {v : SessionView} {event : EventEnvelope} {sessionId : SessionId}
  {workspaceId : Option WorkspaceId} {events : List EventEnvelope}

theorem inputs_step : (v.step event).inputs =
    v.inputs.map (InputRow.step event) ++ event.inputRow?.toList := by
  change (v.apply event).inputs = _
  unfold apply EventEnvelope.inputRow? InputRow.step
  cases event.payload <;>
    simp [setHeader, admitInput, prepareAttempt, promoteInput, changeAttempt, settleAttempt,
      changeMessage, bindTurn, addText, writeMessage_inputs]

theorem attempts_step : (v.step event).attempts =
    v.attempts.map (AttemptRow.step event) ++ event.attemptRow?.toList := by
  change (v.apply event).attempts = _
  unfold apply EventEnvelope.attemptRow? AttemptRow.step AttemptRow.settleStep
  cases event.payload <;>
    simp [setHeader, admitInput, prepareAttempt, promoteInput, changeAttempt, settleAttempt,
      changeMessage, bindTurn, addText, writeMessage_attempts]

theorem writeMessage_segments {attemptId : AttemptId} :
    (v.writeMessage event attemptId).segments = v.segments := by
  unfold writeMessage
  split <;> rfl

theorem segments_step : (v.step event).segments = v.segments ++ event.segmentRow?.toList := by
  change (v.apply event).segments = _
  unfold apply EventEnvelope.segmentRow?
  cases event.payload <;>
    simp [setHeader, admitInput, prepareAttempt, promoteInput, changeAttempt, settleAttempt,
      changeMessage, bindTurn, addText, writeMessage_segments]

end SessionView

/-- An event, and what it told, in two columns. -/
inductive ToldIn {α : Type} (events : List EventEnvelope) (tells : EventEnvelope → α → Prop) :
    Option EventId → Option α → Prop
  | never : ToldIn events tells none none
  | once {event value} : event ∈ events → tells event value →
      ToldIn events tells (some event.eventId) (some value)

theorem ToldIn.mono {α : Type} {events others : List EventEnvelope}
    {tells : EventEnvelope → α → Prop} {eventId : Option EventId} {value : Option α}
    (h : ToldIn events tells eventId value) (within : events ⊆ others) :
    ToldIn others tells eventId value := by
  cases h with
  | never => exact .never
  | once he told => exact .once (within he) told

def EventEnvelope.At (tells : EventPayload → Prop) (event : EventEnvelope)
    (at_ : TimestampMillis) : Prop :=
  event.occurredAt = at_ ∧ tells event.payload

/-- The events say what the columns of an input hold. -/
structure InputRow.Told (events : List EventEnvelope) (row : InputRow) : Prop where
  check : row.check = true
  admitted : ∃ event ∈ events, event.eventId = row.admittedEventId ∧
    event.sequence = row.admittedSequence ∧ event.occurredAt = row.admittedAt ∧
    event.payload = .inputAdmitted row.inputId row.prompt row.deliveryMode

/-- The events say what the columns of an attempt hold. -/
structure AttemptRow.Told (events : List EventEnvelope) (row : AttemptRow) : Prop where
  prepared : ∃ event ∈ events, event.eventId = row.preparedEventId ∧
    event.sequence = row.preparedSequence ∧ event.occurredAt = row.preparedAt ∧
    event.payload = .attemptPrepared row.attemptId row.inputId row.model row.retryOf
  started : ToldIn events (EventEnvelope.At (· = .attemptStarted row.attemptId))
    row.startedEventId row.startedAt
  settled : ToldIn events (EventEnvelope.At fun payload =>
    settledPayloadMatches payload row.attemptId row.state row.failure = true)
    row.settledEventId row.settledAt
  cancellation : ToldIn events (EventEnvelope.At (· = .attemptCancellationRequested row.attemptId))
    row.cancellationRequestedEventId row.cancellationRequestedAt
  usage : ToldIn events (fun event usage => event.payload = .attemptUsageRecorded row.attemptId usage)
    row.usageEventId row.usage

section Told

variable {events others : List EventEnvelope} {event : EventEnvelope}

theorem InputRow.Told.mono {row : InputRow} (h : row.Told events) (within : events ⊆ others) :
    row.Told others := by
  obtain ⟨origin, he, told⟩ := h.admitted
  exact ⟨h.check, origin, within he, told⟩

theorem InputRow.Told.step {row : InputRow} (h : row.Told events) :
    (row.step event).Told (events ++ [event]) := by
  have later := h.mono (List.subset_append_left events [event])
  unfold InputRow.step
  split
  next =>
    unfold alter
    split
    next => exact ⟨by simp [InputRow.promote, InputRow.check], later.admitted⟩
    next => exact later
  next => exact later

theorem AttemptRow.Told.mono {row : AttemptRow} (h : row.Told events) (within : events ⊆ others) :
    row.Told others := by
  obtain ⟨origin, he, told⟩ := h.prepared
  exact ⟨⟨origin, within he, told⟩, h.started.mono within, h.settled.mono within,
    h.cancellation.mono within, h.usage.mono within⟩

/-- A prepared attempt is not settled. -/
theorem AttemptRow.Told.unsettled {row : AttemptRow} (h : row.Told events)
    (state : row.state = .prepared) : row.settledEventId = none ∧ row.settledAt = none := by
  have settled := h.settled
  generalize row.settledEventId = eventId at settled ⊢
  generalize row.settledAt = at_ at settled ⊢
  cases settled with
  | never => exact ⟨rfl, rfl⟩
  | once _ told =>
    have fits := told.2
    rw [state] at fits
    simp [settledPayloadMatches] at fits

theorem AttemptRow.Told.settleStep {row : AttemptRow} {attemptId : AttemptId} {state : AttemptState}
    {failure : Option AttemptFailure} (h : row.Told (events ++ [event]))
    (fits : settledPayloadMatches event.payload attemptId state failure = true) :
    (row.settleStep event attemptId state failure).Told (events ++ [event]) := by
  unfold AttemptRow.settleStep alter
  split
  next here =>
    have same : row.attemptId = attemptId := by
      simp only [AttemptRow.isAt, Bool.and_eq_true, decide_eq_true_eq] at here
      exact here.1.2
    exact { h with settled := .once (by simp) ⟨rfl, same ▸ fits⟩ }
  next => exact h

theorem AttemptRow.Told.step {row : AttemptRow} (h : row.Told events) :
    (row.step event).Told (events ++ [event]) := by
  have later := h.mono (List.subset_append_left events [event])
  have last : event ∈ events ++ [event] := by simp
  have at_ {attemptId : AttemptId} {p : AttemptRow → Bool}
      (here : row.isAt event attemptId p = true) : row.attemptId = attemptId ∧ p row = true := by
    simp only [AttemptRow.isAt, Bool.and_eq_true, decide_eq_true_eq] at here
    exact ⟨here.1.2, here.2⟩
  unfold AttemptRow.step
  split
  case h_1 attemptId payload =>
    unfold alter
    split
    next here =>
      obtain ⟨same, state⟩ := at_ here
      obtain ⟨noEvent, noTime⟩ := h.unsettled (of_decide_eq_true state)
      refine { later with started := .once last ⟨rfl, same ▸ payload⟩, settled := ?_ }
      simp only [AttemptRow.start, noEvent, noTime]
      exact .never
    next => exact later
  case h_2 attemptId usage payload =>
    unfold alter
    split
    next here => exact { later with usage := .once last ((at_ here).1 ▸ payload) }
    next => exact later
  case h_3 attemptId payload =>
    unfold alter
    split
    next here => exact { later with cancellation := .once last ⟨rfl, (at_ here).1 ▸ payload⟩ }
    next => exact later
  case h_8 => exact later
  all_goals
    rename_i payload
    exact later.settleStep (by simp [settledPayloadMatches, payload])

end Told

section Order

variable {events : List EventEnvelope} {event : EventEnvelope}

/-- The column holds sequences of the events, in order. -/
def FollowsIn {α : Type} (events : List EventEnvelope) (column : α → SessionSequence)
    (rows : List α) : Prop :=
  (rows.map column).Sublist (events.map EventEnvelope.sequence)

theorem FollowsIn.step {α : Type} {column : α → SessionSequence} {rows : List α} {g : α → α}
    {new : Option α} (h : FollowsIn events column rows) (keeps : ∀ row, column (g row) = column row)
    (fresh : ∀ row ∈ new, column row = event.sequence) :
    FollowsIn (events ++ [event]) column (rows.map g ++ new.toList) := by
  have same : column ∘ g = column := funext keeps
  unfold FollowsIn
  rw [List.map_append, List.map_append, List.map_map, same]
  refine h.append ?_
  cases new with
  | none => exact List.nil_sublist _
  | some row =>
    simp only [Option.toList_some, List.map_cons, List.map_nil, fresh row rfl]
    exact List.Sublist.refl _

theorem FollowsIn.ordered {α : Type} {column : α → SessionSequence} {rows : List α}
    (h : FollowsIn events column rows)
    (ordered : events.Pairwise fun a b => a.sequence.get < b.sequence.get) :
    rows.Pairwise fun a b => (column a).get < (column b).get := by
  have sequences : (events.map EventEnvelope.sequence).Pairwise fun a b => a.get < b.get :=
    List.pairwise_map.mpr ordered
  have kept : (rows.map column).Pairwise fun a b => a.get < b.get := sequences.sublist h
  exact (List.pairwise_map (f := column) (R := fun a b => a.get < b.get)).mp kept

theorem FollowsIn.orderedBy_eq {α : Type} {column : α → SessionSequence} {rows : List α}
    (h : FollowsIn events column rows)
    (ordered : events.Pairwise fun a b => a.sequence.get < b.sequence.get) :
    SessionTables.orderedBy column rows = rows :=
  List.mergeSort_of_pairwise ((h.ordered ordered).imp fun before =>
    decide_eq_true (Nat.le_of_lt before))

theorem InputRow.step_sequence (row : InputRow) :
    (row.step event).admittedSequence = row.admittedSequence := by
  unfold InputRow.step
  split
  · exact KeyedTable.alter_congr (φ := InputRow.admittedSequence) (fun _ => rfl) row
  · rfl

theorem AttemptRow.step_sequence (row : AttemptRow) :
    (row.step event).preparedSequence = row.preparedSequence := by
  have kept (p : AttemptRow → Bool) (f : RowMap AttemptRow.attemptId)
      (same : ∀ row, (f.apply row).preparedSequence = row.preparedSequence) :
      (alter p f row).preparedSequence = row.preparedSequence :=
    KeyedTable.alter_congr same row
  unfold AttemptRow.step
  split
  case h_8 => rfl
  all_goals exact kept _ _ fun _ => rfl

end Order

/-- The segments of a message lie between its sequences, and there is one. -/
structure MessageRow.Spans (segments : List SegmentRow) (row : MessageRow) : Prop where
  filled : ∃ segment ∈ segments, segment.source = row.source
  within : ∀ segment ∈ segments, segment.source = row.source →
    row.firstSequence.get ≤ segment.eventSequence.get ∧
      segment.eventSequence.get ≤ row.lastSequence.get

section Spans

variable {segments added : List SegmentRow} {row changed : MessageRow} {event : EventEnvelope}

theorem MessageRow.Spans.frame (h : row.Spans segments)
    (other : ∀ segment ∈ added, segment.source ≠ row.source) : row.Spans (segments ++ added) := by
  obtain ⟨segment, listed, source⟩ := h.filled
  refine ⟨⟨segment, List.mem_append_left _ listed, source⟩, fun segment hs own => ?_⟩
  rcases List.mem_append.mp hs with old | new
  · exact h.within segment old own
  · exact absurd own (other segment new)

/-- A message that an event reaches spans what the event adds. -/
theorem MessageRow.Spans.later (h : row.Spans segments)
    (after : ∀ segment ∈ segments, segment.eventSequence.get < event.sequence.get)
    (new : ∀ segment ∈ added, segment.eventSequence = event.sequence)
    (source : changed.source = row.source) (first : changed.firstSequence = row.firstSequence)
    (last : changed.lastSequence = event.sequence) : changed.Spans (segments ++ added) := by
  obtain ⟨segment, listed, own⟩ := h.filled
  refine ⟨⟨segment, List.mem_append_left _ listed, own.trans source.symm⟩, fun other ho same => ?_⟩
  rw [first, last]
  rcases List.mem_append.mp ho with old | fresh
  · have spans := h.within other old (same.trans source)
    have before := after other old
    exact ⟨spans.1, Nat.le_of_lt before⟩
  · have spans := h.within segment listed own
    have before := after segment listed
    rw [new other fresh]
    exact ⟨by omega, Nat.le_refl _⟩

/-- A message that opens with a segment. -/
theorem MessageRow.spans_first {source : TranscriptSource} {role : TranscriptRole}
    {state : TranscriptState} {content : String}
    (fresh : ∀ segment ∈ segments, segment.source ≠ source) :
    (MessageRow.first event source role state).Spans
      (segments ++ [.ofEvent event source content]) := by
  refine ⟨⟨.ofEvent event source content, by simp, rfl⟩, fun segment hs own => ?_⟩
  rcases List.mem_append.mp hs with old | new
  · exact absurd own (fresh segment old)
  · rw [List.mem_singleton.mp new]
    exact ⟨Nat.le_refl _, Nat.le_refl _⟩

end Spans

namespace SessionView

variable {v : SessionView} {event : EventEnvelope} {k : SessionId} {events : List EventEnvelope}

/-- The messages of a session against its segments. -/
structure Transcribed (k : SessionId) (v : SessionView) : Prop where
  session : ∀ row ∈ v.messages, row.sessionId = k
  spans : ∀ row ∈ v.messages, row.Spans v.segments
  opened : ∀ segment ∈ v.segments, ∃ row ∈ v.messages, row.source = segment.source

theorem Transcribed.fresh {source : TranscriptSource} (h : v.Transcribed k)
    (unknown : ∀ row ∈ v.messages, row.source ≠ source) :
    ∀ segment ∈ v.segments, segment.source ≠ source := by
  intro segment hs same
  obtain ⟨row, hr, own⟩ := h.opened segment hs
  exact unknown row hr (own.trans same)

/-- One more message with its first segment. -/
theorem Transcribed.first {source : TranscriptSource} {role : TranscriptRole}
    {state : TranscriptState} {content : String} {next : SessionView} (h : v.Transcribed k)
    (own : event.sessionId = k) (unknown : ∀ row ∈ v.messages, row.source ≠ source)
    (messages : next.messages = v.messages ++ [.first event source role state])
    (segments : next.segments = v.segments ++ [.ofEvent event source content]) :
    next.Transcribed k := by
  refine ⟨fun row hr => ?_, fun row hr => ?_, fun segment hs => ?_⟩
  · rw [messages] at hr
    rcases List.mem_append.mp hr with old | new
    · exact h.session row old
    · rw [List.mem_singleton.mp new]
      exact own
  · rw [messages] at hr
    rw [segments]
    rcases List.mem_append.mp hr with old | new
    · refine (h.spans row old).frame fun segment hs => ?_
      rw [List.mem_singleton.mp hs]
      exact (unknown row old).symm
    · rw [List.mem_singleton.mp new]
      exact MessageRow.spans_first (h.fresh unknown)
  · rw [segments] at hs
    rw [messages]
    rcases List.mem_append.mp hs with old | new
    · obtain ⟨row, hr, same⟩ := h.opened segment old
      exact ⟨row, List.mem_append_left _ hr, same⟩
    · refine ⟨_, List.mem_append_right _ (List.mem_singleton_self _), ?_⟩
      rw [List.mem_singleton.mp new]
      rfl

/-- The messages of one source move on to the event. -/
theorem Transcribed.edit {attemptId : AttemptId} {p : MessageRow → Bool}
    {f : RowMap MessageRow.key} {added : List SegmentRow} {next : SessionView}
    (h : v.Transcribed k) (own : event.sessionId = k)
    (after : ∀ segment ∈ v.segments, segment.eventSequence.get < event.sequence.get)
    (selected : ∀ row ∈ v.messages, row.source = .attempt attemptId → p row = true)
    (first : ∀ row, (f.apply row).firstSequence = row.firstSequence)
    (last : ∀ row, (f.apply row).lastSequence = event.sequence)
    (new : ∀ segment ∈ added, segment.source = .attempt attemptId ∧
      segment.eventSequence = event.sequence ∧ v.hasMessage (.attempt attemptId) = true)
    (messages : next.messages = v.messages.map (alter (MessageRow.isAt event attemptId p) f))
    (segments : next.segments = v.segments ++ added) : next.Transcribed k := by
  have keys : ∀ row, (alter (MessageRow.isAt event attemptId p) f row).key = row.key :=
    KeyedTable.alter_congr f.keeps
  have source (row : MessageRow) :
      (alter (MessageRow.isAt event attemptId p) f row).source = row.source :=
    congrArg Prod.snd (keys row)
  refine ⟨fun row hr => ?_, fun row hr => ?_, fun segment hs => ?_⟩
  · rw [messages] at hr
    obtain ⟨old, ho, rfl⟩ := List.mem_map.mp hr
    exact (congrArg Prod.fst (keys old)).trans (h.session old ho)
  · rw [messages] at hr
    rw [segments]
    obtain ⟨old, ho, rfl⟩ := List.mem_map.mp hr
    by_cases here : old.source = .attempt attemptId
    · have hit : MessageRow.isAt event attemptId p old = true := by
        have key : old.key = (event.sessionId, .attempt attemptId) :=
          Prod.ext ((h.session old ho).trans own.symm) here
        simp [MessageRow.isAt, key, selected old ho here]
      unfold alter
      rw [if_pos hit]
      exact (h.spans old ho).later after (fun segment hs => (new segment hs).2.1)
        (congrArg Prod.snd (f.keeps old)) (first old) (last old)
    · have miss : MessageRow.isAt event attemptId p old = false := by
        have key : old.key ≠ (event.sessionId, .attempt attemptId) :=
          fun same => here (congrArg Prod.snd same)
        simp [MessageRow.isAt, key]
      unfold alter
      rw [if_neg (by simp [miss])]
      exact (h.spans old ho).frame fun segment hs same =>
        here (same.symm.trans (new segment hs).1)
  · rw [segments] at hs
    rw [messages]
    obtain ⟨row, hr, same⟩ : ∃ row ∈ v.messages, row.source = segment.source := by
      rcases List.mem_append.mp hs with old | fresh
      · exact h.opened segment old
      · obtain ⟨from_, -, known⟩ := new segment fresh
        obtain ⟨row, hr, same⟩ := List.any_eq_true.mp known
        exact ⟨row, hr, (of_decide_eq_true same).trans from_.symm⟩
    exact ⟨_, List.mem_map_of_mem hr, (source row).trans same⟩

theorem Transcribed.step {turns : KeyedTable ContextTurnKey.contextTurnId}
    (h : v.Transcribed k) (own : event.sessionId = k)
    (after : ∀ segment ∈ v.segments, segment.eventSequence.get < event.sequence.get)
    (admits : v.Admits turns events event) : (v.step event).Transcribed k := by
  have settled {attemptId : AttemptId} {state : AttemptState} {failure : Option AttemptFailure}
      (step : v.step event = (v.settleAttempt event attemptId state failure).setHeader
        (SessionRow.advance event)) : (v.step event).Transcribed k := by
    have silent : (v.step event).segments = v.segments ++ [] := by
      rw [step, List.append_nil]
      rfl
    refine h.edit (p := fun _ => true) (f := MessageRow.close event state.transcriptState)
      own after (fun _ _ _ => rfl) (fun _ => rfl) (fun _ => rfl) (fun _ hs => ?_)
      (by rw [step]; rfl) silent
    cases hs
  have same (messages : (v.step event).messages = v.messages)
      (segments : (v.step event).segments = v.segments) : (v.step event).Transcribed k :=
    ⟨messages ▸ h.session, messages ▸ segments ▸ h.spans, messages ▸ segments ▸ h.opened⟩
  cases payload : event.payload with
  | inputAdmitted inputId prompt deliveryMode =>
    simp only [Admits, payload] at admits
    have step : v.step event = (v.admitInput event inputId prompt deliveryMode).setHeader
        (SessionRow.advance event) := by
      simp only [SessionView.step, apply, payload]
    exact h.first own admits.1 (by rw [step]; rfl) (by rw [step]; rfl)
  | attemptTextAppended attemptId text =>
    simp only [Admits, payload] at admits
    obtain ⟨-, -, -, streaming⟩ := admits
    have step : v.step event = ((v.writeMessage event attemptId).addText event
        (.attempt attemptId) text.value).setHeader (SessionRow.advance event) := by
      simp only [SessionView.step, apply, payload]
    have segments : (v.step event).segments =
        v.segments ++ [.ofEvent event (.attempt attemptId) text.value] := by
      rw [segments_step, EventEnvelope.segmentRow?, payload]
      rfl
    by_cases known : v.hasMessage (.attempt attemptId) = true
    · refine h.edit (p := fun row => row.state = .streaming) (f := MessageRow.extend event) own after
        (fun row hr here => decide_eq_true (streaming row hr here)) (fun _ => rfl) (fun _ => rfl)
        (fun segment hs => ?_) (by rw [step, writeMessage, if_pos known]; rfl) segments
      rw [List.mem_singleton.mp hs]
      exact ⟨rfl, rfl, known⟩
    · refine h.first own (fun row hr here => ?_)
        (by rw [step, writeMessage, if_neg known]; rfl) segments
      exact known (List.any_eq_true.mpr ⟨row, hr, decide_eq_true here⟩)
  | attemptCompleted attemptId => exact settled (by simp only [SessionView.step, apply, payload]; rfl)
  | attemptFailed attemptId failure =>
    exact settled (by simp only [SessionView.step, apply, payload]; rfl)
  | attemptCancelled attemptId => exact settled (by simp only [SessionView.step, apply, payload]; rfl)
  | attemptMarkedUnknown attemptId =>
    exact settled (by simp only [SessionView.step, apply, payload]; rfl)
  | _ =>
    exact same (by simp only [SessionView.step, apply, payload]; rfl)
      (by simp only [SessionView.step, apply, payload]; rfl)

end SessionView

section Added

variable {events : List EventEnvelope} {event : EventEnvelope}

theorem EventEnvelope.inputRow_told {row : InputRow} (h : event.inputRow? = some row) :
    row.Told (events ++ [event]) ∧ row.admittedSequence = event.sequence := by
  unfold EventEnvelope.inputRow? at h
  split at h
  next inputId prompt deliveryMode payload =>
    cases h
    exact ⟨⟨rfl, event, by simp, rfl, rfl, rfl, payload⟩, rfl⟩
  next => cases h

theorem EventEnvelope.attemptRow_told {row : AttemptRow} (h : event.attemptRow? = some row) :
    row.Told (events ++ [event]) ∧ row.preparedSequence = event.sequence := by
  unfold EventEnvelope.attemptRow? at h
  split at h
  next attemptId inputId model retryOf payload =>
    cases h
    exact ⟨⟨⟨event, by simp, rfl, rfl, rfl, payload⟩, .never, .never, .never, .never⟩, rfl⟩
  next => cases h

theorem PromptText.filled (prompt : PromptText) : prompt.value ≠ "" := by
  intro empty
  have blank := prompt.nonblank
  rw [empty] at blank
  cases blank

theorem ResponseText.filled (text : ResponseText) : text.value ≠ "" := by
  intro empty
  have nonempty := text.nonempty
  rw [empty] at nonempty
  cases nonempty

theorem EventEnvelope.segmentRow_told {segment : SegmentRow}
    (h : event.segmentRow? = some segment) :
    event.eventId = segment.sourceEventId ∧ event.sequence = segment.eventSequence ∧
      event.payload.textFor segment.source = some segment.content ∧ segment.content ≠ "" := by
  unfold EventEnvelope.segmentRow? at h
  split at h
  next inputId prompt deliveryMode payload =>
    cases h
    exact ⟨rfl, rfl, by simp [EventPayload.textFor, SegmentRow.ofEvent, payload], prompt.filled⟩
  next attemptId text payload =>
    cases h
    exact ⟨rfl, rfl, by simp [EventPayload.textFor, SegmentRow.ofEvent, payload], text.filled⟩
  next => cases h

/-- The segment of an event belongs to the one message that the event has text for. -/
theorem EventEnvelope.segmentRow_text (source : TranscriptSource) :
    (event.segmentRow?.toList.filter fun segment => segment.source = source).map
      SegmentRow.content = (event.payload.textFor source).toList := by
  unfold EventEnvelope.segmentRow? EventPayload.textFor
  cases event.payload <;> cases source <;>
    simp [SegmentRow.ofEvent, List.filter_cons, eq_comm] <;> split <;> simp_all

end Added

namespace SessionView

variable {v : SessionView} {event : EventEnvelope} {k : SessionId} {events : List EventEnvelope}

/-- Messages keep their session and first sequence, and at most one opens, at the event. -/
def MessagesMove (event : EventEnvelope) (before after : List MessageRow) : Prop :=
  ∃ (g : MessageRow → MessageRow) (new : Option MessageRow), after = before.map g ++ new.toList ∧
    (∀ row, (g row).firstSequence = row.firstSequence ∧ (g row).sessionId = row.sessionId) ∧
    ∀ row ∈ new, row.firstSequence = event.sequence ∧ row.sessionId = event.sessionId

theorem messages_step : MessagesMove event v.messages (v.step event).messages := by
  have kept (same : (v.step event).messages = v.messages) :
      MessagesMove event v.messages (v.step event).messages := by
    refine ⟨id, none, by simp [same], fun _ => ⟨rfl, rfl⟩, fun row hr => ?_⟩
    cases hr
  have opened (row : MessageRow)
      (first : row.firstSequence = event.sequence ∧ row.sessionId = event.sessionId)
      (same : (v.step event).messages = v.messages ++ [row]) :
      MessagesMove event v.messages (v.step event).messages := by
    refine ⟨id, some row, by simp [same], fun _ => ⟨rfl, rfl⟩, fun other ho => ?_⟩
    cases ho
    exact first
  have edited (p : MessageRow → Bool) (f : RowMap MessageRow.key)
      (first : ∀ row, (f.apply row).firstSequence = row.firstSequence)
      (same : (v.step event).messages = v.messages.map (alter p f)) :
      MessagesMove event v.messages (v.step event).messages := by
    refine ⟨alter p f, none, by simp [same], fun row => ⟨KeyedTable.alter_congr first row, ?_⟩,
      fun row hr => ?_⟩
    · exact congrArg Prod.fst (KeyedTable.alter_congr f.keeps row)
    · cases hr
  cases payload : event.payload with
  | inputAdmitted inputId prompt deliveryMode =>
    exact opened (.first event (.input inputId) .user .complete) ⟨rfl, rfl⟩
      (by simp only [SessionView.step, apply, payload]; rfl)
  | attemptTextAppended attemptId text =>
    have step : (v.step event).messages = (v.writeMessage event attemptId).messages := by
      simp only [SessionView.step, apply, payload]
      rfl
    by_cases known : v.hasMessage (.attempt attemptId) = true
    · refine edited (MessageRow.isAt event attemptId fun row => row.state = .streaming)
        (MessageRow.extend event) (fun _ => rfl) ?_
      rw [step, writeMessage, if_pos known]
      rfl
    · refine opened (.first event (.attempt attemptId) .assistant .streaming) ⟨rfl, rfl⟩ ?_
      rw [step, writeMessage, if_neg known]
  | attemptCompleted attemptId =>
    exact edited _ (MessageRow.close event _) (fun _ => rfl)
      (by simp only [SessionView.step, apply, payload]; rfl)
  | attemptFailed attemptId failure =>
    exact edited _ (MessageRow.close event _) (fun _ => rfl)
      (by simp only [SessionView.step, apply, payload]; rfl)
  | attemptCancelled attemptId =>
    exact edited _ (MessageRow.close event _) (fun _ => rfl)
      (by simp only [SessionView.step, apply, payload]; rfl)
  | attemptMarkedUnknown attemptId =>
    exact edited _ (MessageRow.close event _) (fun _ => rfl)
      (by simp only [SessionView.step, apply, payload]; rfl)
  | _ => exact kept (by simp only [SessionView.step, apply, payload]; rfl)

/-- Everything that the reads of a session check. -/
structure Readable (k : SessionId) (events : List EventEnvelope) (v : SessionView) : Prop where
  inputs : ∀ row ∈ v.inputs, row.Told events
  attempts : ∀ row ∈ v.attempts, row.Told events
  segments : v.segments = events.filterMap EventEnvelope.segmentRow?
  transcribed : v.Transcribed k
  inputOrder : FollowsIn events InputRow.admittedSequence v.inputs
  attemptOrder : FollowsIn events AttemptRow.preparedSequence v.attempts
  messageOrder : FollowsIn events MessageRow.firstSequence v.messages

theorem readable_initial (k : SessionId) (workspaceId : Option WorkspaceId) :
    Readable k [] (initial k workspaceId) where
  inputs _ hr := by cases hr
  attempts _ hr := by cases hr
  segments := rfl
  transcribed := ⟨fun _ hr => (by cases hr), fun _ hr => (by cases hr), fun _ hs => (by cases hs)⟩
  inputOrder := List.Sublist.slnil
  attemptOrder := List.Sublist.slnil
  messageOrder := List.Sublist.slnil

theorem Readable.step {turns : KeyedTable ContextTurnKey.contextTurnId}
    (h : v.Readable k events) (own : event.sessionId = k)
    (after : ∀ other ∈ events, other.sequence.get < event.sequence.get)
    (admits : v.Admits turns events event) : (v.step event).Readable k (events ++ [event]) := by
  refine ⟨fun row hr => ?_, fun row hr => ?_, ?_, ?_, ?_, ?_, ?_⟩
  · rw [inputs_step] at hr
    rcases List.mem_append.mp hr with old | new
    · obtain ⟨row, ho, rfl⟩ := List.mem_map.mp old
      exact (h.inputs row ho).step
    · exact (EventEnvelope.inputRow_told (Option.mem_toList.mp new)).1
  · rw [attempts_step] at hr
    rcases List.mem_append.mp hr with old | new
    · obtain ⟨row, ho, rfl⟩ := List.mem_map.mp old
      exact (h.attempts row ho).step
    · exact (EventEnvelope.attemptRow_told (Option.mem_toList.mp new)).1
  · rw [segments_step, h.segments, List.filterMap_append]
    cases added : event.segmentRow? <;> simp [added]
  · refine h.transcribed.step own (fun segment hs => ?_) admits
    rw [h.segments] at hs
    obtain ⟨other, ho, told⟩ := List.mem_filterMap.mp hs
    rw [← (EventEnvelope.segmentRow_told told).2.1]
    exact after other ho
  · rw [inputs_step]
    exact h.inputOrder.step InputRow.step_sequence fun row hr =>
      (@EventEnvelope.inputRow_told [] event row hr).2
  · rw [attempts_step]
    exact h.attemptOrder.step AttemptRow.step_sequence fun row hr =>
      (@EventEnvelope.attemptRow_told [] event row hr).2
  · obtain ⟨g, new, messages, keeps, fresh⟩ :
        MessagesMove event v.messages (v.step event).messages := messages_step
    rw [messages]
    exact h.messageOrder.step (fun row => (keeps row).1) fun row hr => (fresh row hr).1

end SessionView

end AutoHarness
