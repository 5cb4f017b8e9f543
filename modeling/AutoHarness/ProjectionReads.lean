import AutoHarness.ProjectionTold

namespace AutoHarness

open FallibleRun (run)

namespace SessionTables

variable {t : SessionTables} {k : SessionId}

/-- The rows that the events of a session determine. -/
def viewOf (t : SessionTables) (k : SessionId) : SessionView := .ofEvents k none (t.eventsOf k)

/-- The rows of a session are those of its events. -/
structure Shown (t : SessionTables) (k : SessionId) : Prop where
  inputs : t.inputsOf k = (t.viewOf k).inputs
  attempts : t.attemptsOf k = (t.viewOf k).attempts
  messages : t.messagesOf k = (t.viewOf k).messages
  segments : t.segmentsOf k = (t.viewOf k).segments
  bindings : t.bindingsOf k = (t.viewOf k).bindings

theorem Live.shown (live : t.Live) (k : SessionId) : t.Shown k := by
  by_cases empty : t.eventsOf k = []
  · obtain ⟨inputs, attempts, messages, segments, bindings⟩ := live.sourced.rows_of_empty empty
    have initial : t.viewOf k = .initial k none := by rw [viewOf, empty]; rfl
    exact ⟨inputs.trans (by rw [initial]; rfl), attempts.trans (by rw [initial]; rfl),
      messages.trans (by rw [initial]; rfl), segments.trans (by rw [initial]; rfl),
      bindings.trans (by rw [initial]; rfl)⟩
  · obtain ⟨workspaceId, m⟩ := (live.sessions k).mirrored empty
    rw [SessionView.ofEvents_workspace workspaceId none] at m
    exact ⟨m.inputs.trans (List.append_nil _), m.attempts.trans (List.append_nil _), m.messages,
      m.segments, m.bindings⟩

theorem Live.readable (live : t.Live) (k : SessionId) : (t.viewOf k).Readable k (t.eventsOf k) := by
  have ordered := live.ordered k
  have along : ∀ past future, t.eventsOf k = past ++ future →
      (SessionView.ofEvents k none past).Readable k past := by
    intro past
    induction past using List.reverseRecOn with
    | nil => exact fun _ _ => SessionView.readable_initial k none
    | append_singleton past event ih =>
      intro future split
      have whole : t.eventsOf k = past ++ event :: future := by simpa using split
      rw [SessionView.ofEvents_concat]
      have stored : event ∈ t.eventsOf k := by
        rw [whole]
        simp
      have admits := (live.sessions k).admitted past event future whole
      refine (ih _ whole).step (mem_eventsOf.mp stored).2 (fun other ho => ?_) admits
      rw [whole] at ordered
      exact (List.pairwise_append.mp ordered).2.2 other ho event List.mem_cons_self
  exact along _ [] (List.append_nil _).symm

section Read

variable {event : EventEnvelope} {eventId : EventId}

theorem columnEvent_eq (stored : event ∈ t.eventsOf k) (id : event.eventId = eventId) :
    t.columnEvent eventId = .ok event := by
  unfold columnEvent
  rw [KeyedTable.find?_eq_some_iff.mpr ⟨(mem_eventsOf.mp stored).1, id⟩]

/-- What a column of the session tells can be read again. -/
theorem decode_told {α : Type} {tells : EventEnvelope → α → Prop} {column : Option EventId}
    {value : Option α} (told : ToldIn (t.eventsOf k) tells column value) :
    ∃ decoded, t.decodeOptionalProjectionEvent column = .ok decoded ∧
      ∀ check : EventEnvelope → α → Bool, (∀ event value, event.sessionId = k →
        tells event value → check event value = true) → toldBy check decoded value = true := by
  cases told with
  | never => exact ⟨none, rfl, fun _ _ => rfl⟩
  | @once event value stored told =>
    obtain ⟨he, own⟩ := mem_eventsOf.mp stored
    refine ⟨some event, ?_, fun check fits => fits event value own told⟩
    unfold decodeOptionalProjectionEvent
    simp only [KeyedTable.find?_eq_some_iff.mpr ⟨he, rfl⟩]

theorem requireProjection_of {area : CorruptionArea} {fits : Bool} (h : fits = true) :
    requireProjection area fits = .ok () := if_pos h

theorem readInput_told {row : InputRow} (told : row.Told (t.eventsOf k)) :
    t.readInput k row = .ok (row.record k) := by
  obtain ⟨event, stored, id, sequence, at_, payload⟩ := told.admitted
  have own := (mem_eventsOf.mp stored).2
  unfold readInput InputRow.validate
  rw [columnEvent_eq stored id, FallibleRun.ok_bind, requireProjection_of told.check,
    FallibleRun.ok_bind, requireProjection_of (by simp [id, own, sequence, at_, payload]),
    FallibleRun.ok_bind]

theorem saidAt_of {tells : EventPayload → Prop} {check : EventPayload → Bool}
    {at_ : TimestampMillis} (fits : ∀ payload, tells payload → check payload = true)
    (own : event.sessionId = k) (told : event.At tells at_) : event.saidAt k check at_ = true := by
  simp [EventEnvelope.saidAt, own, told.1, fits _ told.2]

theorem readAttempt_told {row : AttemptRow} (told : row.Told (t.eventsOf k))
    (check : row.check = true) : t.readAttempt k row = .ok (row.record k) := by
  obtain ⟨prepared, stored, id, sequence, at_, payload⟩ := told.prepared
  have own := (mem_eventsOf.mp stored).2
  obtain ⟨started, decodedStarted, checkStarted⟩ := decode_told told.started
  obtain ⟨settled, decodedSettled, checkSettled⟩ := decode_told told.settled
  obtain ⟨cancellation, decodedCancellation, checkCancellation⟩ := decode_told told.cancellation
  obtain ⟨usage, decodedUsage, checkUsage⟩ := decode_told told.usage
  simp only [AttemptRow.check, Bool.and_eq_true] at check
  obtain ⟨⟨⟨times, failure⟩, -⟩, -⟩ := check
  have unsettled : (row.settledAt.isSome || !row.state.isSettled) = true := by
    unfold AttemptRow.timesCheck at times
    cases state : row.state <;> simp_all [AttemptState.isSettled]
  unfold readAttempt AttemptRow.validate
  rw [columnEvent_eq stored id, FallibleRun.ok_bind, decodedStarted, FallibleRun.ok_bind,
    decodedSettled, FallibleRun.ok_bind, decodedCancellation, FallibleRun.ok_bind, decodedUsage,
    FallibleRun.ok_bind, requireProjection_of times, FallibleRun.ok_bind,
    requireProjection_of failure, FallibleRun.ok_bind,
    requireProjection_of (by simp [id, own, sequence, at_, payload]), FallibleRun.ok_bind,
    requireProjection_of (checkStarted _ fun _ _ => saidAt_of fun _ => decide_eq_true),
    FallibleRun.ok_bind,
    requireProjection_of (by
      rw [unsettled, Bool.true_and]
      exact checkSettled _ fun _ _ => saidAt_of fun _ fits => fits),
    FallibleRun.ok_bind,
    requireProjection_of (checkCancellation _ fun _ _ => saidAt_of fun _ => decide_eq_true),
    FallibleRun.ok_bind,
    requireProjection_of (checkUsage _ fun _ _ own told => by simp [own, told]),
    FallibleRun.ok_bind]

theorem validateSegments_ok {message : MessageRow} {segments : List SegmentRow}
    {previous : Option SessionSequence}
    (told : ∀ segment ∈ segments, ∃ event ∈ t.eventsOf k, event.segmentRow? = some segment)
    (own : ∀ segment ∈ segments, segment.source = message.source)
    (within : ∀ segment ∈ segments, message.firstSequence.get ≤ segment.eventSequence.get ∧
      segment.eventSequence.get ≤ message.lastSequence.get)
    (behind : ∀ sequence ∈ previous, ∀ segment ∈ segments,
      sequence.get < segment.eventSequence.get)
    (ordered : segments.Pairwise fun a b => a.eventSequence.get < b.eventSequence.get) :
    t.validateSegments k message previous segments = .ok () := by
  induction segments generalizing previous with
  | nil => rfl
  | cons segment rest ih =>
    obtain ⟨event, stored, added⟩ := told segment List.mem_cons_self
    obtain ⟨identity, sequence, text, -⟩ := EventEnvelope.segmentRow_told added
    obtain ⟨lower, upper⟩ := within segment List.mem_cons_self
    rw [own segment List.mem_cons_self] at text
    have later : (previous.all fun sequence => sequence.get < segment.eventSequence.get) = true := by
      cases previous with
      | none => rfl
      | some sequence => exact decide_eq_true (behind sequence rfl segment List.mem_cons_self)
    obtain ⟨first, rest_⟩ := List.pairwise_cons.mp ordered
    unfold validateSegments SegmentRow.validate
    rw [columnEvent_eq stored identity, FallibleRun.ok_bind,
      requireProjection_of (by simp [lower, upper]), FallibleRun.ok_bind,
      requireProjection_of (by simp [identity, (mem_eventsOf.mp stored).2, sequence, text]),
      FallibleRun.ok_bind, requireProjection_of later, FallibleRun.ok_bind]
    refine ih (fun other ho => told other (List.mem_cons_of_mem _ ho))
      (fun other ho => own other (List.mem_cons_of_mem _ ho))
      (fun other ho => within other (List.mem_cons_of_mem _ ho)) (fun previous hp other ho => ?_)
      rest_
    cases hp
    exact first other ho

theorem segments_text (events : List EventEnvelope) (source : TranscriptSource) :
    ((events.filterMap EventEnvelope.segmentRow?).filter fun segment =>
      segment.source = source).map SegmentRow.content = textsOf events source := by
  induction events with
  | nil => rfl
  | cons event events ih =>
    have one := @EventEnvelope.segmentRow_text event source
    have split (new : Option SegmentRow) (rest : List SegmentRow) :
        ((new.toList ++ rest).filter fun segment => segment.source = source).map
          SegmentRow.content =
        (new.toList.filter fun segment => segment.source = source).map SegmentRow.content ++
          (rest.filter fun segment => segment.source = source).map SegmentRow.content := by
      rw [List.filter_append, List.map_append]
    have cons : (event :: events).filterMap EventEnvelope.segmentRow? =
        event.segmentRow?.toList ++ events.filterMap EventEnvelope.segmentRow? := by
      cases added : event.segmentRow? <;> simp [added]
    rw [cons, split, one, ih]
    cases text : event.payload.textFor source <;> simp [textsOf, text]

theorem join_filled {texts : List String} (nonempty : texts ≠ [])
    (filled : ∀ text ∈ texts, text ≠ "") : (String.join texts).isEmpty = false := by
  obtain ⟨text, rest, rfl⟩ := List.exists_cons_of_ne_nil nonempty
  have first := filled text List.mem_cons_self
  simp [String.join_cons, String.isEmpty_eq_false_iff, first]

theorem validateMessage_ok (live : t.Live) {row : MessageRow} (listed : row ∈ t.messagesOf k) :
    ∃ content : TranscriptText, content.value = String.join (textsOf (t.eventsOf k) row.source) ∧
      t.validateMessage k row = .ok ⟨k, row.source, row.role, row.state, row.firstSequence,
        row.lastSequence, content⟩ := by
  have readable := live.readable k
  have shown := live.shown k
  rw [shown.messages] at listed
  obtain ⟨⟨some_, hs, source⟩, within⟩ := readable.transcribed.spans row listed
  have segments : t.segmentsOf k = (t.eventsOf k).filterMap EventEnvelope.segmentRow? :=
    shown.segments.trans readable.segments
  rw [readable.segments] at hs within
  have ordered : ((t.eventsOf k).filterMap EventEnvelope.segmentRow?).Pairwise
      fun a b => a.eventSequence.get < b.eventSequence.get := by
    refine List.pairwise_filterMap.mpr ((live.ordered k).imp fun before a ha b hb => ?_)
    rw [← (EventEnvelope.segmentRow_told ha).2.1, ← (EventEnvelope.segmentRow_told hb).2.1]
    exact before
  have own := ordered.filter fun segment => segment.source = row.source
  have sorted : orderedBy SegmentRow.eventSequence ((t.segmentsOf k).filter fun segment =>
      segment.source = row.source) = ((t.eventsOf k).filterMap EventEnvelope.segmentRow?).filter
        fun segment => segment.source = row.source := by
    rw [segments]
    exact List.mergeSort_of_pairwise (own.imp fun before => decide_eq_true (Nat.le_of_lt before))
  have member {segment : SegmentRow} (hs : segment ∈ ((t.eventsOf k).filterMap
      EventEnvelope.segmentRow?).filter fun segment => segment.source = row.source) :
      segment ∈ (t.eventsOf k).filterMap EventEnvelope.segmentRow? ∧ segment.source = row.source := by
    simpa using hs
  have check : row.check = true := by
    have bounds := within some_ hs source
    exact decide_eq_true (by omega)
  have valid := @validateSegments_ok t k row _ none
    (fun segment hs => List.mem_filterMap.mp (member hs).1) (fun segment hs => (member hs).2)
    (fun segment hs => within segment (member hs).1 (member hs).2) (fun _ none => by cases none) own
  have nonempty : ((t.eventsOf k).filterMap EventEnvelope.segmentRow?).filter (fun segment =>
      segment.source = row.source) ≠ [] :=
    List.ne_nil_of_mem (List.mem_filter.mpr ⟨hs, decide_eq_true source⟩)
  have filled : (String.join (textsOf (t.eventsOf k) row.source)).isEmpty = false := by
    rw [← segments_text]
    refine join_filled (mt List.map_eq_nil_iff.mp nonempty) fun text ht => ?_
    obtain ⟨segment, hs, rfl⟩ := List.mem_map.mp ht
    obtain ⟨event, -, added⟩ := List.mem_filterMap.mp (member hs).1
    exact (EventEnvelope.segmentRow_told added).2.2.2
  refine ⟨⟨_, filled⟩, rfl, ?_⟩
  have text : String.join ((((t.eventsOf k).filterMap EventEnvelope.segmentRow?).filter
      fun segment => segment.source = row.source).map SegmentRow.content) =
      String.join (textsOf (t.eventsOf k) row.source) := congrArg String.join (segments_text _ _)
  unfold validateMessage
  rw [requireProjection_of check, FallibleRun.ok_bind]
  simp only
  rw [sorted, valid, FallibleRun.ok_bind,
    requireProjection_of (by simpa [List.isEmpty_iff] using nonempty), FallibleRun.ok_bind, text,
    TranscriptText.new, dif_pos filled]

/-- The text of an event is in a message. -/
theorem mem_messages_iff (live : t.Live) {source : TranscriptSource} :
    source ∈ (t.messagesOf k).map MessageRow.source ↔ textsOf (t.eventsOf k) source ≠ [] := by
  have readable := live.readable k
  have segments := readable.segments
  have texts : textsOf (t.eventsOf k) source = ((t.viewOf k).segments.filter fun segment =>
      segment.source = source).map SegmentRow.content := by
    rw [segments, segments_text]
  rw [(live.shown k).messages, texts, ne_eq, List.map_eq_nil_iff]
  constructor
  · intro listed none
    obtain ⟨row, hr, rfl⟩ := List.mem_map.mp listed
    obtain ⟨segment, hs, own⟩ := (readable.transcribed.spans row hr).filled
    exact List.filter_eq_nil_iff.mp none segment hs (decide_eq_true own)
  · intro some_
    obtain ⟨segment, listed⟩ := List.exists_mem_of_ne_nil _ some_
    obtain ⟨hs, own⟩ := List.mem_filter.mp listed
    obtain ⟨row, hr, same⟩ := readable.transcribed.opened segment hs
    exact List.mem_map.mpr ⟨row, hr, same.trans (of_decide_eq_true own)⟩

theorem messages_distinct : ((t.messagesOf k).map MessageRow.source).Nodup := by
  have keys : ((t.messagesOf k).map MessageRow.key).Nodup :=
    t.messages.distinct.sublist (List.filter_sublist.map _)
  have same : (t.messagesOf k).map MessageRow.key =
      ((t.messagesOf k).map MessageRow.source).map (Prod.mk k) := by
    rw [List.map_map]
    refine List.map_congr_left fun row hr => ?_
    exact Prod.ext (Interleaving.mem_project.mp hr).2 rfl
  rw [same] at keys
  exact keys.of_map

theorem Live.loadAdmittedInputs (live : t.Live) (k : SessionId) :
    t.loadAdmittedInputs k = .ok ((t.inputsOf k).map (InputRow.record k)) := by
  have readable := live.readable k
  unfold SessionTables.loadAdmittedInputs
  rw [(live.shown k).inputs, readable.inputOrder.orderedBy_eq (live.ordered k)]
  exact FallibleRun.mapM_eq_ok fun row hr => readInput_told (readable.inputs row hr)

theorem Live.loadAttempts (live : t.Live) (k : SessionId) :
    t.loadAttempts k = .ok ((t.attemptsOf k).map (AttemptRow.record k)) := by
  have readable := live.readable k
  have shown := live.shown k
  unfold SessionTables.loadAttempts
  rw [shown.attempts, readable.attemptOrder.orderedBy_eq (live.ordered k)]
  refine FallibleRun.mapM_eq_ok fun row hr => readAttempt_told (readable.attempts row hr) ?_
  rw [← shown.attempts] at hr
  exact (live.sourced.attempts row (Interleaving.mem_project.mp hr).1).check

/-- An entry of the transcript is one of the messages, with the texts of the events. -/
def TranscriptEntry.Reads (t : SessionTables) (k : SessionId) (entry : TranscriptEntry) : Prop :=
  entry.content.value = String.join (textsOf (t.eventsOf k) entry.source) ∧
    ∃ row ∈ t.messagesOf k,
      entry.source = row.source ∧ entry.role = row.role ∧ entry.state = row.state

theorem Live.loadTranscript (live : t.Live) (k : SessionId) :
    ∃ entries, t.loadTranscript k = .ok entries ∧
      entries.map TranscriptEntry.source = (t.messagesOf k).map MessageRow.source ∧
      ∀ entry ∈ entries, TranscriptEntry.Reads t k entry := by
  have sorted : orderedBy MessageRow.firstSequence (t.messagesOf k) = t.messagesOf k := by
    rw [(live.shown k).messages, (live.readable k).messageOrder.orderedBy_eq (live.ordered k)]
  have read : ∀ row ∈ t.messagesOf k, ∃ entry, t.validateMessage k row = .ok entry := by
    intro row hr
    obtain ⟨content, -, valid⟩ := validateMessage_ok live hr
    exact ⟨_, valid⟩
  obtain ⟨entries, loaded⟩ := FallibleRun.mapM_ok_iff.mpr read
  refine ⟨entries, (congrArg _ sorted).trans loaded, ?_, fun entry he => ?_⟩
  · refine FallibleRun.mapM_map loaded fun row hr entry made => ?_
    obtain ⟨content, -, valid⟩ := validateMessage_ok live hr
    cases valid.symm.trans made
    rfl
  · obtain ⟨row, hr, made⟩ := (FallibleRun.mapM_mem loaded).1 entry he
    obtain ⟨content, texts, valid⟩ := validateMessage_ok live hr
    cases valid.symm.trans made
    exact ⟨texts, row, hr, rfl, rfl, rfl⟩

end Read

end SessionTables

end AutoHarness
