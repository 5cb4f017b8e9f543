import AutoHarness.ListStore
import AutoHarness.Paging
import AutoHarness.SessionRetry

namespace AutoHarness

open FallibleRun (bind_eq_ok_iff run)

namespace SessionTables

variable (t : SessionTables)

/-- The rows of one read, checked one after the other. -/
def readStream (expected : Nat) : List EventEnvelope → Except StoreError (List EventEnvelope)
  | [] => .ok []
  | event :: rows => do
    t.validateStored event
    if event.sequence.get ≠ expected then .error (.corruptData .eventSequence)
    else do
      let rest ← readStream (expected + 1) rows
      .ok (event :: rest)

def loadEvents (sessionId : SessionId) (afterSequence : Nat) (limit : UInt32) :
    Except StoreError (List EventEnvelope) :=
  if limit = 0 ∨ afterSequence = maxSequence then .ok []
  else if maxSequence < afterSequence then .error .sequenceOutOfRange
  else
    t.readStream (afterSequence + 1)
      (((t.stream sessionId).filter fun event => afterSequence < event.sequence.get).take
        limit.toNat)

/-- The row of a session against the sequences of its events. -/
def summarize (row : SessionRow) : Except StoreError SessionSummary :=
  let sequences := (t.eventsOf row.sessionId).map fun event => event.sequence.get
  match SessionSequence.new row.lastSequence with
  | .error _ => .error (.corruptData .sessionProjection)
  | .ok lastSequence =>
    if sequences.min? ≠ some 1 ∨ sequences.max? ≠ some row.lastSequence ∨
        sequences.length ≠ row.lastSequence then .error (.corruptData .sessionProjection)
    else .ok ⟨row.sessionId, lastSequence⟩

/-- `ORDER BY updated_at_ms DESC, session_id ASC` -/
def SessionRow.listedBefore (a b : SessionRow) : Bool :=
  b.updatedAt.value < a.updatedAt.value ||
    (a.updatedAt.value = b.updatedAt.value && a.sessionId ≤ b.sessionId)

def listSessions : Except StoreError (List SessionSummary) :=
  (t.sessions.rows.mergeSort SessionRow.listedBefore).mapM t.summarize

/-- The page loop of an export over the events of a session. Nothing in it bounds it, so it runs on
fuel. -/
def loadAllEvents (pageSize : UInt32) (fuel : Nat) (sessionId : SessionId) :
    Option (Except StoreError (List EventEnvelope)) :=
  Paging.collect (fun event => event.sequence.get)
    (fun after => t.loadEvents sessionId after pageSize) .ok pageSize.toNat fuel 0

end SessionTables

/-- Assembled transcript content. -/
structure TranscriptText where
  value : String
  nonempty : value.isEmpty = false
deriving Repr

theorem TranscriptText.value_inj {left right : TranscriptText} :
    left.value = right.value ↔ left = right := by
  cases left
  cases right
  simp

instance : DecidableEq TranscriptText := fun _ _ => decidable_of_iff _ TranscriptText.value_inj

def TranscriptText.new (value : String) : Except ValueError TranscriptText :=
  if h : value.isEmpty = false then .ok ⟨value, h⟩ else .error .emptyResponseText

structure AdmittedInputRecord where
  sessionId : SessionId
  inputId : InputId
  sequence : SessionSequence
  prompt : PromptText
  deliveryMode : DeliveryMode
  state : InputRowState
  admittedAt : TimestampMillis
deriving DecidableEq

structure AttemptRecord where
  sessionId : SessionId
  attemptId : AttemptId
  inputId : InputId
  model : ModelRef
  retryOf : Option AttemptId
  state : AttemptState
  preparedSequence : SessionSequence
  preparedAt : TimestampMillis
  startedAt : Option TimestampMillis
  settledAt : Option TimestampMillis
  cancellationRequestedAt : Option TimestampMillis
  usage : Option UsageSnapshot
  failure : Option AttemptFailure
deriving DecidableEq

structure TranscriptEntry where
  sessionId : SessionId
  source : TranscriptSource
  role : TranscriptRole
  state : TranscriptState
  firstSequence : SessionSequence
  lastSequence : SessionSequence
  content : TranscriptText
deriving DecidableEq

/-- The text that a payload adds to a message. -/
def EventPayload.textFor : TranscriptSource → EventPayload → Option String
  | .input inputId, .inputAdmitted admitted prompt _ =>
    if inputId = admitted then some prompt.value else none
  | .attempt attemptId, .attemptTextAppended answering text =>
    if attemptId = answering then some text.value else none
  | _, _ => none

/-- The texts of a message. -/
def textsOf (events : List EventEnvelope) (source : TranscriptSource) : List String :=
  events.filterMap fun event => event.payload.textFor source

def settledPayloadMatches (payload : EventPayload) (attemptId : AttemptId) (state : AttemptState)
    (failure : Option AttemptFailure) : Bool :=
  match state, payload with
  | .completed, .attemptCompleted eventId
  | .cancelled, .attemptCancelled eventId
  | .unknown, .attemptMarkedUnknown eventId => eventId = attemptId
  | .failed, .attemptFailed eventId eventFailure =>
    eventId = attemptId && some eventFailure = failure
  | _, _ => false

/-- The fault of a projection that does not fit the ledger. -/
def requireProjection (area : CorruptionArea) (fits : Bool) : Except StoreError Unit :=
  if fits then .ok () else .error (.corruptData area)

/-- A column that names an event, and the column of what it told: both are set or none. -/
def toldBy {α : Type} (tells : EventEnvelope → α → Bool) : Option EventEnvelope → Option α → Bool
  | none, none => true
  | some event, some value => tells event value
  | _, _ => false

section Rows

variable (sessionId : SessionId)

def InputRow.record (row : InputRow) : AdmittedInputRecord :=
  ⟨sessionId, row.inputId, row.admittedSequence, row.prompt, row.deliveryMode, row.state,
    row.admittedAt⟩

def InputRow.validate (row : InputRow) (event : EventEnvelope) :
    Except StoreError AdmittedInputRecord := do
  requireProjection .inputProjection row.check
  requireProjection .inputProjection
    (event.eventId = row.admittedEventId && event.sessionId = sessionId &&
      event.sequence = row.admittedSequence && event.occurredAt = row.admittedAt &&
      event.payload = .inputAdmitted row.inputId row.prompt row.deliveryMode)
  .ok (row.record sessionId)

def AttemptRow.record (row : AttemptRow) : AttemptRecord :=
  ⟨sessionId, row.attemptId, row.inputId, row.model, row.retryOf, row.state, row.preparedSequence,
    row.preparedAt, row.startedAt, row.settledAt, row.cancellationRequestedAt, row.usage,
    row.failure⟩

/-- An event of the session at a time. -/
def EventEnvelope.saidAt (tells : EventPayload → Bool) (event : EventEnvelope)
    (at_ : TimestampMillis) : Bool :=
  event.sessionId = sessionId && event.occurredAt = at_ && tells event.payload

def AttemptRow.validate (row : AttemptRow) (prepared : EventEnvelope)
    (started settled cancellation usage : Option EventEnvelope) :
    Except StoreError AttemptRecord := do
  requireProjection .attemptProjection row.timesCheck
  requireProjection .attemptProjection (decide (row.state = .failed) == row.failure.isSome)
  requireProjection .attemptProjection
    (prepared.eventId = row.preparedEventId && prepared.sessionId = sessionId &&
      prepared.sequence = row.preparedSequence && prepared.occurredAt = row.preparedAt &&
      prepared.payload = .attemptPrepared row.attemptId row.inputId row.model row.retryOf)
  requireProjection .attemptProjection
    (toldBy (EventEnvelope.saidAt sessionId fun payload => payload = .attemptStarted row.attemptId)
      started row.startedAt)
  requireProjection .attemptProjection
    ((row.settledAt.isSome || !row.state.isSettled) &&
      toldBy (EventEnvelope.saidAt sessionId fun payload =>
        settledPayloadMatches payload row.attemptId row.state row.failure) settled row.settledAt)
  requireProjection .attemptProjection
    (toldBy (EventEnvelope.saidAt sessionId fun payload =>
      payload = .attemptCancellationRequested row.attemptId) cancellation
      row.cancellationRequestedAt)
  requireProjection .attemptProjection
    (toldBy (fun event usage => event.sessionId = sessionId &&
      event.payload = .attemptUsageRecorded row.attemptId usage) usage row.usage)
  .ok (row.record sessionId)

def SegmentRow.validate (row : SegmentRow) (message : MessageRow) (event : EventEnvelope) :
    Except StoreError Unit := do
  requireProjection .transcriptProjection
    (message.firstSequence.get ≤ row.eventSequence.get &&
      row.eventSequence.get ≤ message.lastSequence.get)
  requireProjection .transcriptProjection
    (event.eventId = row.sourceEventId && event.sessionId = sessionId &&
      event.sequence = row.eventSequence &&
      event.payload.textFor message.source = some row.content)

end Rows

namespace SessionTables

variable (t : SessionTables)

/-- A subquery for the event that a column of a row names. -/
def columnEvent (eventId : EventId) : Except StoreError EventEnvelope :=
  match t.events.find? eventId with
  | none => .error .backend
  | some event => .ok event

def decodeOptionalProjectionEvent : Option EventId → Except StoreError (Option EventEnvelope)
  | none => .ok none
  | some eventId =>
    match t.events.find? eventId with
    | none => .error (.corruptData .attemptProjection)
    | some event => .ok (some event)

/-- `ORDER BY` a column of sequences. -/
def orderedBy {α : Type} (sequence : α → SessionSequence) (rows : List α) : List α :=
  rows.mergeSort fun a b => (sequence a).get ≤ (sequence b).get

section Load

variable (sessionId : SessionId)

def readInput (row : InputRow) : Except StoreError AdmittedInputRecord := do
  let event ← t.columnEvent row.admittedEventId
  row.validate sessionId event

def loadAdmittedInputs : Except StoreError (List AdmittedInputRecord) :=
  (orderedBy InputRow.admittedSequence (t.inputsOf sessionId)).mapM (t.readInput sessionId)

def readAttempt (row : AttemptRow) : Except StoreError AttemptRecord := do
  let prepared ← t.columnEvent row.preparedEventId
  let started ← t.decodeOptionalProjectionEvent row.startedEventId
  let settled ← t.decodeOptionalProjectionEvent row.settledEventId
  let cancellation ← t.decodeOptionalProjectionEvent row.cancellationRequestedEventId
  let usage ← t.decodeOptionalProjectionEvent row.usageEventId
  row.validate sessionId prepared started settled cancellation usage

def loadAttempts : Except StoreError (List AttemptRecord) :=
  (orderedBy AttemptRow.preparedSequence (t.attemptsOf sessionId)).mapM (t.readAttempt sessionId)

/-- The segments of a message, each after the one before it. -/
def validateSegments (message : MessageRow) (previous : Option SessionSequence) :
    List SegmentRow → Except StoreError Unit
  | [] => .ok ()
  | segment :: rest => do
    let event ← t.columnEvent segment.sourceEventId
    segment.validate sessionId message event
    requireProjection .transcriptProjection
      (previous.all fun sequence => sequence.get < segment.eventSequence.get)
    validateSegments message (some segment.eventSequence) rest

def validateMessage (row : MessageRow) : Except StoreError TranscriptEntry := do
  requireProjection .transcriptProjection row.check
  let segments := orderedBy SegmentRow.eventSequence
    ((t.segmentsOf sessionId).filter fun segment => segment.source = row.source)
  t.validateSegments sessionId row none segments
  requireProjection .transcriptProjection (!segments.isEmpty)
  match TranscriptText.new (String.join (segments.map SegmentRow.content)) with
  | .error _ => .error (.corruptData .transcriptProjection)
  | .ok content =>
    .ok ⟨sessionId, row.source, row.role, row.state, row.firstSequence, row.lastSequence, content⟩

def loadTranscript : Except StoreError (List TranscriptEntry) :=
  (orderedBy MessageRow.firstSequence (t.messagesOf sessionId)).mapM (t.validateMessage sessionId)

end Load

end SessionTables

namespace StreamScan

variable {scan next : StreamScan} {events : List EventEnvelope}

/-- The sequences of a scanned stream are consecutive. -/
theorem sequences_of_run (h : run step scan events = .ok next) :
    events.map (fun event => event.sequence.get) = List.range' scan.expected events.length := by
  induction events generalizing scan with
  | nil => rfl
  | cons event events ih =>
    obtain ⟨middle, first, rest⟩ := bind_eq_ok_iff.mp h
    obtain ⟨⟨sequence, -⟩, rfl⟩ := step_eq_ok_iff.mp first
    rw [List.map_cons, ih rest, sequence]
    rfl

end StreamScan

namespace SessionTables

variable {t : SessionTables} {k : SessionId}

theorem Live.sequences (live : t.Live) (k : SessionId) :
    (t.eventsOf k).map (fun event => event.sequence.get) =
      List.range' 1 (t.eventsOf k).length := by
  obtain ⟨scan, scanned⟩ := (live.sessions k).scanned
  exact StreamScan.sequences_of_run scanned

theorem Live.ordered (live : t.Live) (k : SessionId) :
    (t.eventsOf k).Pairwise fun a b => a.sequence.get < b.sequence.get := by
  obtain ⟨scan, scanned⟩ := (live.sessions k).scanned
  exact (StreamScan.ordered_of_run scanned).1

section Read

variable {events rows : List EventEnvelope} {start after : Nat}

theorem filter_consecutive
    (consecutive : events.map (fun event => event.sequence.get) = List.range' start events.length)
    (within : start ≤ after + 1) :
    events.filter (fun event => after < event.sequence.get) = events.drop (after + 1 - start) := by
  induction events generalizing start with
  | nil => simp
  | cons event events ih =>
    rcases Nat.lt_or_eq_of_le within with before | reached
    · rw [List.map_cons, List.length_cons, List.range'_succ] at consecutive
      obtain ⟨sequence, rest⟩ := List.cons.inj consecutive
      have skipped : ¬ after < event.sequence.get := by omega
      have later : after + 1 - start = (after + 1 - (start + 1)) + 1 := by omega
      rw [List.filter_cons_of_neg (by simpa using skipped), ih rest (by omega), later,
        List.drop_succ_cons]
    · have first : after + 1 - start = 0 := by omega
      rw [first, List.drop_zero]
      refine List.filter_eq_self.mpr fun other ho => ?_
      have listed := List.mem_map_of_mem (f := fun event => event.sequence.get) ho
      rw [consecutive, List.mem_range'_1] at listed
      exact decide_eq_true (by omega)

theorem Live.readStream (live : t.Live) (stored : ∀ event ∈ rows, event ∈ t.events)
    (consecutive : rows.map (fun event => event.sequence.get) = List.range' start rows.length) :
    t.readStream start rows = .ok rows := by
  induction rows generalizing start with
  | nil => rfl
  | cons event rows ih =>
    rw [List.map_cons, List.length_cons, List.range'_succ] at consecutive
    obtain ⟨sequence, rest⟩ := List.cons.inj consecutive
    unfold SessionTables.readStream
    rw [live.validateStored (stored event List.mem_cons_self), FallibleRun.ok_bind,
      if_neg (not_not.mpr sequence),
      ih (fun other ho => stored other (List.mem_cons_of_mem _ ho)) rest]
    rfl

end Read

/-- A page holds the next events of the session. -/
theorem Live.loadEvents (live : t.Live) (k : SessionId) {after : Nat} {limit : UInt32}
    (bounded : after ≤ maxSequence) :
    t.loadEvents k after limit = .ok (((t.eventsOf k).filter fun event =>
      after < event.sequence.get).take limit.toNat) := by
  have consecutive := live.sequences k
  have drop := filter_consecutive consecutive (show 1 ≤ after + 1 by omega)
  unfold SessionTables.loadEvents
  split
  next nothing =>
    rcases nothing with rfl | reached
    · rfl
    · have none : (t.eventsOf k).filter (fun event => after < event.sequence.get) = [] := by
        refine List.filter_eq_nil_iff.mpr fun event _ => ?_
        have := event.sequence.bounded
        simpa [reached] using this
      rw [none, List.take_nil]
  next =>
    rw [if_neg (by omega), stream_eq_eventsOf (live.ordered k)]
    refine live.readStream (fun event he => ?_) ?_
    · exact (mem_eventsOf.mp (List.mem_filter.mp (List.mem_of_mem_take he)).1).1
    · rw [drop, List.map_take, List.map_drop, consecutive, List.length_take, List.length_drop,
        List.drop_range']
      have start : 1 + (after + 1 - 1) * 1 = after + 1 := by omega
      rw [start]
      rcases Nat.le_total limit.toNat ((t.eventsOf k).length - (after + 1 - 1)) with short | long
      · rw [List.take_range'_of_length_ge short, Nat.min_eq_left short]
      · rw [List.take_range'_of_length_le long, Nat.min_eq_right long]

/-- The stored sequence of the last event of a session is its version. -/
theorem Live.lastDurableSequence (live : t.Live) (k : SessionId) :
    lastDurableSequence k t.events.rows = t.currentSessionVersion k := by
  have last : ((t.eventsOf k).getLast?.map fun event => event.sequence.get) =
      (List.range' 1 (t.eventsOf k).length).getLast? := by
    rw [← live.sequences, List.getLast?_map]
  rw [(live.sessions k).version, AutoHarness.lastDurableSequence]
  change ((t.eventsOf k).getLast?.map fun event => event.sequence.get).getD 0 = _
  rw [last, List.getLast?_range']
  split
  next none => exact none.symm
  next => exact Nat.add_sub_cancel_left 1 _

theorem new_get (sequence : SessionSequence) : SessionSequence.new sequence.get = .ok sequence := by
  have positive := sequence.positive
  unfold SessionSequence.new
  rw [dif_neg (by omega), dif_pos sequence.bounded]

theorem Live.summarize {row : SessionRow} (live : t.Live) (listed : row ∈ t.sessions) :
    ∃ lastSequence, t.summarize row = .ok ⟨row.sessionId, lastSequence⟩ ∧
      (t.eventsOf row.sessionId).getLast?.map EventEnvelope.sequence = some lastSequence := by
  have found : t.sessions.find? row.sessionId = some row :=
    KeyedTable.find?_eq_some_iff.mpr ⟨listed, rfl⟩
  have own := live.sessions row.sessionId
  have nonempty : t.eventsOf row.sessionId ≠ [] := by
    intro empty
    rw [own.unknown empty] at found
    cases found
  have positive := List.length_pos_iff.mpr nonempty
  have version : row.lastSequence = (t.eventsOf row.sessionId).length := by
    have version := own.version
    rwa [currentSessionVersion, found] at version
  have sequences := live.sequences row.sessionId
  obtain ⟨last, hl⟩ := Option.isSome_iff_exists.mp (List.getLast?_isSome.mpr nonempty)
  have final : last.sequence.get = row.lastSequence := by
    have ends := congrArg List.getLast? sequences
    rw [List.getLast?_map, hl, List.getLast?_range', if_neg (by omega)] at ends
    have value : last.sequence.get = 1 + (t.eventsOf row.sessionId).length - 1 :=
      Option.some.inj ends
    omega
  have valid : SessionSequence.new row.lastSequence = .ok last.sequence := by
    rw [← final]
    exact new_get last.sequence
  have least : (List.range' 1 (t.eventsOf row.sessionId).length).min? = some 1 := by
    refine List.min?_eq_some_iff.mpr ⟨List.mem_range'_1.mpr (by omega), fun value hv => ?_⟩
    exact (List.mem_range'_1.mp hv).1
  have greatest : (List.range' 1 (t.eventsOf row.sessionId).length).max? =
      some row.lastSequence := by
    refine List.max?_eq_some_iff.mpr ⟨List.mem_range'_1.mpr (by omega), fun value hv => ?_⟩
    have := (List.mem_range'_1.mp hv).2
    omega
  refine ⟨last.sequence, ?_, by rw [hl]; rfl⟩
  have length : ((t.eventsOf row.sessionId).map fun event => event.sequence.get).length =
      row.lastSequence := by
    rw [List.length_map, version]
  unfold SessionTables.summarize
  simp only [valid]
  rw [sequences] at length ⊢
  simp [least, greatest, length]

theorem Live.faithfulReads_listed (live : t.Live) :
    ∃ summaries, t.listSessions = .ok summaries ∧
      (summaries.map SessionSummary.sessionId).Nodup ∧
      (∀ event ∈ t.events, event.sessionId ∈ summaries.map SessionSummary.sessionId) ∧
      ∀ summary ∈ summaries, (t.eventsOf summary.sessionId).getLast?.map EventEnvelope.sequence =
        some summary.lastSequence := by
  have read : ∀ row ∈ t.sessions.rows.mergeSort SessionRow.listedBefore,
      ∃ summary, t.summarize row = .ok summary := by
    intro row hr
    obtain ⟨lastSequence, summarized, -⟩ := live.summarize (List.mem_mergeSort.mp hr)
    exact ⟨_, summarized⟩
  obtain ⟨summaries, listed⟩ := FallibleRun.mapM_ok_iff.mpr read
  have ids : summaries.map SessionSummary.sessionId =
      (t.sessions.rows.mergeSort SessionRow.listedBefore).map SessionRow.sessionId := by
    refine FallibleRun.mapM_map listed fun row hr summary made => ?_
    obtain ⟨lastSequence, summarized, -⟩ := live.summarize (List.mem_mergeSort.mp hr)
    cases summarized.symm.trans made
    rfl
  refine ⟨summaries, listed, ?_, fun event he => ?_, fun summary hs => ?_⟩
  · rw [ids]
    exact ((List.mergeSort_perm _ _).map _).nodup_iff.mpr t.sessions.distinct
  · obtain ⟨row, hr, key⟩ := hasSession_iff.mp (live.sourced.ledger.session event he)
    rw [ids, ← key]
    exact List.mem_map_of_mem (List.mem_mergeSort.mpr hr)
  · obtain ⟨row, hr, made⟩ := (FallibleRun.mapM_mem listed).1 summary hs
    obtain ⟨lastSequence, summarized, last⟩ := live.summarize (List.mem_mergeSort.mp hr)
    cases summarized.symm.trans made
    exact last

theorem mapM_ok_self {α ε : Type} (xs : List α) : xs.mapM (Except.ok (ε := ε)) = .ok xs := by
  have same : xs.mapM (Except.ok (ε := ε)) = .ok (xs.map id) :=
    FallibleRun.mapM_eq_ok fun _ _ => rfl
  rw [same, List.map_id]

theorem Live.faithfulPages (live : t.Live) (k : SessionId) (pageSize : UInt32) :
    Paging.PagesOf (t.eventsOf k) (ε := StoreError) .ok (fun event => event.sequence.get)
      (fun after => t.loadEvents k after pageSize) pageSize.toNat 0 0 := by
  intro front back entries split read
  cases Except.ok.inj ((mapM_ok_self front).symm.trans read)
  have ordered := live.ordered k
  rw [split] at ordered
  have behind : (t.eventsOf k).filter (fun event =>
      (front.getLast?.map fun event => event.sequence.get).getD 0 < event.sequence.get) = back := by
    rw [split]
    cases ends : front.getLast? with
    | none =>
      rw [List.getLast?_eq_none_iff.mp ends, List.nil_append]
      exact List.filter_eq_self.mpr fun event _ => decide_eq_true event.sequence.positive
    | some last =>
      refine Paging.filter_behind (fun a b before => ?_)
        (ordered.imp fun before => decide_eq_true before) ends
      exact decide_eq_false (Nat.lt_asymm (of_decide_eq_true before))
  have bounded : (front.getLast?.map fun event => event.sequence.get).getD 0 ≤ maxSequence := by
    cases front.getLast? with
    | none => exact Nat.zero_le _
    | some last => exact last.sequence.bounded
  refine (live.loadEvents k bounded).trans ?_
  rw [behind, mapM_ok_self]
  simp [Except.map]

/-- The page loop of an export ends for every page size and collects the whole stream, each event
once and in order. -/
theorem loadAllEvents_complete {history : List SessionTransaction} {pageSize : UInt32} {fuel : Nat}
    (accepted : run transact .empty history = .ok t) (positive : pageSize ≠ 0)
    (enough : (t.eventsOf k).length < fuel) :
    t.loadAllEvents pageSize fuel k = some (.ok (t.eventsOf k)) := by
  have pages := (history_live accepted).faithfulPages k pageSize
  have size : 0 < pageSize.toNat := by
    refine Nat.pos_of_ne_zero fun zero => positive ?_
    exact UInt32.toNat_inj.mp zero
  obtain ⟨result, collected, spec⟩ : ∃ result, t.loadAllEvents pageSize fuel k = some result ∧
      ∀ out, result = .ok out ↔ ∃ found, (t.eventsOf k).mapM (Except.ok (ε := StoreError)) =
        .ok found ∧ found.mapM (Except.ok (ε := StoreError)) = .ok out :=
    Paging.collect_spec pages size enough
  rw [collected, (spec _).mpr ⟨_, mapM_ok_self _, mapM_ok_self _⟩]

/-- The stream of the sample session in pages of two events. -/
theorem loadAllEvents_complete_sample :
    ∃ t, run transact .empty sampleHistory = .ok t ∧
      t.loadAllEvents 2 30 sampleSession = some (.ok (t.eventsOf sampleSession)) :=
  ⟨_, rfl, loadAllEvents_complete (rfl : run transact .empty sampleHistory = _) (by decide)
    (by decide)⟩

end SessionTables

end AutoHarness
