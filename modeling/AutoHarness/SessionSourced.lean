import AutoHarness.SessionView

namespace AutoHarness

/-- The columns of an attempt that refer to events. -/
inductive AttemptColumn where
  | prepared
  | started
  | settled
  | cancellation
  | usage
deriving DecidableEq

def AttemptRow.eventAt (row : AttemptRow) : AttemptColumn → Option EventId
  | .prepared => some row.preparedEventId
  | .started => row.startedEventId
  | .settled => row.settledEventId
  | .cancellation => row.cancellationRequestedEventId
  | .usage => row.usageEventId

theorem AttemptRow.mem_eventIds_iff {row : AttemptRow} {eventId : EventId} :
    eventId ∈ row.eventIds ↔ ∃ column, row.eventAt column = some eventId := by
  constructor
  · intro h
    simp only [AttemptRow.eventIds, List.mem_cons, List.mem_append,
      Option.mem_toList] at h
    rcases h with rfl | ((h | h) | h) | h
    · exact ⟨.prepared, rfl⟩
    · exact ⟨.started, h⟩
    · exact ⟨.settled, h⟩
    · exact ⟨.cancellation, h⟩
    · exact ⟨.usage, h⟩
  · intro h
    obtain ⟨column, h⟩ := h
    cases column <;> simp_all [AttemptRow.eventIds, AttemptRow.eventAt]

theorem sharesValue_eq_true_iff {a b : Option EventId} :
    sharesValue a b = true ↔ ∃ eventId, a = some eventId ∧ b = some eventId := by
  cases a <;> simp [sharesValue, eq_comm]

theorem AttemptRow.sharesEvent_iff {row other : AttemptRow} :
    row.sharesEvent other = true ↔
      ∃ column eventId, row.eventAt column = some eventId ∧
        other.eventAt column = some eventId := by
  simp only [AttemptRow.sharesEvent, Bool.or_eq_true, sharesValue_eq_true_iff, decide_eq_true_eq]
  constructor
  · intro h
    rcases h with (((h | h) | h) | h) | h
    · exact ⟨.prepared, row.preparedEventId, rfl, congrArg some h.symm⟩
    · exact ⟨.started, h⟩
    · exact ⟨.settled, h⟩
    · exact ⟨.cancellation, h⟩
    · exact ⟨.usage, h⟩
  · intro h
    obtain ⟨column, eventId, hr, ho⟩ := h
    cases column with
    | prepared => simp_all [AttemptRow.eventAt]
    | started => exact .inl (.inl (.inl (.inr ⟨eventId, hr, ho⟩)))
    | settled => exact .inl (.inl (.inr ⟨eventId, hr, ho⟩))
    | cancellation => exact .inl (.inr ⟨eventId, hr, ho⟩)
    | usage => exact .inr ⟨eventId, hr, ho⟩

/-- The column of an attempt that a payload sets. -/
def EventPayload.attemptColumn? : EventPayload → Option (AttemptColumn × AttemptId)
  | .attemptPrepared attemptId _ _ _ => some (.prepared, attemptId)
  | .attemptStarted attemptId => some (.started, attemptId)
  | .attemptCompleted attemptId | .attemptFailed attemptId _ | .attemptCancelled attemptId
  | .attemptMarkedUnknown attemptId => some (.settled, attemptId)
  | .attemptCancellationRequested attemptId => some (.cancellation, attemptId)
  | .attemptUsageRecorded attemptId _ => some (.usage, attemptId)
  | _ => none

/-- The message that a payload writes to. -/
def EventPayload.messageSource? : EventPayload → Option TranscriptSource
  | .inputAdmitted inputId _ _ => some (.input inputId)
  | .attemptTextAppended attemptId _ => some (.attempt attemptId)
  | _ => none

def ContextTurnBindingRow.turn (row : ContextTurnBindingRow) : ContextTurnKey :=
  ⟨row.sessionId, row.attemptId, row.runTurn, row.contextTurnId, row.manifestHash⟩

namespace SessionTables

variable {t u : SessionTables} {sessionId : SessionId} {attemptId : AttemptId} {eventId : EventId}

theorem hasSession_iff :
    t.hasSession sessionId = true ↔ ∃ row ∈ t.sessions, row.sessionId = sessionId := by
  simp only [hasSession, Option.isSome_iff_exists, KeyedTable.find?_eq_some_iff]

theorem hasEvent_iff : t.hasEvent sessionId eventId = true ↔
    ∃ event ∈ t.events, event.eventId = eventId ∧ event.sessionId = sessionId := by
  simp only [hasEvent, Option.any_eq_true, KeyedTable.find?_eq_some_iff, decide_eq_true_eq]
  exact exists_congr fun event => and_assoc

theorem hasAttempt_iff : t.hasAttempt sessionId attemptId = true ↔
    ∃ row ∈ t.attempts, row.attemptId = attemptId ∧ row.sessionId = sessionId := by
  simp only [hasAttempt, Option.any_eq_true, KeyedTable.find?_eq_some_iff, decide_eq_true_eq]
  exact exists_congr fun row => and_assoc

/-- An event of the session with the identity and a payload of the kind is in the ledger. -/
def SourcedBy (t : SessionTables) (sessionId : SessionId) (eventId : EventId)
    (P : EventPayload → Prop) : Prop :=
  ∃ event ∈ t.events, event.eventId = eventId ∧ event.sessionId = sessionId ∧ P event.payload

theorem SourcedBy.hasEvent {P : EventPayload → Prop} (h : t.SourcedBy sessionId eventId P) :
    t.hasEvent sessionId eventId = true := by
  obtain ⟨event, he, hid, hs, -⟩ := h
  exact hasEvent_iff.mpr ⟨event, he, hid, hs⟩

/-- One event is the source of both. -/
theorem SourcedBy.both {k : SessionId} {P Q : EventPayload → Prop}
    (hp : t.SourcedBy sessionId eventId P) (hq : t.SourcedBy k eventId Q) :
    ∃ payload, P payload ∧ Q payload := by
  obtain ⟨a, ha, ida, -, hpa⟩ := hp
  obtain ⟨b, hb, idb, -, hqb⟩ := hq
  have same : a = b := KeyedTable.eq_of_key ha hb (ida.trans idb.symm)
  exact ⟨a.payload, hpa, same ▸ hqb⟩

def InputOrigin (t : SessionTables) (row : InputRow) : Prop :=
  t.SourcedBy row.sessionId row.admittedEventId fun payload =>
    payload.messageSource? = some (.input row.inputId)

def AttemptOrigin (t : SessionTables) (row : AttemptRow) : Prop :=
  ∀ column eventId, row.eventAt column = some eventId →
    t.SourcedBy row.sessionId eventId fun payload =>
      payload.attemptColumn? = some (column, row.attemptId)

structure InputSourced (t : SessionTables) (row : InputRow) : Prop where
  check : row.check = true
  session : t.hasSession row.sessionId = true
  origin : t.InputOrigin row

structure AttemptSourced (t : SessionTables) (row : AttemptRow) : Prop where
  check : row.check = true
  session : t.hasSession row.sessionId = true
  input : ∃ input ∈ t.inputs, input.key = (row.sessionId, row.inputId)
  retry : ∀ priorId, row.retryOf = some priorId → t.hasAttempt row.sessionId priorId = true
  origin : t.AttemptOrigin row

structure MessageSourced (t : SessionTables) (row : MessageRow) : Prop where
  session : t.hasSession row.sessionId = true
  origin : ∃ event ∈ t.events, event.sessionId = row.sessionId ∧
    event.sequence = row.firstSequence ∧ event.payload.messageSource? = some row.source

def SegmentSourced (t : SessionTables) (row : SegmentRow) : Prop :=
  ∃ event ∈ t.events, event.eventId = row.sourceEventId ∧ event.sessionId = row.sessionId ∧
    event.sequence = row.eventSequence ∧ event.payload.messageSource? = some row.source

structure BindingSourced (t : SessionTables) (row : ContextTurnBindingRow) : Prop where
  turn : row.turn ∈ t.contextTurns
  origin : t.SourcedBy row.sessionId row.boundEventId fun payload =>
    payload = row.turn.boundPayload

/-- What the constraints of the event table give for any two of its rows. -/
structure Ledger (t : SessionTables) : Prop where
  session : ∀ event ∈ t.events, t.hasSession event.sessionId = true
  sequence : ∀ a ∈ t.events, ∀ b ∈ t.events, a.sessionId = b.sessionId →
    a.sequence = b.sequence → a = b
  command : ∀ a ∈ t.events, ∀ b ∈ t.events, a.causingCommand?.isSome = true →
    a.causingCommand? = b.causingCommand? → a = b
  cause : ∀ event ∈ t.events, ∀ causeId, event.causation = .event causeId →
    ∃ cause ∈ t.events, cause.eventId = causeId ∧ cause.sessionId = event.sessionId ∧
      cause.sequence.get < event.sequence.get

/-- Every reference of a projected row to the ledger goes to an event about that row. -/
structure Sourced (t : SessionTables) : Prop where
  ledger : t.Ledger
  inputs : ∀ row ∈ t.inputs, t.InputSourced row
  attempts : ∀ row ∈ t.attempts, t.AttemptSourced row
  messages : ∀ row ∈ t.messages, t.MessageSourced row
  segments : ∀ row ∈ t.segments, t.SegmentSourced row
  bindings : ∀ row ∈ t.bindings, t.BindingSourced row

section Constraints

variable (s : t.Sourced)
include s

theorem Sourced.inputAllowed {row : InputRow} (h : t.InputSourced row) :
    t.inputAllowed row = true := by
  have unique : ∀ other ∈ t.inputs, other.key = row.key ∨
      other.admittedEventId ≠ row.admittedEventId := by
    intro other ho
    by_cases same : other.admittedEventId = row.admittedEventId
    · left
      have origin := (s.inputs other ho).origin
      obtain ⟨event, he, hid, hs, hp⟩ := h.origin
      obtain ⟨event', he', hid', hs', hp'⟩ := origin
      have eq : event' = event :=
        KeyedTable.eq_of_key he' he (hid'.trans (same.trans hid.symm))
      subst eq
      rw [hp'] at hp
      simp only [Option.some.injEq, TranscriptSource.input.injEq] at hp
      exact Prod.ext (hs'.symm.trans hs) hp
    · exact .inr same
  simp only [SessionTables.inputAllowed, Bool.and_eq_true, List.all_eq_true, Bool.or_eq_true,
    decide_eq_true_eq, Bool.not_eq_true', decide_eq_false_iff_not]
  exact ⟨⟨⟨h.check, h.session⟩, h.origin.hasEvent⟩, unique⟩

theorem Sourced.attemptAllowed {row : AttemptRow} (h : t.AttemptSourced row) :
    t.attemptAllowed row = true := by
  have unique : ∀ other ∈ t.attempts, other.attemptId = row.attemptId ∨
      row.sharesEvent other = false := by
    intro other ho
    by_cases shared : row.sharesEvent other = true
    · left
      obtain ⟨column, eventId, hr, hother⟩ := AttemptRow.sharesEvent_iff.mp shared
      obtain ⟨payload, hp, hq⟩ :=
        (h.origin column eventId hr).both ((s.attempts other ho).origin column eventId hother)
      rw [hp] at hq
      simp only [Option.some.injEq, Prod.mk.injEq, true_and] at hq
      exact hq.symm
    · exact .inr (Bool.eq_false_iff.mpr shared)
  have input : (t.inputs.find? (row.sessionId, row.inputId)).isSome = true := by
    obtain ⟨input, hi, key⟩ := h.input
    rw [KeyedTable.find?_eq_some_iff.mpr ⟨hi, key⟩]
    rfl
  have events : ∀ eventId ∈ row.eventIds, t.hasEvent row.sessionId eventId = true := by
    intro eventId he
    obtain ⟨column, hc⟩ := AttemptRow.mem_eventIds_iff.mp he
    exact (h.origin column eventId hc).hasEvent
  simp only [SessionTables.attemptAllowed, Bool.and_eq_true, List.all_eq_true, Bool.or_eq_true,
    decide_eq_true_eq, Bool.not_eq_true', Option.all_eq_true]
  exact ⟨⟨⟨⟨⟨h.check, h.session⟩, input⟩, h.retry⟩, events⟩, unique⟩

theorem Sourced.messageAllowed {row : MessageRow} (h : t.MessageSourced row)
    (check : row.check = true) : t.messageAllowed row = true := by
  have unique : ∀ other ∈ t.messages, other.key = row.key ∨
      ¬(other.sessionId = row.sessionId ∧ other.firstSequence = row.firstSequence) := by
    intro other ho
    by_cases same : other.sessionId = row.sessionId ∧ other.firstSequence = row.firstSequence
    · left
      obtain ⟨event, he, hs, hq, hp⟩ := h.origin
      obtain ⟨event', he', hs', hq', hp'⟩ := (s.messages other ho).origin
      have eq : event' = event := s.ledger.sequence event' he' event he
        (hs'.trans (same.1.trans hs.symm)) (hq'.trans (same.2.trans hq.symm))
      subst eq
      rw [hp'] at hp
      exact Prod.ext same.1 (Option.some.inj hp)
    · exact .inr same
  simp only [SessionTables.messageAllowed, Bool.and_eq_true, List.all_eq_true, Bool.or_eq_true,
    decide_eq_true_eq, Bool.not_eq_true', Bool.and_eq_false_iff, decide_eq_false_iff_not]
  refine ⟨⟨check, h.session⟩, fun other ho => ?_⟩
  exact (unique other ho).imp_right not_and_or.mp

theorem Sourced.segmentAllowed {row : SegmentRow} (h : t.SegmentSourced row)
    (message : ∃ m ∈ t.messages, m.key = (row.sessionId, row.source)) :
    t.segmentAllowed row = true := by
  obtain ⟨event, he, hid, hs, hq, hp⟩ := h
  have unique : ∀ other ∈ t.segments, other.key = row.key ∨
      other.sourceEventId ≠ row.sourceEventId := by
    intro other ho
    by_cases same : other.sourceEventId = row.sourceEventId
    · left
      obtain ⟨event', he', hid', hs', hq', hp'⟩ := s.segments other ho
      have eq : event' = event :=
        KeyedTable.eq_of_key he' he (hid'.trans (same.trans hid.symm))
      subst eq
      rw [hp'] at hp
      exact Prod.ext (hs'.symm.trans hs) (Prod.ext (Option.some.inj hp) (hq'.symm.trans hq))
    · exact .inr same
  have found : (t.messages.find? (row.sessionId, row.source)).isSome = true := by
    obtain ⟨m, hm, key⟩ := message
    rw [KeyedTable.find?_eq_some_iff.mpr ⟨hm, key⟩]
    rfl
  simp only [SessionTables.segmentAllowed, Bool.and_eq_true, List.all_eq_true, Bool.or_eq_true,
    decide_eq_true_eq, Bool.not_eq_true', decide_eq_false_iff_not]
  exact ⟨⟨found, hasEvent_iff.mpr ⟨event, he, hid, hs⟩⟩, unique⟩

theorem Sourced.bindingAllowed {row : ContextTurnBindingRow} (h : t.BindingSourced row)
    (positive : row.runTurn ≠ 0) (attempt : t.hasAttempt row.sessionId row.attemptId = true) :
    t.bindingAllowed row = true := by
  have found : t.contextTurns.find? row.contextTurnId = some row.turn :=
    KeyedTable.find?_eq_some_iff.mpr ⟨h.turn, rfl⟩
  have unique : ∀ other ∈ t.bindings, other.contextTurnId = row.contextTurnId ∨
      (¬(other.attemptId = row.attemptId ∧ other.runTurn = row.runTurn) ∧
        ¬(other.sessionId = row.sessionId ∧ other.boundEventId = row.boundEventId)) := by
    intro other ho
    by_cases same : other.contextTurnId = row.contextTurnId
    · exact .inl same
    · right
      have sourced := s.bindings other ho
      constructor
      · intro clash
        have eq : other.turn = row.turn := List.inj_on_of_nodup_map t.turnsDistinct sourced.turn
          h.turn (Prod.ext clash.1 clash.2)
        exact same (congrArg ContextTurnKey.contextTurnId eq)
      · intro clash
        have origin := sourced.origin
        rw [clash.2] at origin
        obtain ⟨payload, hp, hq⟩ := origin.both h.origin
        rw [hp] at hq
        simp only [ContextTurnKey.boundPayload, EventPayload.contextTurnBound.injEq] at hq
        exact same hq.2.2.1
  simp only [SessionTables.bindingAllowed, Bool.and_eq_true, List.all_eq_true, Bool.or_eq_true,
    decide_eq_true_eq, Bool.not_eq_true', Bool.and_eq_false_iff, decide_eq_false_iff_not, found,
    Option.isSome_some, true_and]
  refine ⟨⟨⟨positive, attempt⟩, h.origin.hasEvent⟩, fun other ho => ?_⟩
  exact (unique other ho).imp_right fun both => ⟨not_and_or.mp both.1, not_and_or.mp both.2⟩

end Constraints

end SessionTables

end AutoHarness
