import AutoHarness.SessionSourced

namespace AutoHarness

open Interleaving (project)
open KeyedTable (alter RowMap)

namespace SessionTables

section Rows

variable (t : SessionTables) (sessionId : SessionId)

def eventsOf : List EventEnvelope := project EventEnvelope.sessionId sessionId t.events.rows

def inputsOf : List InputRow := project InputRow.sessionId sessionId t.inputs.rows

def attemptsOf : List AttemptRow := project AttemptRow.sessionId sessionId t.attempts.rows

def messagesOf : List MessageRow := project MessageRow.sessionId sessionId t.messages.rows

def segmentsOf : List SegmentRow := project SegmentRow.sessionId sessionId t.segments.rows

def bindingsOf : List ContextTurnBindingRow :=
  project ContextTurnBindingRow.sessionId sessionId t.bindings.rows

end Rows

/-- The projections of a session are those of the view, before rows that wait for their event. -/
structure Mirrors (t : SessionTables) (v : SessionView) (sessionId : SessionId)
    (restInputs : List InputRow) (restAttempts : List AttemptRow) : Prop where
  header : t.sessions.find? sessionId = some v.header
  inputs : t.inputsOf sessionId = v.inputs ++ restInputs
  attempts : t.attemptsOf sessionId = v.attempts ++ restAttempts
  messages : t.messagesOf sessionId = v.messages
  segments : t.segmentsOf sessionId = v.segments
  bindings : t.bindingsOf sessionId = v.bindings

/-- The projections of a session are the same. -/
structure AgreeAt (t u : SessionTables) (sessionId : SessionId) : Prop where
  header : t.sessions.find? sessionId = u.sessions.find? sessionId
  inputs : t.inputsOf sessionId = u.inputsOf sessionId
  attempts : t.attemptsOf sessionId = u.attemptsOf sessionId
  messages : t.messagesOf sessionId = u.messagesOf sessionId
  segments : t.segmentsOf sessionId = u.segmentsOf sessionId
  bindings : t.bindingsOf sessionId = u.bindingsOf sessionId

variable {t u w : SessionTables} {v : SessionView} {sessionId k : SessionId}
  {restI : List InputRow} {restA : List AttemptRow}

theorem AgreeAt.refl (t : SessionTables) (k : SessionId) : AgreeAt t t k :=
  ⟨rfl, rfl, rfl, rfl, rfl, rfl⟩

theorem AgreeAt.trans (h : AgreeAt t u k) (h' : AgreeAt u w k) : AgreeAt t w k :=
  ⟨h.header.trans h'.header, h.inputs.trans h'.inputs, h.attempts.trans h'.attempts,
    h.messages.trans h'.messages, h.segments.trans h'.segments, h.bindings.trans h'.bindings⟩

theorem Mirrors.agree (h : Mirrors t v k restI restA) (same : AgreeAt t u k) :
    Mirrors u v k restI restA where
  header := same.header.symm.trans h.header
  inputs := same.inputs.symm.trans h.inputs
  attempts := same.attempts.symm.trans h.attempts
  messages := same.messages.symm.trans h.messages
  segments := same.segments.symm.trans h.segments
  bindings := same.bindings.symm.trans h.bindings

/-- Only the projections of one session change. -/
structure Framed (t u : SessionTables) (sessionId : SessionId) : Prop where
  elsewhere : ∀ k, k ≠ sessionId → AgreeAt t u k
  events : u.events = t.events
  contextTurns : u.contextTurns = t.contextTurns

theorem Framed.refl (t : SessionTables) (sessionId : SessionId) : Framed t t sessionId :=
  ⟨fun k _ => AgreeAt.refl t k, rfl, rfl⟩

theorem Framed.trans (h : Framed t u sessionId) (h' : Framed u w sessionId) :
    Framed t w sessionId :=
  ⟨fun k hk => (h.elsewhere k hk).trans (h'.elsewhere k hk), h'.events.trans h.events,
    h'.contextTurns.trans h.contextTurns⟩

/-- Nothing that a row may refer to is lost. -/
structure Extends (t u : SessionTables) : Prop where
  events : ∀ event ∈ t.events, event ∈ u.events
  sessions : ∀ k, t.hasSession k = true → u.hasSession k = true
  inputs : ∀ row ∈ t.inputs, ∃ r ∈ u.inputs, r.key = row.key
  attempts : ∀ k a, t.hasAttempt k a = true → u.hasAttempt k a = true
  turns : ∀ turn ∈ t.contextTurns, turn ∈ u.contextTurns

theorem Extends.sourcedBy (h : Extends t u) {eventId : EventId} {P : EventPayload → Prop}
    (hp : t.SourcedBy k eventId P) : u.SourcedBy k eventId P := by
  obtain ⟨event, he, rest⟩ := hp
  exact ⟨event, h.events event he, rest⟩

theorem Extends.inputSourced (h : Extends t u) {row : InputRow} (hr : t.InputSourced row) :
    u.InputSourced row :=
  ⟨hr.check, h.sessions _ hr.session, h.sourcedBy hr.origin⟩

theorem Extends.attemptSourced (h : Extends t u) {row : AttemptRow} (hr : t.AttemptSourced row) :
    u.AttemptSourced row := by
  refine ⟨hr.check, h.sessions _ hr.session, ?_, fun priorId hp => h.attempts _ _ (hr.retry _ hp),
    fun column eventId hc => h.sourcedBy (hr.origin column eventId hc)⟩
  obtain ⟨input, hi, key⟩ := hr.input
  obtain ⟨r, hr, same⟩ := h.inputs input hi
  exact ⟨r, hr, same.trans key⟩

theorem Extends.messageSourced (h : Extends t u) {row : MessageRow} (hr : t.MessageSourced row) :
    u.MessageSourced row := by
  refine ⟨h.sessions _ hr.session, ?_⟩
  obtain ⟨event, he, rest⟩ := hr.origin
  exact ⟨event, h.events event he, rest⟩

theorem Extends.segmentSourced (h : Extends t u) {row : SegmentRow} (hr : t.SegmentSourced row) :
    u.SegmentSourced row := by
  obtain ⟨event, he, rest⟩ := hr
  exact ⟨event, h.events event he, rest⟩

theorem Extends.bindingSourced (h : Extends t u) {row : ContextTurnBindingRow}
    (hr : t.BindingSourced row) : u.BindingSourced row :=
  ⟨h.turns _ hr.turn, h.sourcedBy hr.origin⟩

/-- The old rows stay sourced where the ledger and the keys stay; the new ones are to be shown. -/
theorem Sourced.extend (s : t.Sourced) (h : Extends t u) (events : u.events = t.events)
    (inputs : ∀ row ∈ u.inputs, row ∈ t.inputs ∨ u.InputSourced row)
    (attempts : ∀ row ∈ u.attempts, row ∈ t.attempts ∨ u.AttemptSourced row)
    (messages : ∀ row ∈ u.messages, row ∈ t.messages ∨ u.MessageSourced row)
    (segments : ∀ row ∈ u.segments, row ∈ t.segments ∨ u.SegmentSourced row)
    (bindings : ∀ row ∈ u.bindings, row ∈ t.bindings ∨ u.BindingSourced row) : u.Sourced where
  ledger := by
    refine ⟨?_, ?_, ?_, ?_⟩
    · rw [events]
      exact fun event he => h.sessions _ (s.ledger.session event he)
    · rw [events]
      exact s.ledger.sequence
    · rw [events]
      exact s.ledger.command
    · rw [events]
      exact s.ledger.cause
  inputs row hr := (inputs row hr).elim (fun old => h.inputSourced (s.inputs row old)) id
  attempts row hr := (attempts row hr).elim (fun old => h.attemptSourced (s.attempts row old)) id
  messages row hr := (messages row hr).elim (fun old => h.messageSourced (s.messages row old)) id
  segments row hr := (segments row hr).elim (fun old => h.segmentSourced (s.segments row old)) id
  bindings row hr := (bindings row hr).elim (fun old => h.bindingSourced (s.bindings row old)) id

section Members

variable (m : Mirrors t v sessionId restI restA)
include m

theorem Mirrors.mem_input {row : InputRow} (h : row ∈ v.inputs) :
    row ∈ t.inputs ∧ row.sessionId = sessionId := by
  have mem : row ∈ t.inputsOf sessionId := by
    rw [m.inputs]
    exact List.mem_append_left _ h
  exact Interleaving.mem_project.mp mem

theorem Mirrors.mem_attempt {row : AttemptRow} (h : row ∈ v.attempts) :
    row ∈ t.attempts ∧ row.sessionId = sessionId := by
  have mem : row ∈ t.attemptsOf sessionId := by
    rw [m.attempts]
    exact List.mem_append_left _ h
  exact Interleaving.mem_project.mp mem

theorem Mirrors.mem_message_iff {row : MessageRow} :
    row ∈ v.messages ↔ row ∈ t.messages ∧ row.sessionId = sessionId := by
  rw [← m.messages]
  exact Interleaving.mem_project

theorem Mirrors.mem_segment_iff {row : SegmentRow} :
    row ∈ v.segments ↔ row ∈ t.segments ∧ row.sessionId = sessionId := by
  rw [← m.segments]
  exact Interleaving.mem_project

theorem Mirrors.mem_binding_iff {row : ContextTurnBindingRow} :
    row ∈ v.bindings ↔ row ∈ t.bindings ∧ row.sessionId = sessionId := by
  rw [← m.bindings]
  exact Interleaving.mem_project

theorem Mirrors.hasSession : t.hasSession sessionId = true := by
  rw [SessionTables.hasSession, m.header]
  rfl

theorem Mirrors.find?_attempt {row : AttemptRow} (h : row ∈ v.attempts) :
    t.attempts.find? row.attemptId = some row :=
  KeyedTable.find?_eq_some_iff.mpr ⟨(m.mem_attempt h).1, rfl⟩

/-- The waiting rows have keys of their own. -/
theorem Mirrors.attempts_nodup : ((v.attempts ++ restA).map AttemptRow.attemptId).Nodup := by
  rw [← m.attempts]
  exact t.attempts.distinct.sublist (List.filter_sublist.map _)

theorem Mirrors.inputs_nodup : ((v.inputs ++ restI).map InputRow.key).Nodup := by
  rw [← m.inputs]
  exact t.inputs.distinct.sublist (List.filter_sublist.map _)

end Members

end SessionTables

end AutoHarness
