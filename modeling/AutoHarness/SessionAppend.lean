import AutoHarness.SessionArrival

namespace AutoHarness

open FallibleRun (bind_eq_ok_iff run)

theorem AppendRequest.validateEvent_eq_ok {request : AppendRequest} {scan next : AppendScan}
    {event : EventEnvelope} (h : request.validateEvent scan event = .ok next) :
    event.sessionId = request.sessionId ∧ event.schemaVersion = eventSchemaV1 ∧
      event.sequence.get = scan.expected ∧
      (event.payload = .sessionCreated →
        request.expectedLastSequence = 0 ∧ scan.eventIds = []) ∧
      next = scan.next event := by
  unfold validateEvent at h
  split at h
  next => cases h
  next session =>
    split at h
    next => cases h
    next schema =>
      split at h
      next => cases h
      next sequence =>
        split at h
        next => cases h
        next =>
          obtain ⟨⟨⟩, -, position⟩ := bind_eq_ok_iff.mp h
          unfold validatePosition at position
          split at position
          next => cases position
          next created =>
            split at position
            next => cases position
            next =>
              refine ⟨not_not.mp session, not_not.mp schema, ?_, fun first => ?_,
                (Except.ok.inj position).symm⟩
              · omega
              · by_cases empty : scan.eventIds = []
                · refine ⟨?_, empty⟩
                  by_contra positive
                  exact created ⟨first, .inl (Nat.pos_of_ne_zero positive)⟩
                · exact (created ⟨first, .inr empty⟩).elim

namespace SessionTables

variable {t u : SessionTables} {v : SessionView} {request : AppendRequest}
  {sessionId : SessionId} {event : EventEnvelope}

theorem mem_eventsOf {k : SessionId} :
    event ∈ t.eventsOf k ↔ event ∈ t.events ∧ event.sessionId = k := Interleaving.mem_project

theorem live_empty : SessionTables.empty.Live := by
  refine ⟨⟨⟨?_, ?_, ?_, ?_⟩, ?_, ?_, ?_, ?_, ?_⟩, ?_, fun sessionId => ⟨⟨.initial, rfl⟩, ?_, ?_, ?_⟩⟩
  case refine_11 =>
    intro past event future split
    have none : past ++ event :: future = [] := split.symm
    simp at none
  case refine_12 => exact fun _ => rfl
  case refine_13 => exact fun nonempty => (nonempty rfl).elim
  all_goals
    intro row hr
    cases hr

/-- A session without events has no rows. -/
theorem Sourced.rows_of_empty (s : t.Sourced) (empty : t.eventsOf sessionId = []) :
    t.inputsOf sessionId = [] ∧ t.attemptsOf sessionId = [] ∧ t.messagesOf sessionId = [] ∧
      t.segmentsOf sessionId = [] ∧ t.bindingsOf sessionId = [] := by
  have absurd (event : EventEnvelope) (he : event ∈ t.events)
      (own : event.sessionId = sessionId) : False := by
    have mem := mem_eventsOf.mpr ⟨he, own⟩
    rw [empty] at mem
    cases mem
  refine ⟨?_, ?_, ?_, ?_, ?_⟩
  · refine Interleaving.project_of_ne fun row hr own => ?_
    obtain ⟨event, he, -, session, -⟩ := (s.inputs row hr).origin
    exact absurd event he (session.trans own)
  · refine Interleaving.project_of_ne fun row hr own => ?_
    obtain ⟨event, he, -, session, -⟩ := (s.attempts row hr).origin .prepared _ rfl
    exact absurd event he (session.trans own)
  · refine Interleaving.project_of_ne fun row hr own => ?_
    obtain ⟨event, he, session, -⟩ := (s.messages row hr).origin
    exact absurd event he (session.trans own)
  · refine Interleaving.project_of_ne fun row hr own => ?_
    obtain ⟨event, he, -, session, -⟩ := s.segments row hr
    exact absurd event he (session.trans own)
  · refine Interleaving.project_of_ne fun row hr own => ?_
    obtain ⟨event, he, -, session, -⟩ := (s.bindings row hr).origin
    exact absurd event he (session.trans own)

/-- The version of a session is the length of its stream. -/
theorem SessionLive.version (live : t.SessionLive sessionId) :
    t.currentSessionVersion sessionId = (t.eventsOf sessionId).length := by
  by_cases empty : t.eventsOf sessionId = []
  · rw [currentSessionVersion, live.unknown empty, empty]
    rfl
  · obtain ⟨workspaceId, m⟩ := live.mirrored empty
    obtain ⟨scan, scanned⟩ := live.scanned
    have last := StreamScan.lastSequence_of_run sessionId workspaceId scanned
    have expected := (StreamScan.seen_of_run scanned).expected
    rw [currentSessionVersion, m.header]
    change (SessionView.ofEvents sessionId workspaceId (t.eventsOf sessionId)).header.lastSequence = _
    omega

/-- One more event of a live session. -/
theorem appendEvent_live (live : t.Live) (stream : t.eventsOf event.sessionId ≠ [])
    (later : event.payload ≠ .sessionCreated) (version : event.schemaVersion = eventSchemaV1)
    (sequence : event.sequence.get = (t.eventsOf event.sessionId).length + 1)
    (h : t.appendEvent event = .ok u) :
    u.Live ∧ u.eventsOf event.sessionId = t.eventsOf event.sessionId ++ [event] := by
  obtain ⟨⟨⟩, caused, h⟩ := bind_eq_ok_iff.mp h
  obtain ⟨stored, inserted, projected⟩ := bind_eq_ok_iff.mp h
  have own := live.sessions event.sessionId
  obtain ⟨workspaceId, m⟩ := own.mirrored stream
  obtain ⟨scan, scanned⟩ := own.scanned
  have expected := (StreamScan.seen_of_run scanned).expected
  exact live_of_stored live.sourced live.schema (fun k _ => live.sessions k) m
    (.inl ⟨stream, later, workspaceId, rfl⟩) scanned own.admitted version
    (sequence.trans expected.symm) (validateDurableCausation_caused caused) inserted projected

/-- The rest of a batch, once its session has events. -/
theorem appendEvents_live {events : List EventEnvelope} {scan next : AppendScan} (live : t.Live)
    (stream : t.eventsOf request.sessionId ≠ [])
    (expected : scan.expected = (t.eventsOf request.sessionId).length + 1)
    (later : 0 < request.expectedLastSequence ∨ scan.eventIds ≠ [])
    (valid : run request.validateEvent scan events = .ok next)
    (h : run appendEvent t events = .ok u) : u.Live := by
  induction events generalizing t scan with
  | nil =>
    cases Except.ok.inj h
    exact live
  | cons event events ih =>
    obtain ⟨scan', validEvent, validRest⟩ := bind_eq_ok_iff.mp valid
    obtain ⟨m, appended, rest⟩ := bind_eq_ok_iff.mp h
    obtain ⟨own, version, sequence, created, rfl⟩ := AppendRequest.validateEvent_eq_ok validEvent
    have other : event.payload ≠ .sessionCreated := by
      intro first
      obtain ⟨zero, none⟩ := created first
      rcases later with positive | some
      · omega
      · exact some none
    rw [← own] at stream expected
    obtain ⟨live', grown⟩ := appendEvent_live live stream other version
      (sequence.trans expected) appended
    rw [own] at grown expected
    refine ih live' ?_ ?_ (.inr (by simp [AppendScan.next])) validRest rest
    · rw [grown]
      simp
    · rw [grown]
      simp [AppendScan.next, expected]

/-- The creation of a session. -/
theorem createSession_live {first : EventEnvelope} {opened : SessionTables} (live : t.Live)
    (empty : t.eventsOf first.sessionId = []) (created : first.payload = .sessionCreated)
    (version : first.schemaVersion = eventSchemaV1) (sequence : first.sequence.get = 1)
    (open_ : t.insertSession (.opened first first.sessionId) = .ok opened)
    (h : opened.appendEvent first = .ok u) :
    u.Live ∧ u.eventsOf first.sessionId = [first] := by
  unfold insertSession at open_
  split at open_
  next sessions inserted =>
    cases Except.ok.inj open_
    obtain ⟨⟨⟩, caused, h⟩ := bind_eq_ok_iff.mp h
    obtain ⟨stored, insertedEvent, projected⟩ := bind_eq_ok_iff.mp h
    have members := (KeyedTable.insert?_eq_some inserted).1
    have ext : Extends t { t with sessions } := by
      refine ⟨fun _ h => h, fun k h => ?_, fun r h => ⟨r, h, rfl⟩, fun _ _ h => h, fun _ h => h⟩
      obtain ⟨row, hr, key⟩ := hasSession_iff.mp h
      exact hasSession_iff.mpr ⟨row, (members row).mpr (.inl hr), key⟩
    have sourced : Sourced { t with sessions } := live.sourced.extend ext rfl (fun _ h => .inl h)
      (fun _ h => .inl h) (fun _ h => .inl h) (fun _ h => .inl h) (fun _ h => .inl h)
    have header : sessions.find? first.sessionId = some (.opened first first.sessionId) :=
      KeyedTable.find?_eq_some_iff.mpr ⟨(members _).mpr (.inr rfl), rfl⟩
    have elsewhere : ∀ k, k ≠ first.sessionId → sessions.find? k = t.sessions.find? k := by
      intro k hk
      refine Option.ext fun row => ?_
      rw [KeyedTable.find?_eq_some_iff, KeyedTable.find?_eq_some_iff, members]
      constructor
      · intro ⟨mem, key⟩
        refine ⟨mem.resolve_right fun same => hk ?_, key⟩
        rw [← key, same]
        rfl
      · intro ⟨mem, key⟩
        exact ⟨.inl mem, key⟩
    have others : ∀ k, k ≠ first.sessionId → SessionLive { t with sessions } k := by
      intro k hk
      have own := live.sessions k
      refine ⟨own.scanned, own.admitted, fun none => (elsewhere k hk).trans (own.unknown none),
        fun some => ?_⟩
      obtain ⟨workspaceId, m⟩ := own.mirrored some
      exact ⟨workspaceId, (elsewhere k hk).trans m.header, m.inputs, m.attempts, m.messages,
        m.segments, m.bindings⟩
    have rows := live.sourced.rows_of_empty empty
    have m : Mirrors { t with sessions }
        ((SessionView.initial first.sessionId none).setHeader (SessionRow.setCreated first))
        first.sessionId [] [] :=
      ⟨header, rows.1, rows.2.1, rows.2.2.1, rows.2.2.2.1, rows.2.2.2.2⟩
    have scanned : run StreamScan.step .initial (eventsOf { t with sessions } first.sessionId) =
        .ok .initial := by
      change run StreamScan.step .initial (t.eventsOf first.sessionId) = _
      rw [empty]
      rfl
    have admitted : Admitted { t with sessions } first.sessionId
        (eventsOf { t with sessions } first.sessionId) := by
      intro past event future split
      change t.eventsOf first.sessionId = _ at split
      rw [empty] at split
      simp at split
    have arrived := live_of_stored sourced live.schema others m (.inr ⟨empty, created, rfl⟩)
      scanned admitted version sequence (validateDurableCausation_caused caused) insertedEvent
      projected
    refine ⟨arrived.1, arrived.2.trans ?_⟩
    change t.eventsOf first.sessionId ++ [first] = [first]
    rw [empty, List.nil_append]
  next => cases open_

theorem commitBatch_live {first last : EventEnvelope} {receipt : AppendReceipt} (live : t.Live)
    (valid : request.validate = .ok ()) (head : request.events.head? = some first)
    (h : t.commitBatch request first last = .ok (receipt, u)) : u.Live := by
  unfold commitBatch at h
  split at h
  next => cases h
  next version =>
    have version := not_not.mp version
    obtain ⟨opened, open_, h⟩ := bind_eq_ok_iff.mp h
    obtain ⟨appended, ran, h⟩ := bind_eq_ok_iff.mp h
    cases Except.ok.inj h
    unfold AppendRequest.validate at valid
    split at valid
    next => cases valid
    next =>
      split at valid
      next => cases valid
      next =>
        obtain ⟨next, valid, -⟩ := bind_eq_ok_iff.mp valid
        have length := (live.sessions request.sessionId).version
        rw [version] at length
        unfold openSession at open_
        split at open_
        next zero =>
          split at open_
          next created =>
            obtain ⟨rest, events⟩ : ∃ rest, request.events = first :: rest := by
              cases hevents : request.events with
              | nil => simp [hevents] at head
              | cons a as =>
                rw [hevents] at head
                cases Option.some.inj head
                exact ⟨as, rfl⟩
            rw [events] at valid ran
            obtain ⟨scan', validFirst, validRest⟩ := bind_eq_ok_iff.mp valid
            obtain ⟨m, appendedFirst, appendedRest⟩ := bind_eq_ok_iff.mp ran
            obtain ⟨own, schema, sequence, -, rfl⟩ :=
              AppendRequest.validateEvent_eq_ok validFirst
            rw [version] at zero
            have empty : t.eventsOf first.sessionId = [] := by
              rw [own]
              exact List.length_eq_zero_iff.mp (length.symm.trans zero)
            have first_ : first.sequence.get = 1 := by
              rw [sequence, zero]
            rw [← own] at open_
            obtain ⟨live', grown⟩ := createSession_live live empty created schema first_ open_
              appendedFirst
            rw [own] at grown
            refine appendEvents_live live' ?_ ?_ (.inr (by simp [AppendScan.next])) validRest
              appendedRest
            · simp [grown]
            · simp [grown, AppendScan.next, zero]
          next => cases open_
        next positive =>
          cases Except.ok.inj open_
          rw [version] at positive
          refine appendEvents_live live ?_ ?_ (.inl (Nat.pos_of_ne_zero positive)) valid ran
          · intro empty
            rw [empty] at length
            exact positive length
          · rw [length]

theorem append_live {receipt : AppendReceipt} (live : t.Live)
    (h : t.append request = .ok (receipt, u)) : u.Live := by
  obtain ⟨⟨⟩, valid, h⟩ := bind_eq_ok_iff.mp h
  obtain ⟨state, -, h⟩ := bind_eq_ok_iff.mp h
  split at h
  next first last head tail =>
    cases state with
    | none => exact commitBatch_live live valid head h
    | partially => cases h
    | all =>
      dsimp only at h
      unfold alreadyCommitted at h
      split at h
      next => cases h
      next =>
        cases Except.ok.inj h
        exact live
  next => cases h

end SessionTables

end AutoHarness
