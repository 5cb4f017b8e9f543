import AutoHarness.CompactionReader
import AutoHarness.EngineLive

namespace AutoHarness

open FallibleRun Interleaving

variable {M : Type} [EventMetadataSource M] {engine : InMemoryEngine M} {source rest : M}
  {known : Finset EventId} {command : CommandEnvelope} {batch next : EventBatch}
  {payload : EventPayload} {payloads : List EventPayload} {s t : SessionAggregate}
  {event : EventEnvelope}

/-- An event caused by an event names an earlier one with the same correlation. -/
def CauseCorrelated (before : List EventEnvelope) (event : EventEnvelope) : Prop :=
  ∀ cause, event.causation = .event cause →
    ∃ earlier ∈ before, earlier.eventId = cause ∧ earlier.correlationId = event.correlationId

theorem CauseCorrelated.append_left {before : List EventEnvelope} (xs : List EventEnvelope)
    (h : CauseCorrelated before event) : CauseCorrelated (xs ++ before) event := by
  intro cause caused
  obtain ⟨earlier, hm, found⟩ := h cause caused
  exact ⟨earlier, List.mem_append_right xs hm, found⟩

/-- The events of a batch share one correlation and cause each other. -/
structure BatchCorrelated (command : CommandEnvelope) (batch : EventBatch) : Prop where
  shared : ∀ event ∈ batch.events, event.correlationId = command.correlationId
  causes : EachAfter CauseCorrelated batch.events

theorem BatchCorrelated.push (h : BatchCorrelated command batch)
    (step : batch.push known command payload source = (.ok next, rest)) :
    BatchCorrelated command next := by
  obtain ⟨sequence, -, -, -, -, rfl⟩ := push_eq_ok_iff.mp step
  refine ⟨fun event hm => ?_, eachAfter_concat_iff.mpr ⟨h.causes, fun cause caused => ?_⟩⟩
  · rcases List.mem_append.mp hm with hm | hm
    · exact h.shared event hm
    · cases List.mem_singleton.mp hm
      rfl
  · cases last : batch.events.getLast? with
    | none => simp [EventBatch.cause, last, EventEnvelope.newV1] at caused
    | some prior =>
      have hm := List.mem_of_getLast? last
      have same : prior.eventId = cause := by
        simpa [EventBatch.cause, last, EventEnvelope.newV1] using caused
      exact ⟨prior, hm, same, h.shared prior hm⟩

theorem BatchCorrelated.pushAll (h : BatchCorrelated command batch)
    (steps : batch.pushAll known command payloads source = (.ok next, rest)) :
    BatchCorrelated command next := by
  induction payloads generalizing batch source with
  | nil => cases steps; exact h
  | cons payload payloads ih =>
    simp only [EventBatch.pushAll] at steps
    split at steps
    next => cases steps
    next middle between step => exact ih (h.push step) steps

theorem prepare_correlated {prepared : PreparedCommand}
    (h : engine.prepare command = (.ok prepared, rest)) :
    EachAfter CauseCorrelated prepared.events := by
  unfold InMemoryEngine.prepare at h
  split at h
  next => cases h
  next =>
    simp only at h
    split at h
    next => cases h
    next payloads decided =>
      split at h
      next => cases h
      next sequence _ =>
        split at h
        next => cases h
        next batch between steps =>
          split at h
          next => cases h
          next candidate applied =>
            cases h
            have start : BatchCorrelated command ⟨sequence, [], ∅⟩ := ⟨by simp, eachAfter_nil⟩
            exact (start.pushAll steps).causes

/-- Causes stay within the correlation of their command in every stream of a live engine. -/
theorem reachable_correlated (h : Reachable engine) (sessionId : SessionId) :
    EachAfter CauseCorrelated (sessionEvents sessionId engine.events) := by
  induction h with
  | new source => exact eachAfter_nil
  | @execute engine command _ ih =>
    unfold InMemoryEngine.execute
    split
    next => exact ih
    next prepared rest prepare =>
      have p := prepared_of_prepare prepare
      change EachAfter CauseCorrelated (sessionEvents sessionId (engine.events ++ prepared.events))
      by_cases same : sessionId = command.sessionId
      · subst same
        rw [p.sessionEvents_self]
        exact ih.append ((prepare_correlated prepare).imp fun _ _ h => h.append_left _)
      · rw [p.sessionEvents_ne same]
        exact ih

/-- What the prefix check has collected from an accepted log. -/
structure PrefixScanned (log : List EventEnvelope) (s : SessionAggregate) (scan : PrefixScan) :
    Prop where
  index : scan.index = log.length
  eventIds : ∀ id correlationId, scan.eventIds.lookup id = some correlationId ↔
    ∃ event ∈ log, event.eventId = id ∧ event.correlationId = correlationId
  commandIds : scan.commandIds = s.appliedCommandIds

theorem PrefixScanned.unknown {log : List EventEnvelope} {scan : PrefixScan} {sessionId : SessionId}
    (scanned : PrefixScanned log s scan) (logged : Logged sessionId log s)
    (fresh : event.eventId ∉ s.appliedEventIds) : event.eventId ∉ scan.eventIds := by
  rw [← Finmap.lookup_eq_none, Option.eq_none_iff_forall_ne_some]
  intro correlationId found
  obtain ⟨earlier, hm, same, -⟩ := (scanned.eventIds _ _).mp found
  rw [logged.eventIds, List.mem_toFinset] at fresh
  exact fresh (same ▸ List.mem_map_of_mem hm)

theorem PrefixScanned.admitCause {log : List EventEnvelope} {scan : PrefixScan}
    (scanned : PrefixScanned log s scan) (fits : CausationFits s event)
    (correlated : CauseCorrelated log event) :
    scan.admitCause event = .ok (s.appliedCommandIds ∪ event.causingCommand?.toFinset) := by
  unfold PrefixScan.admitCause EventEnvelope.causingCommand?
  unfold CausationFits at fits
  cases cause : event.causation with
  | command commandId =>
    simp only [cause] at fits
    simp [scanned.commandIds, fits]
  | event eventId =>
    obtain ⟨earlier, hm, same, correlation⟩ := correlated eventId cause
    have found := (scanned.eventIds eventId event.correlationId).mpr
      ⟨earlier, hm, same, correlation⟩
    simp [scanned.commandIds, found]

theorem PrefixScanned.step {log : List EventEnvelope} {scan : PrefixScan} {sessionId : SessionId}
    (scanned : PrefixScanned log s scan) (logged : Logged sessionId log s)
    (fits : EnvelopeFits s event) (correlated : CauseCorrelated log event)
    (commands : t.appliedCommandIds = s.appliedCommandIds) :
    ∃ next, scan.step sessionId event = .ok next ∧
      PrefixScanned (log ++ [event]) (t.recordApplied event) next := by
  have unknown := scanned.unknown logged fits.fresh
  have sequence : event.sequence.get = scan.index + 1 := by
    rw [expectedSequence_eq_ok_iff.mp fits.sequence, logged.length, scanned.index]
  have session : event.sessionId = sessionId := fits.session.trans logged.session
  have cause := scanned.admitCause fits.causation correlated
  have guards : ¬(event.schemaVersion ≠ eventSchemaV1 ∨ event.sessionId ≠ sessionId ∨
      event.sequence.get ≠ scan.index + 1 ∨ event.eventId ∈ scan.eventIds) := by
    simp [fits.schema, session, sequence, unknown]
  refine ⟨_, by rw [PrefixScan.step, if_neg guards, cause, ok_bind], ?_⟩
  refine ⟨by simp [scanned.index], fun id correlationId => ?_, ?_⟩
  · by_cases same : id = event.eventId
    · subst same
      rw [Finmap.lookup_insert]
      constructor
      · intro h
        exact ⟨event, by simp, rfl, Option.some.inj h⟩
      · rintro ⟨e, hm, hid, hc⟩
        rcases List.mem_append.mp hm with hm | hm
        · have old := (scanned.eventIds event.eventId correlationId).mpr ⟨e, hm, hid, hc⟩
          exact absurd (Finmap.mem_of_lookup_eq_some old) unknown
        · cases List.mem_singleton.mp hm
          exact congrArg some hc
    · rw [Finmap.lookup_insert_of_ne _ same, scanned.eventIds]
      simp only [List.mem_append, List.mem_singleton]
      constructor
      · rintro ⟨e, hm, found⟩
        exact ⟨e, .inl hm, found⟩
      · rintro ⟨e, hm | rfl, hid, hc⟩
        · exact ⟨e, hm, hid, hc⟩
        · exact absurd hid.symm same
  · rw [recordApplied_commandIds, commands]

theorem prefixScan_run {sessionId : SessionId} {log : List EventEnvelope}
    (h : SessionAggregate.rehydrate sessionId log = .ok s)
    (correlated : EachAfter CauseCorrelated log) :
    ∃ scan, run (PrefixScan.step sessionId) .start log = .ok scan ∧ PrefixScanned log s scan := by
  refine run_history (P := fun log s => EachAfter CauseCorrelated log → ∃ scan,
    run (PrefixScan.step sessionId) .start log = .ok scan ∧ PrefixScanned log s scan)
    (fun _ => ⟨.start, rfl, rfl, fun id correlationId => ?_, rfl⟩) ?_ h correlated
  · simp [PrefixScan.start]
  · intro xs m event t hm ih applied correlated
    obtain ⟨old, last⟩ := eachAfter_concat_iff.mp correlated
    obtain ⟨scan, ran, scanned⟩ := ih old
    obtain ⟨fits, u, step, rfl⟩ := applyOne_eq_ok_iff.mp applied
    obtain ⟨next, stepped, all⟩ :=
      scanned.step (rehydrate_logged hm) fits last step.envelope_frame.2.2.1
    exact ⟨next, run_concat_ok_iff.mpr ⟨scan, ran, stepped⟩, all⟩

/-- Nothing but its creation can be the first event of a session. -/
theorem SessionStep.first {sessionId : SessionId} (step : SessionStep (.empty sessionId) event t) :
    event.payload = .sessionCreated := by
  cases step with
  | header change =>
    cases change with
    | created hp => exact hp
    | renamed _ created | archived _ created | unarchived _ created | modelSelected _ created =>
      cases created
  | inputAdmitted _ created | attemptPrepared _ created | retryPrepared _ created
  | toolCallProposed _ created => cases created
  | attemptChanged _ ha => simp [SessionAggregate.empty] at ha
  | toolCallChanged _ hc => simp [SessionAggregate.empty] at hc

theorem validateEventPrefix_eq_ok {sessionId : SessionId} {log : List EventEnvelope}
    {last : SessionSequence} (h : SessionAggregate.rehydrate sessionId log = .ok s)
    (correlated : EachAfter CauseCorrelated log) (length : last.get = log.length) :
    validateEventPrefix sessionId last log = .ok () := by
  obtain ⟨scan, ran, -⟩ := prefixScan_run h correlated
  cases log with
  | nil =>
    have positive := last.positive
    simp only [List.length_nil] at length
    omega
  | cons event events =>
    rw [SessionAggregate.rehydrate, run_cons, bind_eq_ok_iff] at h
    obtain ⟨first, applied, -⟩ := h
    obtain ⟨-, u, step, -⟩ := applyOne_eq_ok_iff.mp applied
    simp [validateEventPrefix, length, step.first, ran]

end AutoHarness
