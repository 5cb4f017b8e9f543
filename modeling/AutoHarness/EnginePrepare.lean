import AutoHarness.AggregateAgreement
import AutoHarness.EngineReplay

namespace AutoHarness

open FallibleRun Interleaving

variable {M : Type} [EventMetadataSource M] {engine : InMemoryEngine M} {source rest : M}
  {known : Finset EventId} {command : CommandEnvelope} {batch next : EventBatch}
  {payload : EventPayload} {payloads : List EventPayload}

/-- The identities and causes inside a batch under construction. -/
structure BatchShape (known : Finset EventId) (command : CommandEnvelope) (batch : EventBatch) :
    Prop where
  eventIds : batch.eventIds = (batch.events.map EventEnvelope.eventId).toFinset
  distinct : (batch.events.map EventEnvelope.eventId).Nodup
  fresh : ∀ event ∈ batch.events, event.eventId ∉ known
  session : ∀ event ∈ batch.events, event.sessionId = command.sessionId
  causes : causingCommands batch.events = if batch.events = [] then [] else [command.commandId]

theorem batchShape_start (sequence : SessionSequence) :
    BatchShape known command ⟨sequence, [], ∅⟩ where
  eventIds := rfl
  distinct := List.nodup_nil
  fresh := by simp
  session := by simp
  causes := rfl

/-- A successful round of the enveloping loop. -/
theorem push_eq_ok_iff :
    batch.push known command payload source = (.ok next, rest) ↔
      ∃ sequence, batch.advance = some sequence ∧
        (nextEventMetadata source).1.eventId ∉ known ∧
        (nextEventMetadata source).1.eventId ∉ batch.eventIds ∧
        rest = (nextEventMetadata source).2 ∧
        next =
          { nextSequence := sequence
            events := batch.events ++ [.newV1 (nextEventMetadata source).1.eventId
              command.sessionId sequence (nextEventMetadata source).1.occurredAt
              (batch.cause command) command.correlationId payload]
            eventIds := insert (nextEventMetadata source).1.eventId batch.eventIds } := by
  unfold EventBatch.push
  cases batch.advance with
  | none => simp
  | some sequence =>
    simp only [Option.some.injEq, exists_eq_left']
    split
    next seen => simp only [Prod.mk.injEq, reduceCtorEq, false_and, false_iff]; tauto
    next unseen =>
      rw [not_or] at unseen
      simp only [Prod.mk.injEq, Except.ok.injEq, unseen, not_false_eq_true, true_and]
      exact ⟨fun h => ⟨h.2.symm, h.1.symm⟩, fun h => ⟨h.2.symm, h.1.symm⟩⟩

theorem BatchShape.push (h : BatchShape known command batch)
    (step : batch.push known command payload source = (.ok next, rest)) :
    BatchShape known command next ∧
      next.events.map EventEnvelope.payload =
        batch.events.map EventEnvelope.payload ++ [payload] := by
  obtain ⟨sequence, -, unknown, unused, -, rfl⟩ := push_eq_ok_iff.mp step
  refine ⟨⟨?_, ?_, ?_, ?_, ?_⟩, by simp [EventEnvelope.newV1]⟩
  · simp [h.eventIds, List.toFinset_append, EventEnvelope.newV1]
  · rw [h.eventIds, List.mem_toFinset] at unused
    rw [List.map_append, List.nodup_append']
    exact ⟨h.distinct, by simp, by simpa [EventEnvelope.newV1] using unused⟩
  · intro event hm
    rcases List.mem_append.mp hm with hm | hm
    · exact h.fresh event hm
    · cases List.mem_singleton.mp hm
      exact unknown
  · intro event hm
    rcases List.mem_append.mp hm with hm | hm
    · exact h.session event hm
    · cases List.mem_singleton.mp hm
      rfl
  · rw [causingCommands_append, causingCommands_singleton, h.causes]
    cases last : batch.events.getLast? with
    | none =>
      rw [List.getLast?_eq_none_iff] at last
      simp [EventBatch.cause, last, EventEnvelope.causingCommand?, EventEnvelope.newV1]
    | some prior =>
      have nonempty : batch.events ≠ [] := by
        rintro empty
        simp [empty] at last
      simp [EventBatch.cause, last, EventEnvelope.causingCommand?, EventEnvelope.newV1, nonempty]

theorem BatchShape.pushAll (h : BatchShape known command batch)
    (steps : batch.pushAll known command payloads source = (.ok next, rest)) :
    BatchShape known command next ∧
      next.events.map EventEnvelope.payload =
        batch.events.map EventEnvelope.payload ++ payloads := by
  induction payloads generalizing batch source with
  | nil =>
    cases steps
    exact ⟨h, by simp⟩
  | cons payload payloads ih =>
    simp only [EventBatch.pushAll] at steps
    split at steps
    next => cases steps
    next middle between step =>
      obtain ⟨shape, first⟩ := h.push step
      obtain ⟨final, all⟩ := ih shape steps
      exact ⟨final, by rw [all, first, List.append_assoc, List.singleton_append]⟩

theorem push_eq_error {e : EngineError}
    (h : batch.push known command payload source = (.error e, rest)) :
    e = .sequenceExhausted command.sessionId ∨ ∃ id, e = .eventIdCollision id := by
  unfold EventBatch.push at h
  split at h
  next =>
    cases h
    exact .inl rfl
  next =>
    simp only at h
    split at h
    next =>
      cases h
      exact .inr ⟨_, rfl⟩
    next => cases h

theorem pushAll_eq_error {e : EngineError}
    (h : batch.pushAll known command payloads source = (.error e, rest)) :
    e = .sequenceExhausted command.sessionId ∨ ∃ id, e = .eventIdCollision id := by
  induction payloads generalizing batch source with
  | nil => cases h
  | cons payload payloads ih =>
    simp only [EventBatch.pushAll] at h
    split at h
    next first step =>
      cases h
      exact push_eq_error step
    next => exact ih h

/-- A rejected command consumes no metadata. -/
theorem prepare_rejected {rejection : CommandRejection}
    (h : engine.prepare command = (.error (.commandRejected rejection), rest)) :
    rest = engine.metadataSource := by
  unfold InMemoryEngine.prepare at h
  split at h
  next => cases h; rfl
  next =>
    simp only at h
    split at h
    next => cases h; rfl
    next =>
      split at h
      next => cases h
      next =>
        split at h
        next failure =>
          cases h
          rcases pushAll_eq_error failure with e | ⟨_, e⟩ <;> cases e
        next => split at h <;> cases h

/-- Everything a successful `prepare` guarantees. -/
structure Prepared (engine : InMemoryEngine M) (command : CommandEnvelope)
    (prepared : PreparedCommand) : Prop where
  sessionId : prepared.sessionId = command.sessionId
  commandId : prepared.commandId = command.commandId
  unused : command.commandId ∉ engine.commandIds
  decided : (engine.current command.sessionId).decide command =
    .ok (prepared.events.map EventEnvelope.payload)
  expected : prepared.expectedLastSequence = (engine.current command.sessionId).lastSequenceValue
  eventIds : prepared.eventIds = (prepared.events.map EventEnvelope.eventId).toFinset
  distinct : (prepared.events.map EventEnvelope.eventId).Nodup
  fresh : ∀ event ∈ prepared.events, event.eventId ∉ engine.eventIds
  session : ∀ event ∈ prepared.events, event.sessionId = command.sessionId
  causes : causingCommands prepared.events = [command.commandId]
  nonempty : prepared.events ≠ []
  applied : (engine.current command.sessionId).applyUncommittedBatch prepared.events =
    .ok prepared.candidate

theorem prepared_of_prepare {prepared : PreparedCommand}
    (h : engine.prepare command = (.ok prepared, rest)) : Prepared engine command prepared := by
  unfold InMemoryEngine.prepare at h
  split at h
  next => cases h
  next unused =>
    simp only at h
    split at h
    next => cases h
    next payloads decided =>
      split at h
      next => cases h
      next sequence _ =>
        split at h
        next => cases h
        next batch between steps =>
          split at h
          next => cases h
          next candidate applied =>
            cases h
            obtain ⟨shape, all⟩ := (batchShape_start sequence).pushAll steps
            have payloadsEq : batch.events.map EventEnvelope.payload = payloads := by
              simpa using all
            have nonempty : batch.events ≠ [] := by
              rintro empty
              exact (decision_of_decide decided).nonempty (by rw [← payloadsEq, empty]; rfl)
            have causes := shape.causes
            rw [if_neg nonempty] at causes
            exact ⟨rfl, rfl, unused, by rw [payloadsEq]; exact decided, rfl, shape.eventIds,
              shape.distinct, shape.fresh, shape.session, causes, nonempty, applied⟩

end AutoHarness
