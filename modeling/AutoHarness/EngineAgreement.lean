import AutoHarness.EngineLive

namespace AutoHarness

open FallibleRun Interleaving

variable {M : Type} {engine : InMemoryEngine M} {source rest : M} {known : Finset EventId}
  {command : CommandEnvelope} {batch next : EventBatch} {payload : EventPayload}
  {payloads : List EventPayload} {current m : SessionAggregate}

/-- The batch built so far applies to the current session and leads to the given state, to
which the next envelope will fit. -/
structure BatchReaches (known : Finset EventId) (command : CommandEnvelope)
    (current : SessionAggregate) (batch : EventBatch) (m : SessionAggregate) : Prop where
  applied : current.applyUncommittedBatch batch.events = .ok m
  session : m.sessionId = command.sessionId
  sequence : ∀ sequence, batch.advance = some sequence → m.expectedSequence = .ok sequence
  seen : ∀ id ∈ m.appliedEventIds, id ∈ known ∨ id ∈ batch.eventIds
  cause : match batch.cause command with
    | .command commandId => commandId ∉ m.appliedCommandIds
    | .event eventId => eventId ∈ m.appliedEventIds

theorem nextSequence_eq_some_iff {s : SessionAggregate} {sequence : SessionSequence} :
    s.nextSequence = some sequence ↔ s.expectedSequence = .ok sequence := by
  unfold SessionAggregate.nextSequence SessionAggregate.expectedSequence
  cases s.lastSequence with
  | none => simp
  | some last =>
    dsimp only
    cases last.checkedNext <;> simp

/-- What the engine has seen includes what each of its sessions has seen. -/
theorem Live.applied_subset (h : Live engine) (sessionId : SessionId) :
    (engine.current sessionId).appliedEventIds ⊆ engine.eventIds ∧
      (engine.current sessionId).appliedCommandIds ⊆ engine.commandIds := by
  have logged := rehydrate_logged (h.replayed.sessions sessionId)
  have stream : sessionEvents sessionId engine.events ⊆ engine.events := List.filter_subset_self _
  rw [logged.eventIds, logged.commandIds, h.replayed.eventIds, h.replayed.commandIds]
  refine ⟨fun id hid => ?_, fun id hid => ?_⟩
  · rw [List.mem_toFinset] at hid ⊢
    exact List.map_subset _ stream hid
  · rw [List.mem_toFinset] at hid ⊢
    exact List.filterMap_subset _ stream hid

theorem Live.batchReaches_start (h : Live engine) (unused : command.commandId ∉ engine.commandIds)
    {sequence : SessionSequence}
    (first : (engine.current command.sessionId).nextSequence = some sequence) :
    BatchReaches engine.eventIds command (engine.current command.sessionId) ⟨sequence, [], ∅⟩
      (engine.current command.sessionId) := by
  obtain ⟨events, commands⟩ := h.applied_subset command.sessionId
  refine ⟨rfl, (rehydrate_logged (h.replayed.sessions _)).session, ?_, fun id hid => .inl (events hid),
    fun used => unused (commands used)⟩
  intro following hf
  cases Option.some.inj hf
  exact nextSequence_eq_some_iff.mp first

theorem Live.accepts (h : Live engine)
    (decided : (engine.current command.sessionId).decide command = .ok payloads) :
    Accepts (engine.current command.sessionId) payloads := by
  have sessions := h.replayed.sessions command.sessionId
  exact (decision_of_decide decided).accepts (rehydrate_represented sessions)
    (rehydrate_createdFirst sessions)

section Push

variable [EventMetadataSource M]

theorem BatchReaches.push (h : BatchReaches known command current batch m)
    (accepts : Accepts m (payload :: payloads))
    (step : batch.push known command payload source = (.ok next, rest)) :
    ∃ t, BatchReaches known command current next t ∧ Accepts t payloads := by
  obtain ⟨sequence, advance, unknown, unused, -, rfl⟩ := push_eq_ok_iff.mp step
  have fits : EnvelopeFits m (.newV1 (nextEventMetadata source).1.eventId command.sessionId
      sequence (nextEventMetadata source).1.occurredAt (batch.cause command)
      command.correlationId payload) := by
    refine ⟨rfl, h.session.symm, fun seen => ?_, ?_, h.sequence sequence advance⟩
    · rcases h.seen _ seen with seen | seen
      · exact unknown seen
      · exact unused seen
    · exact h.cause
  obtain ⟨t, ht, rest⟩ := accepts _ rfl fits
  refine ⟨t, ?_, rest⟩
  obtain ⟨-, u, hu, rfl⟩ := applyOne_eq_ok_iff.mp ht
  obtain ⟨session, events, -, -⟩ := hu.envelope_frame
  refine ⟨run_concat_ok_iff.mpr ⟨m, h.applied, ht⟩, session.trans h.session, ?_, ?_, ?_⟩
  · intro following hf
    have later : sequence.checkedNext = some following := by simpa [EventBatch.advance] using hf
    simp [SessionAggregate.expectedSequence, SessionAggregate.recordApplied, EventEnvelope.newV1,
      later]
  · intro id hid
    simp only [SessionAggregate.recordApplied, events, Finset.mem_insert] at hid ⊢
    rcases hid with hid | hid
    · exact .inr (.inl hid)
    · exact (h.seen id hid).imp_right .inr
  · simp [EventBatch.cause, SessionAggregate.recordApplied]

theorem BatchReaches.pushAll (h : BatchReaches known command current batch m)
    (accepts : Accepts m payloads)
    (steps : batch.pushAll known command payloads source = (.ok next, rest)) :
    ∃ t, BatchReaches known command current next t := by
  induction payloads generalizing batch source m with
  | nil =>
    cases steps
    exact ⟨m, h⟩
  | cons payload payloads ih =>
    simp only [EventBatch.pushAll] at steps
    split at steps
    next => cases steps
    next middle between step =>
      obtain ⟨u, reached, remaining⟩ := h.push accepts step
      exact ih reached remaining steps

/-- The source supplies that many further identities, new to the engine and to each other. -/
def FreshMetadata : Finset EventId → M → Nat → Prop
  | _, _, 0 => True
  | known, source, n + 1 => (nextEventMetadata source).1.eventId ∉ known ∧
      FreshMetadata (insert (nextEventMetadata source).1.eventId known)
        (nextEventMetadata source).2 n

/-- With fresh metadata and room for the sequences the loop runs to its end. -/
theorem pushAll_of_fresh (fresh : FreshMetadata (batch.eventIds ∪ known) source payloads.length)
    (room : (if batch.events.isEmpty then 0 else 1) + batch.nextSequence.get + payloads.length ≤
      maxSequence + 1) :
    ∃ final rest, batch.pushAll known command payloads source = (.ok final, rest) := by
  induction payloads generalizing batch source with
  | nil => exact ⟨batch, source, rfl⟩
  | cons payload payloads ih =>
    obtain ⟨new, later⟩ := fresh
    rw [Finset.mem_union, not_or] at new
    simp only [List.length_cons] at room
    have advance : ∃ sequence, batch.advance = some sequence ∧
        sequence.get = (if batch.events.isEmpty then 0 else 1) + batch.nextSequence.get := by
      unfold EventBatch.advance
      split
      next empty => exact ⟨batch.nextSequence, rfl, by omega⟩
      next some =>
        rw [if_neg some] at room
        have next : batch.nextSequence.get + 1 ≤ maxSequence := by omega
        refine ⟨⟨batch.nextSequence.get + 1, by omega, next⟩, ?_, by simp; omega⟩
        exact SessionSequence.checkedNext_eq_some_iff.mpr rfl
    obtain ⟨sequence, advance, value⟩ := advance
    have step : batch.push known command payload source = (.ok _, _) :=
      push_eq_ok_iff.mpr ⟨sequence, advance, new.2, new.1, rfl, rfl⟩
    simp only [EventBatch.pushAll, step]
    refine ih ?_ ?_
    · rw [Finset.insert_union]
      exact later
    · simp
      omega

/-- The last check of `prepare` never fails. -/
theorem Live.no_violation (h : Live engine) (command : CommandEnvelope) (error : ReplayError) :
    (engine.prepare command).1 ≠ .error (.invariantViolation error) := by
  unfold InMemoryEngine.prepare
  split
  next => simp
  next unused =>
    simp only
    split
    next => simp
    next payloads decided =>
      split
      next => simp
      next sequence first =>
        split
        next e _ steps =>
          rcases pushAll_eq_error steps with rfl | ⟨id, rfl⟩ <;> simp
        next batch between steps =>
          obtain ⟨m, reached⟩ := (h.batchReaches_start unused first).pushAll (h.accepts decided) steps
          simp [reached.applied]

/-- A decided command with fresh metadata is prepared. -/
theorem Live.prepare_of_decide (h : Live engine) (unused : command.commandId ∉ engine.commandIds)
    (decided : (engine.current command.sessionId).decide command = .ok payloads)
    (fresh : FreshMetadata engine.eventIds engine.metadataSource payloads.length)
    (room : (engine.current command.sessionId).lastSequenceValue + payloads.length ≤ maxSequence) :
    ∃ prepared rest, engine.prepare command = (.ok prepared, rest) := by
  have nonempty : 0 < payloads.length :=
    List.length_pos_of_ne_nil (decision_of_decide decided).nonempty
  have first : ∃ sequence, (engine.current command.sessionId).nextSequence = some sequence ∧
      sequence.get = (engine.current command.sessionId).lastSequenceValue + 1 := by
    have bound : (engine.current command.sessionId).lastSequenceValue + 1 ≤ maxSequence := by omega
    refine ⟨⟨_, by omega, bound⟩, ?_, rfl⟩
    exact nextSequence_eq_some_iff.mpr (expectedSequence_eq_ok_iff.mpr rfl)
  obtain ⟨sequence, first, value⟩ := first
  have enveloped : ∃ batch rest, EventBatch.pushAll ⟨sequence, [], ∅⟩ engine.eventIds command
      payloads engine.metadataSource = (.ok batch, rest) :=
    pushAll_of_fresh (by simpa using fresh) (by simp; omega)
  obtain ⟨batch, rest, steps⟩ := enveloped
  obtain ⟨m, reached⟩ := (h.batchReaches_start unused first).pushAll (h.accepts decided) steps
  simp [InMemoryEngine.prepare, unused, decided, first, steps, reached.applied]

/-- Whatever `decide` accepts in a reachable state, `apply_one` accepts event by event. -/
theorem decide_apply_agreement (h : Reachable engine) (command : CommandEnvelope) :
    (∀ error, (engine.execute command).1 ≠ .error (.invariantViolation error)) ∧
    ∀ payloads, (engine.current command.sessionId).decide command = .ok payloads →
      command.commandId ∉ engine.commandIds →
      FreshMetadata engine.eventIds engine.metadataSource payloads.length →
      (engine.current command.sessionId).lastSequenceValue + payloads.length ≤ maxSequence →
      ∃ prepared rest, engine.prepare command = (.ok prepared, rest) ∧
        prepared.events.map EventEnvelope.payload = payloads ∧
        (engine.current command.sessionId).applyUncommittedBatch prepared.events =
          .ok prepared.candidate ∧
        (engine.execute command).1 = .ok prepared.events := by
  have live := reachable_live h
  refine ⟨fun error failed => ?_, fun payloads decided unused fresh room => ?_⟩
  · refine live.no_violation command error ?_
    unfold InMemoryEngine.execute at failed
    split at failed
    next e rest prepare =>
      rw [prepare]
      cases Except.error.inj failed
      rfl
    next => cases failed
  · obtain ⟨prepared, rest, prepare⟩ := live.prepare_of_decide unused decided fresh room
    have p := prepared_of_prepare prepare
    refine ⟨prepared, rest, prepare, ?_, p.applied, ?_⟩
    · exact Except.ok.inj (p.decided.symm.trans decided)
    · simp [InMemoryEngine.execute, prepare]

theorem decide_apply_agreement_sample :
    ∃ prepared rest, sampleEngine.prepare (sampleCommand 2 (.selectModel sampleSession sampleModel)) =
        (.ok prepared, rest) ∧
      prepared.events.map EventEnvelope.payload = [.modelSelected sampleModel] := by
  obtain ⟨prepared, rest, prepare, payloads, -⟩ :=
    (decide_apply_agreement sampleEngine_reachable
      (sampleCommand 2 (.selectModel sampleSession sampleModel))).2
      [.modelSelected sampleModel] rfl (by decide) ⟨by decide, trivial⟩ (by decide)
  exact ⟨prepared, rest, prepare, payloads⟩

end Push

end AutoHarness
