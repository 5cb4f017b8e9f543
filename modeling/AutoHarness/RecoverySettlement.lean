import AutoHarness.EngineLive
import AutoHarness.Recovery

namespace AutoHarness

open FallibleRun IndexedList Interleaving

variable {A S M : Type} [DecidableEq A] [SessionStore S] [EventMetadataSource M]
  {reads : RecoveryReads A} {parseUrl : String → Option Url} {ids : CommandIds}
  {s t : SessionAggregate} {sessionId : SessionId}

/-- The event that a settling command of the recovery pass appends. -/
def CommandPayload.settlement : CommandPayload → Option EventPayload
  | .failAttempt _ id failure => some (.attemptFailed id failure)
  | .markAttemptUnknown _ id => some (.attemptMarkedUnknown id)
  | .completeToolCall _ id output => some (.toolCallCompleted id output)
  | .denyToolCall _ id => some (.toolCallDenied id)
  | .cancelToolCall _ id => some (.toolCallCancelled id)
  | .markToolCallUnknown _ id => some (.toolCallMarkedUnknown id)
  | _ => none

theorem decidePayload_settlement {payload : CommandPayload} {event : EventPayload}
    {payloads : List EventPayload} (kind : payload.settlement = some event)
    (h : s.decidePayload payload = .ok payloads) : payloads = [event] := by
  cases payload with
  | failAttempt | markAttemptUnknown =>
    obtain ⟨_, _, h⟩ := bind_eq_ok_iff.mp h
    obtain ⟨_, _, h⟩ := bind_eq_ok_iff.mp h
    cases h
    cases kind
    rfl
  | completeToolCall | denyToolCall | cancelToolCall | markToolCallUnknown =>
    obtain ⟨_, _, h⟩ := bind_eq_ok_iff.mp h
    cases h
    cases kind
    rfl
  | _ => cases kind

theorem decide_settlement {command : CommandEnvelope} {event : EventPayload}
    {payloads : List EventPayload} (kind : command.payload.settlement = some event)
    (h : s.decide command = .ok payloads) : payloads = [event] := by
  unfold SessionAggregate.decide at h
  split at h
  · cases h
  · split at h
    · exact decidePayload_settlement kind h
    · obtain ⟨_, _, h⟩ := bind_eq_ok_iff.mp h
      exact decidePayload_settlement kind h

/-- One attempt has been settled and nothing else has changed. -/
structure AttemptSettled (id : AttemptId) (s t : SessionAggregate) : Prop where
  attempts : ∃ i a b, s.attempts[i]? = some a ∧ a.attemptId = id ∧ b.attemptId = id ∧
    b.status.isSettled = true ∧ t.attempts = s.attempts.set i b
  quiet : s.hasUnsettledToolCall id = false
  toolCalls : t.toolCalls = s.toolCalls
  moved : t.lastSequenceValue = s.lastSequenceValue + 1

/-- One tool call has been settled and nothing else has changed. -/
structure CallSettled (id : ToolCallId) (s t : SessionAggregate) : Prop where
  toolCalls : ∃ i c d, s.toolCalls[i]? = some c ∧ c.toolCallId = id ∧ d.toolCallId = id ∧
    d.status.isSettled = true ∧ t.toolCalls = s.toolCalls.set i d
  attempts : t.attempts = s.attempts
  moved : t.lastSequenceValue = s.lastSequenceValue + 1

/-- What a settling command does to its session. -/
def SettledBy : CommandPayload → SessionAggregate → SessionAggregate → Prop
  | .failAttempt _ id _ | .markAttemptUnknown _ id => AttemptSettled id
  | .completeToolCall _ id _ | .denyToolCall _ id | .cancelToolCall _ id
  | .markToolCallUnknown _ id => CallSettled id
  | _ => fun _ _ => False

theorem moved_of_fits {event : EventEnvelope} (fits : EnvelopeFits s event) :
    (t.recordApplied event).lastSequenceValue = s.lastSequenceValue + 1 :=
  expectedSequence_eq_ok_iff.mp fits.sequence

theorem attemptSettled_of_step {event : EventEnvelope} {id : AttemptId} (hi : IndexesExact s)
    (fits : EnvelopeFits s event) (step : SessionStep s event t)
    (payload : event.payload = .attemptMarkedUnknown id ∨
      ∃ failure, event.payload = .attemptFailed id failure) :
    AttemptSettled id s (t.recordApplied event) := by
  have moved := moved_of_fits (t := t) fits
  cases step with
  | header change => cases change <;> simp_all
  | inputAdmitted p | attemptPrepared p | retryPrepared p | toolCallProposed p =>
    simp [p] at payload
  | toolCallChanged _ _ change => cases change <;> simp_all
  | attemptChanged lookup ha change ht =>
    obtain ⟨found, here, owner⟩ := (hi.attempts _ _).mp lookup
    cases Option.some.inj (ha.symm.trans here)
    subst ht
    cases change with
    | failed p quiet | markedUnknown p quiet =>
      simp only [p, EventPayload.attemptFailed.injEq, EventPayload.attemptMarkedUnknown.injEq,
        reduceCtorEq, exists_false, or_false, false_or, exists_and_left, exists_eq',
        and_true] at payload
      subst payload
      refine ⟨⟨_, _, _, ha, owner, ?_, ?_, rfl⟩, quiet, rfl, moved⟩
      · exact owner
      · rfl
    | started p | textAppended p | usageRecorded p | cancellationRequested p | completed p
    | cancelled p | budgetConfigured p | contextBound p | turnStarted p | paused p | resumed p =>
      simp [p] at payload

theorem callSettled_of_step {event : EventEnvelope} {id : ToolCallId} (hi : IndexesExact s)
    (fits : EnvelopeFits s event) (step : SessionStep s event t)
    (payload : (∃ output, event.payload = .toolCallCompleted id output) ∨
      event.payload = .toolCallDenied id ∨ event.payload = .toolCallCancelled id ∨
      event.payload = .toolCallMarkedUnknown id) :
    CallSettled id s (t.recordApplied event) := by
  have moved := moved_of_fits (t := t) fits
  cases step with
  | header change => cases change <;> simp_all
  | inputAdmitted p | attemptPrepared p | retryPrepared p | toolCallProposed p =>
    simp [p] at payload
  | attemptChanged _ _ change => cases change <;> simp_all
  | toolCallChanged lookup hc change =>
    obtain ⟨found, here, owner⟩ := (hi.toolCalls _ _).mp lookup
    cases Option.some.inj (hc.symm.trans here)
    cases change with
    | completed p | denied p | cancelled p | markedUnknown p =>
      simp only [p, EventPayload.toolCallCompleted.injEq, EventPayload.toolCallDenied.injEq,
        EventPayload.toolCallCancelled.injEq, EventPayload.toolCallMarkedUnknown.injEq,
        reduceCtorEq, exists_false, or_false, false_or, exists_and_left, exists_eq',
        and_true] at payload
      subst payload
      refine ⟨⟨_, _, _, hc, owner, ?_, ?_, rfl⟩, rfl, moved⟩
      · exact owner
      · rfl
    | recorded p | answered p | started p | failed p => simp [p] at payload

theorem settledBy_of_step {payload : CommandPayload} {event : EventEnvelope}
    (kind : payload.settlement = some event.payload) (hi : IndexesExact s)
    (fits : EnvelopeFits s event) (step : SessionStep s event t) :
    SettledBy payload s (t.recordApplied event) := by
  cases payload with
  | failAttempt _ id failure =>
    exact attemptSettled_of_step hi fits step (.inr ⟨failure, (Option.some.inj kind).symm⟩)
  | markAttemptUnknown =>
    exact attemptSettled_of_step hi fits step (.inl (Option.some.inj kind).symm)
  | completeToolCall _ id output =>
    exact callSettled_of_step hi fits step (.inl ⟨output, (Option.some.inj kind).symm⟩)
  | denyToolCall =>
    exact callSettled_of_step hi fits step (.inr (.inl (Option.some.inj kind).symm))
  | cancelToolCall =>
    exact callSettled_of_step hi fits step (.inr (.inr (.inl (Option.some.inj kind).symm)))
  | markToolCallUnknown =>
    exact callSettled_of_step hi fits step (.inr (.inr (.inr (Option.some.inj kind).symm)))
  | _ => cases kind

/-- From one engine to another only the given session has changed, as the relation says. -/
structure Advances (sessionId : SessionId) (R : SessionAggregate → SessionAggregate → Prop)
    (before after : InMemoryEngine M) : Prop where
  live : Live after
  others : ∀ other, other ≠ sessionId → after.session other = before.session other
  changed : ∀ s, before.session sessionId = some s →
    ∃ t, after.session sessionId = some t ∧ R s t

theorem publish_ok {engine after : DurableEngine S M} {prepared : PreparedCommand}
    {receipt : Nat} {written : Except StoreError Nat × S} {events : List EventEnvelope}
    (h : engine.publish prepared receipt written = (.ok events, after)) :
    after.inner = engine.inner.commitPrepared prepared := by
  obtain ⟨answer, store⟩ := written
  cases answer with
  | error e => cases h
  | ok last =>
    simp only [DurableEngine.publish] at h
    split at h
    · cases h
    · cases h
      rfl

namespace RecoveryPass

variable {pass after : RecoveryPass S M}

theorem execute_prepared {payload : CommandPayload} (h : pass.execute ids payload = .ok after) :
    ∃ prepared source,
      Prepared pass.engine.inner (ids.command pass.issued payload) prepared ∧
      after.engine.inner =
        { pass.engine.inner with metadataSource := source }.commitPrepared prepared := by
  unfold execute at h
  split at h
  next events engine executed =>
    cases h
    unfold DurableEngine.execute at executed
    split at executed
    next => cases executed
    next prepared source ready =>
      simp only at executed
      split at executed
      next => cases executed
      next receipt _ =>
        exact ⟨prepared, source, prepared_of_prepare ready, publish_ok executed⟩
  next => cases h

/-- A settling command that is carried out settles its target and leaves other sessions alone. -/
theorem execute_advances {payload : CommandPayload} {event : EventPayload}
    (live : Live pass.engine.inner) (kind : payload.settlement = some event)
    (h : pass.execute ids payload = .ok after) :
    Advances payload.sessionId (SettledBy payload) pass.engine.inner after.engine.inner := by
  obtain ⟨prepared, source, p, inner⟩ := execute_prepared h
  have p := p.with_source source
  have kept : ∀ other : SessionId,
      InMemoryEngine.session { pass.engine.inner with metadataSource := source } other =
        pass.engine.inner.session other := fun _ => rfl
  refine ⟨?_, ?_, ?_⟩
  · rw [inner]
    exact (live.with_source source).commit p
  · intro other apart
    rw [inner, p.session_ne apart, kept]
  · intro s found
    have current : InMemoryEngine.current { pass.engine.inner with metadataSource := source }
        payload.sessionId = s := by
      simp [InMemoryEngine.current, kept, found]
    refine ⟨prepared.candidate, by rw [inner]; exact p.session_self, ?_⟩
    have decided := p.decided
    have applied := p.applied
    have payloads := decide_settlement kind decided
    obtain ⟨first, events⟩ := List.map_eq_singleton_iff.mp payloads
    rw [events.1] at applied
    obtain ⟨u, stepped, rest⟩ := bind_eq_ok_iff.mp applied
    cases rest
    have addressed : (ids.command pass.issued payload).sessionId = payload.sessionId := rfl
    rw [addressed, current] at stepped
    obtain ⟨fits, v, step, same⟩ := applyOne_eq_ok_iff.mp stepped
    rw [same]
    have indexes := (rehydrate_represented (live.rehydrate found)).indexes
    exact settledBy_of_step (by rw [kind, events.2]) indexes fits step

end RecoveryPass

end AutoHarness
