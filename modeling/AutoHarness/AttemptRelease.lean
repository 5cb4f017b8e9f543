import AutoHarness.ArchiveGuard
import AutoHarness.AttemptSettlement
import AutoHarness.EngineAgreement
import AutoHarness.FreshIdentifier

namespace AutoHarness

open FallibleRun IndexedList

variable {s t : SessionAggregate} {sessionId : SessionId} {log : List EventEnvelope}

/-- Metadata that is written down in advance. -/
structure MetadataScript where
  entry : Nat → GeneratedEventMetadata

instance : EventMetadataSource MetadataScript where
  nextEventMetadata script := (script.entry 0, ⟨fun n => script.entry (n + 1)⟩)

/-- The session accepts the command under a new identity, and the batch that `prepare` envelopes
for its payloads, with some metadata new to the session, leads to the given state. -/
structure Commanded (s : SessionAggregate) (command : CommandEnvelope) (t : SessionAggregate) :
    Prop where
  unused : command.commandId ∉ s.appliedCommandIds
  decided : ∃ payloads sequence batch, ∃ script rest : MetadataScript,
    s.decide command = .ok payloads ∧ s.nextSequence = some sequence ∧
    EventBatch.pushAll ⟨sequence, [], ∅⟩ s.appliedEventIds command payloads script =
      (.ok batch, rest) ∧
    s.applyUncommittedBatch batch.events = .ok t

/-- Commands accepted one after the other. -/
inductive CommandRun : SessionAggregate → List CommandEnvelope → SessionAggregate → Prop
  | nil (s : SessionAggregate) : CommandRun s [] s
  | cons {s m t : SessionAggregate} {command : CommandEnvelope} {commands : List CommandEnvelope} :
      Commanded s command m → CommandRun m commands t → CommandRun s (command :: commands) t

theorem Logged.card_le (h : Logged sessionId log s) :
    s.appliedEventIds.card ≤ s.lastSequenceValue ∧ s.appliedCommandIds.card ≤ s.lastSequenceValue := by
  rw [h.eventIds, h.commandIds, h.length]
  refine ⟨(List.toFinset_card_le _).trans (by simp), (List.toFinset_card_le _).trans ?_⟩
  exact List.length_filterMap_le _ _

theorem decide_of_active {command : CommandEnvelope} (active : s.isArchived = false)
    (addressed : command.sessionId = s.sessionId) :
    s.decide command = s.decidePayload command.payload := by
  have open_ : s.requireNotArchived = .ok () := requireNotArchived_eq_ok_iff.mpr active
  simp [SessionAggregate.decide, addressed, open_]

/-- A request that `decide` answers with one acceptable event can be carried out. -/
theorem commanded_of_single (request : CommandPayload) {payload : EventPayload}
    (hs : SessionAggregate.rehydrate request.sessionId log = .ok s)
    (room : s.lastSequenceValue < maxSequence) (active : s.isArchived = false)
    (decided : s.decidePayload request = .ok [payload])
    (step : ∀ event, event.payload = payload → SessionStep s event t) :
    ∃ command event, Commanded s command (t.recordApplied event) ∧
      SessionAggregate.rehydrate request.sessionId (log ++ [event]) =
        .ok (t.recordApplied event) := by
  have logged := rehydrate_logged hs
  obtain ⟨events, commands⟩ := logged.card_le
  have bound : maxSequence < 2 ^ 64 := by decide
  obtain ⟨eventId, newEvent⟩ := exists_fresh_identifier s.appliedEventIds (by omega)
  obtain ⟨commandId, newCommand⟩ := exists_fresh_identifier s.appliedCommandIds (by omega)
  let sequence : SessionSequence := ⟨s.lastSequenceValue + 1, by omega, room⟩
  let command : CommandEnvelope := ⟨commandId, .ofNat 0, request⟩
  let script : MetadataScript := ⟨fun _ => ⟨eventId, ⟨0⟩⟩⟩
  let event : EventEnvelope := .newV1 eventId request.sessionId sequence ⟨0⟩ (.command commandId)
    (.ofNat 0) payload
  have expected : s.expectedSequence = .ok sequence := expectedSequence_eq_ok_iff.mpr rfl
  have push : EventBatch.push ⟨sequence, [], ∅⟩ s.appliedEventIds command payload script =
      (.ok ⟨sequence, [event], insert eventId ∅⟩, script) :=
    push_eq_ok_iff.mpr ⟨sequence, rfl, newEvent, by simp, rfl, rfl⟩
  have fits : EnvelopeFits s event := ⟨rfl, logged.session.symm, newEvent, newCommand, expected⟩
  have applied : s.applyOne event = .ok (t.recordApplied event) :=
    applyOne_eq_ok_iff.mpr ⟨fits, t, step event rfl, rfl⟩
  have accepted : s.decide command = .ok [payload] := by
    have addressed : command.sessionId = s.sessionId := logged.session.symm
    rw [decide_of_active active addressed]
    exact decided
  refine ⟨command, event, ⟨newCommand, [payload], sequence, ⟨sequence, [event], insert eventId ∅⟩,
    script, script, accepted, nextSequence_eq_some_iff.mpr expected, ?_, ?_⟩, ?_⟩
  · simp only [EventBatch.pushAll, push]
  · rw [SessionAggregate.applyUncommittedBatch, run_cons, applied]
    rfl
  · exact run_concat_ok_iff.mpr ⟨s, hs, applied⟩

/-- The calls of the attempt that still have to be settled. -/
def SessionAggregate.openCalls (s : SessionAggregate) (attemptId : AttemptId) : Nat :=
  s.toolCalls.countP fun call => call.attemptId == attemptId && !call.status.isSettled

theorem openCalls_set {id : AttemptId} {i : Nat} {c d : ToolCallProjection}
    (hc : s.toolCalls[i]? = some c) (owner : c.attemptId = id) (unsettled : c.status.isSettled = false)
    (settled : d.status.isSettled = true) :
    SessionAggregate.openCalls { s with toolCalls := s.toolCalls.set i d } id + 1 =
      s.openCalls id := by
  obtain ⟨hlt, rfl⟩ := List.getElem?_eq_some_iff.mp hc
  have counted : 0 < s.openCalls id :=
    List.countP_pos_iff.mpr ⟨_, List.getElem_mem hlt, by simp [owner, unsettled]⟩
  unfold SessionAggregate.openCalls at counted ⊢
  rw [List.countP_set hlt]
  simp only [owner, unsettled, settled, beq_self_eq_true, Bool.not_false, Bool.and_self, if_true,
    Bool.not_true, Bool.and_false, Bool.false_eq_true, if_false]
  omega

/-- An open call can be settled by one command, whatever its status. -/
theorem settle_call (hs : SessionAggregate.rehydrate sessionId log = .ok s)
    (room : s.lastSequenceValue < maxSequence) (active : s.isArchived = false)
    {i : Nat} {c : ToolCallProjection} (hc : s.toolCalls[i]? = some c)
    (unsettled : c.status.isSettled = false) :
    ∃ d command event, d.status.isSettled = true ∧
      Commanded s command
        (SessionAggregate.recordApplied { s with toolCalls := s.toolCalls.set i d } event) ∧
      SessionAggregate.rehydrate sessionId (log ++ [event]) =
        .ok (SessionAggregate.recordApplied { s with toolCalls := s.toolCalls.set i d } event) := by
  have lookup := (rehydrate_represented hs).indexes.toolCalls.lookup_key hc
  have found := toolCall_of_lookup lookup hc
  by_cases denied : c.status = .deniedPending
  · have decided : s.decidePayload (.denyToolCall sessionId c.toolCallId) =
        .ok [.toolCallDenied c.toolCallId] := by
      simp [SessionAggregate.decidePayload, SessionAggregate.requireToolCallStatus, found, denied]
    obtain ⟨command, event, commanded, accepted⟩ := commanded_of_single
      (.denyToolCall sessionId c.toolCallId) hs room active decided
      fun event hp => .toolCallChanged lookup hc (.denied hp (by simp [denied]))
    exact ⟨_, command, event, rfl, commanded, accepted⟩
  · have status : c.status ∈ [ToolCallStatus.proposed, .permissionPending, .authorized, .running] := by
      revert unsettled denied
      cases c.status <;> simp [ToolCallStatus.isSettled]
    have decided : s.decidePayload (.cancelToolCall sessionId c.toolCallId) =
        .ok [.toolCallCancelled c.toolCallId] := by
      simp only [SessionAggregate.decidePayload, SessionAggregate.requireToolCallStatus, found,
        if_pos status, ok_bind]
    obtain ⟨command, event, commanded, accepted⟩ := commanded_of_single
      (.cancelToolCall sessionId c.toolCallId) hs room active decided
      fun event hp => .toolCallChanged lookup hc (.cancelled hp status)
    exact ⟨_, command, event, rfl, commanded, accepted⟩

/-- The attempt is abandoned with a public failure. -/
def abandoned : AttemptFailure where
  errorClass := .cancelled
  code := ⟨"attempt_abandoned", rfl⟩
  message := ⟨"The attempt was abandoned", by decide, by decide⟩
  retryAdvice := .never

/-- An unsettled attempt without open calls can be settled by one command, whatever its status
and its context turns. -/
theorem settle_attempt {id : AttemptId} {a : AttemptProjection}
    (hs : SessionAggregate.rehydrate sessionId log = .ok s)
    (room : s.lastSequenceValue < maxSequence) (active : s.isArchived = false)
    (found : s.attempt id = some a) (unsettled : a.status.isSettled = false)
    (quiet : s.hasUnsettledToolCall id = false) :
    ∃ command t b, Commanded s command t ∧ t.attempt id = some b ∧ b.status.isSettled = true := by
  obtain ⟨i, lookup, ha⟩ := Option.bind_eq_some_iff.mp found
  have status : a.status ∈
      [AttemptStatus.prepared, .inFlight, .awaitingTools, .cancellationRequested] := by
    revert unsettled
    cases a.status <;> simp [AttemptStatus.isSettled]
  have decided : s.decidePayload (.failAttempt sessionId id abandoned) =
      .ok [.attemptFailed id abandoned] := by
    have settled : s.requireAttemptToolCallsSettled id = .ok () :=
      requireAttemptToolCallsSettled_eq_ok_iff.mpr quiet
    simp only [SessionAggregate.decidePayload, SessionAggregate.requireAttemptStatus, found,
      if_pos status, ok_bind, settled]
  let failed : AttemptProjection := { a with status := .failed, failure := some abandoned }
  obtain ⟨command, event, commanded, -⟩ := commanded_of_single
    (.failAttempt sessionId id abandoned)
    (t := { s with attempts := s.attempts.set i failed }) hs room active decided
    fun event hp => .attemptChanged lookup ha (.failed hp quiet status)
      (by simp [hp, failed, EventPayload.boundContextTurns])
  refine ⟨command, _, failed, commanded, find?_set_self lookup ha, rfl⟩

/-- Settling the open calls one by one and then the attempt itself takes as many commands as
there are open calls and one more. -/
theorem release_attempt {id : AttemptId} {a : AttemptProjection} (n : Nat)
    (hs : SessionAggregate.rehydrate sessionId log = .ok s) (count : s.openCalls id = n)
    (room : s.lastSequenceValue + n + 1 ≤ maxSequence) (active : s.isArchived = false)
    (found : s.attempt id = some a) (unsettled : a.status.isSettled = false) :
    ∃ commands t b, CommandRun s commands t ∧ commands.length = n + 1 ∧
      t.attempt id = some b ∧ b.status.isSettled = true := by
  induction n generalizing s log with
  | zero =>
    have quiet : s.hasUnsettledToolCall id = false := by
      rw [hasUnsettledToolCall_eq_false_iff]
      simpa [SessionAggregate.openCalls] using count
    obtain ⟨command, t, b, commanded, hb, settled⟩ :=
      settle_attempt hs (by omega) active found unsettled quiet
    exact ⟨[command], t, b, .cons commanded (.nil t), rfl, hb, settled⟩
  | succ n ih =>
    have positive : 0 < s.openCalls id := by omega
    obtain ⟨c, hm, hc⟩ := List.countP_pos_iff.mp positive
    obtain ⟨i, hi⟩ := List.mem_iff_getElem?.mp hm
    simp only [Bool.and_eq_true, beq_iff_eq, Bool.not_eq_true'] at hc
    obtain ⟨d, command, event, settled, commanded, accepted⟩ :=
      settle_call hs (by omega) active hi hc.2
    have fewer := openCalls_set hi hc.1 hc.2 settled
    have longer := (rehydrate_logged accepted).length
    have length := (rehydrate_logged hs).length
    rw [List.length_append, ← length, List.length_singleton] at longer
    obtain ⟨commands, t, b, run, total, hb, done⟩ :=
      ih accepted (Nat.succ.inj (fewer.trans count)) (by omega) active found
    exact ⟨command :: commands, t, b, .cons commanded run, by simp [total], hb, done⟩

section Live

variable {M : Type} [EventMetadataSource M] {engine : InMemoryEngine M}

/-- No attempt of a live session is stuck. -/
theorem live_attempt_releasable (h : Reachable engine) {id : AttemptId} {a : AttemptProjection}
    (known : engine.session sessionId = some s) (found : s.attempt id = some a)
    (unsettled : a.status.isSettled = false)
    (room : s.lastSequenceValue + s.openCalls id + 1 ≤ maxSequence) :
    ∃ commands t b, CommandRun s commands t ∧ t.attempt id = some b ∧
      b.status.isSettled = true := by
  have hs := (reachable_live h).rehydrate known
  have quiescent := archivedSettled_run (reachable_guarded h sessionId)
    (fun archived => nomatch archived) hs
  have active : s.isArchived = false := by
    refine Bool.eq_false_iff.mpr fun archived => ?_
    have member := ((rehydrate_represented hs).indexes.attempts.find?_eq_some_iff.mp found).1
    cases unsettled.symm.trans (quiescent archived a member)
  obtain ⟨commands, t, b, run, -, hb, settled⟩ :=
    release_attempt _ hs rfl room active found unsettled
  exact ⟨commands, t, b, run, hb, settled⟩

end Live

/-- A turn is bound, and then the log moves on with a proposed call. -/
def staleBindingEngine : InMemoryEngine SampleSource :=
  (sampleEngine.executeAll
    [sampleCommand 2 (.selectModel sampleSession sampleModel),
      sampleCommand 3 (.admitPromptAndPrepareAttempt sampleSession sampleInput samplePrompt
        .nextTurn sampleAttempt),
      sampleCommand 4 (.startAttempt sampleSession sampleAttempt),
      sampleCommand 5 (.bindContextTurn sampleSession sampleAttempt 1 sampleContextTurn sampleHash),
      sampleCommand 6 (.proposeToolCall sampleSession sampleAttempt sampleCall)]).2

theorem staleBindingEngine_unsettled : Reachable staleBindingEngine ∧
    ∃ s a binding, staleBindingEngine.session sampleSession = some s ∧
      s.attempt sampleAttempt = some a ∧ a.status = .inFlight ∧
      a.pendingContextTurn = some binding ∧ binding.boundSequence.get = 7 ∧
      s.lastSequenceValue = 8 ∧ s.toolCalls.map (fun call => call.status) = [.proposed] ∧
      s.openCalls sampleAttempt = 1 :=
  ⟨sampleEngine_reachable.executeAll _, _, _, _, rfl, rfl, rfl, rfl, rfl, rfl, rfl, rfl⟩

theorem live_attempt_releasable_sample :
    ∃ s, staleBindingEngine.session sampleSession = some s ∧
      ∃ commands t b, CommandRun s commands t ∧ t.attempt sampleAttempt = some b ∧
        b.status.isSettled = true := by
  obtain ⟨reachable, s, a, -, known, found, status, -, -, last, -, calls⟩ :=
    staleBindingEngine_unsettled
  refine ⟨s, known, live_attempt_releasable reachable known found (by rw [status]; rfl) ?_⟩
  rw [last, calls]
  decide

end AutoHarness
