import AutoHarness.AggregateInversion

namespace AutoHarness

open FallibleRun (bind_eq_ok_iff)

variable {s t : SessionAggregate} {event : EventEnvelope}

theorem applyPayload_of_header (h : HeaderChange s event t) : s.applyPayload event = .ok t := by
  cases h with
  | created hp hc => simp [SessionAggregate.applyPayload, hp, hc]
  | renamed hp hc =>
    simp [SessionAggregate.applyPayload, hp, SessionAggregate.requireCreatedForReplay, hc]
  | archived hp hc ha =>
    simp [SessionAggregate.applyPayload, hp, SessionAggregate.requireCreatedForReplay, hc, ha]
  | unarchived hp hc ha =>
    simp [SessionAggregate.applyPayload, hp, SessionAggregate.requireCreatedForReplay, hc, ha]
  | modelSelected hp hc =>
    simp [SessionAggregate.applyPayload, hp, SessionAggregate.requireCreatedForReplay, hc]

theorem transitionAttempt_of_lookup {id : AttemptId} {i : Nat} {a : AttemptProjection}
    {allowed : List AttemptStatus} {transition : AttemptProjection → AttemptProjection}
    (hi : s.attemptIndexes.lookup id = some i) (ha : s.attempts[i]? = some a)
    (hs : a.status ∈ allowed) :
    s.transitionAttempt event id allowed transition =
      .ok { s with attempts := s.attempts.set i (transition a) } :=
  transitionAttempt_eq_ok_iff.mpr ⟨i, a, hi, ha, hs, rfl⟩

theorem transitionToolCall_of_lookup {id : ToolCallId} {i : Nat} {c : ToolCallProjection}
    {allowed : List ToolCallStatus} {transition : ToolCallProjection → ToolCallProjection}
    (hi : s.toolCallIndexes.lookup id = some i) (hc : s.toolCalls[i]? = some c)
    (hs : c.status ∈ allowed) :
    s.transitionToolCall event id allowed transition =
      .ok { s with toolCalls := s.toolCalls.set i (transition c) } :=
  transitionToolCall_eq_ok_iff.mpr ⟨i, c, hi, hc, hs, rfl⟩

/-- The attempt cases of `apply_one` accept every change their checks allow. -/
theorem applyPayload_of_attemptChange {id : AttemptId} {i : Nat} {a b : AttemptProjection}
    (hi : s.attemptIndexes.lookup id = some i) (ha : s.attempts[i]? = some a)
    (h : AttemptChange s event id a b) :
    s.applyPayload event = .ok { s with
      attempts := s.attempts.set i b
      contextTurnIds := event.payload.boundContextTurns ∪ s.contextTurnIds } := by
  have hfound := attempt_of_lookup hi ha
  cases h with
  | started hp hs =>
    simp [SessionAggregate.applyPayload, hp, EventPayload.boundContextTurns,
      transitionAttempt_of_lookup hi ha hs]
  | textAppended hp hs =>
    simp only [SessionAggregate.applyPayload, hp, EventPayload.boundContextTurns,
      transitionAttempt_of_lookup hi ha hs, Finset.empty_union]
  | usageRecorded hp hs =>
    simp only [SessionAggregate.applyPayload, hp, EventPayload.boundContextTurns,
      transitionAttempt_of_lookup hi ha hs, Finset.empty_union]
  | cancellationRequested hp hs =>
    simp only [SessionAggregate.applyPayload, hp, EventPayload.boundContextTurns,
      transitionAttempt_of_lookup hi ha hs, Finset.empty_union]
  | completed hp hu hs =>
    simp [SessionAggregate.applyPayload, hp, EventPayload.boundContextTurns, hu,
      SessionAggregate.requireReplayAttemptToolCallsSettled, transitionAttempt_of_lookup hi ha hs]
  | failed hp hu hs =>
    simp [SessionAggregate.applyPayload, hp, EventPayload.boundContextTurns, hu,
      SessionAggregate.requireReplayAttemptToolCallsSettled, transitionAttempt_of_lookup hi ha hs]
  | cancelled hp hu hs =>
    simp [SessionAggregate.applyPayload, hp, EventPayload.boundContextTurns, hu,
      SessionAggregate.requireReplayAttemptToolCallsSettled, transitionAttempt_of_lookup hi ha hs]
  | markedUnknown hp hu hs =>
    simp [SessionAggregate.applyPayload, hp, EventPayload.boundContextTurns, hu,
      SessionAggregate.requireReplayAttemptToolCallsSettled, transitionAttempt_of_lookup hi ha hs]
  | budgetConfigured hp hl hs =>
    simp [SessionAggregate.applyPayload, hp, EventPayload.boundContextTurns, hfound, hl,
      transitionAttempt_of_lookup hi ha hs]
  | contextBound hp created fresh hs ready expected idle bounded =>
    have inFlight : a.status = .inFlight := by simpa using hs
    have within : (a.runLimits.any fun limits =>
        (some _).all fun turn => limits.maxTurns < turn) = false := bounded
    simp only [SessionAggregate.applyPayload, hp, SessionAggregate.requireCreatedForReplay,
      created, if_true, FallibleRun.ok_bind, if_neg fresh, hfound, expected, within, idle,
      inFlight, ready, transitionAttempt_of_lookup hi ha hs, EventPayload.boundContextTurns]
    simp
  | turnStarted hp hs ready pending hturn adjacent expected within =>
    simp [SessionAggregate.applyPayload, hp, EventPayload.boundContextTurns, hfound, ready,
      pending, hturn, adjacent, expected, within, transitionAttempt_of_lookup hi ha hs]
  | paused hp hs idle started hcall hid =>
    have owned : (s.toolCalls.any fun call => call.attemptId == id) = true :=
      List.any_eq_true.mpr ⟨_, hcall, by simpa using hid⟩
    simp [SessionAggregate.applyPayload, hp, EventPayload.boundContextTurns, hfound, idle, started,
      owned, transitionAttempt_of_lookup hi ha hs]
  | resumed hp hu hs =>
    simp [SessionAggregate.applyPayload, hp, EventPayload.boundContextTurns, hu,
      transitionAttempt_of_lookup hi ha hs]

theorem applyPayload_of_toolCallChange {id : ToolCallId} {i : Nat} {c d : ToolCallProjection}
    (hi : s.toolCallIndexes.lookup id = some i) (hc : s.toolCalls[i]? = some c)
    (h : ToolCallChange s event id c d) :
    s.applyPayload event = .ok { s with toolCalls := s.toolCalls.set i d } := by
  have hfound := toolCall_of_lookup hi hc
  cases h with
  | recorded hp hs =>
    simp only [SessionAggregate.applyPayload, hp, transitionToolCall_of_lookup hi hc hs]
  | answered hp hs =>
    simp only [SessionAggregate.applyPayload, hp, transitionToolCall_of_lookup hi hc hs]
  | started hp hs ha hstatus =>
    have active : (((s.toolCall id).bind fun call => s.attempt call.attemptId).any fun attempt =>
        attempt.status == .inFlight || attempt.status == .awaitingTools) = true := by
      simpa [hfound, ha] using hstatus
    simp only [SessionAggregate.applyPayload, hp, active, transitionToolCall_of_lookup hi hc hs,
      Bool.not_true, Bool.false_eq_true, if_false]
  | completed hp hs =>
    simp only [SessionAggregate.applyPayload, hp, transitionToolCall_of_lookup hi hc hs]
  | failed hp hs =>
    simp only [SessionAggregate.applyPayload, hp, transitionToolCall_of_lookup hi hc hs]
  | denied hp hs =>
    simp only [SessionAggregate.applyPayload, hp, transitionToolCall_of_lookup hi hc hs]
  | cancelled hp hs =>
    simp only [SessionAggregate.applyPayload, hp, transitionToolCall_of_lookup hi hc hs]
  | markedUnknown hp hs =>
    simp only [SessionAggregate.applyPayload, hp, transitionToolCall_of_lookup hi hc hs]

/-- The listed steps are exactly the accepted payloads. -/
theorem applyPayload_eq_ok_iff : s.applyPayload event = .ok t ↔ SessionStep s event t := by
  refine ⟨step_of_applyPayload, fun h => ?_⟩
  cases h with
  | header h => exact applyPayload_of_header h
  | inputAdmitted hp hc fresh =>
    simp [SessionAggregate.applyPayload, hp, SessionAggregate.requireCreatedForReplay, hc, fresh]
  | attemptPrepared hp hc fresh hi hin unpromoted selected =>
    simp [SessionAggregate.applyPayload, hp, SessionAggregate.requireCreatedForReplay, hc, fresh,
      hi, hin, SessionAggregate.promoteInput, unpromoted, selected]
  | retryPrepared hp hc fresh hi hprior retry hinput hmodel =>
    obtain ⟨hlt, -⟩ := List.findIdx?_eq_some_iff_getElem.mp hi
    simp [SessionAggregate.applyPayload, hp, SessionAggregate.requireCreatedForReplay, hc, fresh,
      hi, hlt, SessionAggregate.promoteInput, hprior, retry, hinput, hmodel]
  | attemptChanged hi ha change ht => rw [ht]; exact applyPayload_of_attemptChange hi ha change
  | toolCallProposed hp hc fresh ha hs =>
    simp [SessionAggregate.applyPayload, hp, SessionAggregate.requireCreatedForReplay, hc, fresh,
      ha, hs]
  | toolCallChanged hi hc change => exact applyPayload_of_toolCallChange hi hc change

end AutoHarness
