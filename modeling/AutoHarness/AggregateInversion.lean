import AutoHarness.AggregateStep

namespace AutoHarness

open FallibleRun (bind_eq_ok_iff)

variable {s t : SessionAggregate} {event : EventEnvelope}

theorem step_of_attemptPrepared {attemptId : AttemptId} {inputId : InputId} {model : ModelRef}
    {retryOf : Option AttemptId} (hp : event.payload = .attemptPrepared attemptId inputId model retryOf)
    (h : s.applyPayload event = .ok t) : SessionStep s event t := by
  simp only [SessionAggregate.applyPayload, hp] at h
  obtain ⟨_, hc, h⟩ := bind_eq_ok_iff.mp h
  have created := requireCreatedForReplay_eq_ok_iff.mp hc
  split at h
  next => cases h
  next fresh =>
    split at h
    next => cases h
    next i hi =>
      split at h
      next => cases h
      next input hin =>
        obtain ⟨inputs, hpr, h⟩ := bind_eq_ok_iff.mp h
        cases Except.ok.inj h
        unfold SessionAggregate.promoteInput at hpr
        -- the retry branch leaves the inputs alone, the ordinary one promotes its input
        cases retryOf with
        | some priorId =>
          simp only at hpr
          split at hpr
          next => cases hpr
          next prior hprior =>
            split at hpr
            next => cases hpr
            next ok =>
              cases Except.ok.inj hpr
              simp only [Bool.or_eq_true, Bool.not_eq_true', bne_iff_ne, ne_eq, not_or,
                Bool.not_eq_false, not_not] at ok
              exact .retryPrepared hp created fresh hi hprior ok.1.1 ok.1.2 ok.2
        | none =>
          simp only at hpr
          split at hpr
          next => cases hpr
          next unpromoted =>
            split at hpr
            next => cases hpr
            next selected =>
              cases Except.ok.inj hpr
              exact .attemptPrepared hp created fresh hi hin (by simpa using unpromoted)
                (not_not.mp selected)

theorem step_of_contextTurnBound {attemptId : AttemptId} {runTurn : UInt32}
    {contextTurnId : ContextTurnId} {manifestHash : Sha256Digest}
    (hp : event.payload = .contextTurnBound attemptId runTurn contextTurnId manifestHash)
    (h : s.applyPayload event = .ok t) : SessionStep s event t := by
  simp only [SessionAggregate.applyPayload, hp] at h
  obtain ⟨_, hc, h⟩ := bind_eq_ok_iff.mp h
  have created := requireCreatedForReplay_eq_ok_iff.mp hc
  split at h
  next => cases h
  next fresh =>
    split at h
    next => cases h
    next a ha =>
      split at h
      next => cases h
      next guards =>
        obtain ⟨u, hu, h⟩ := bind_eq_ok_iff.mp h
        obtain ⟨i, b, hi, hb, hs, rfl⟩ := transitionAttempt_eq_ok_iff.mp hu
        cases Except.ok.inj h
        cases Option.some.inj (ha.symm.trans (attempt_of_lookup hi hb))
        simp only [Bool.or_eq_true, bne_iff_ne, ne_eq, Bool.not_eq_true', not_or, not_not,
          Bool.not_eq_false, Bool.not_eq_true, Option.isSome_eq_false_iff,
          Option.isNone_iff_eq_none] at guards
        obtain ⟨⟨⟨⟨_, ready⟩, expected⟩, idle⟩, within⟩ := guards
        have bounded : a.exceedsTurns runTurn = false := by
          simpa [AttemptProjection.exceedsTurns, expected] using within
        refine .attemptChanged hi hb
          (.contextBound hp created fresh hs ready expected idle bounded) ?_
        rw [hp]
        rfl

theorem step_of_runTurnStarted {attemptId : AttemptId} {turn : UInt32}
    (hp : event.payload = .runTurnStarted attemptId turn)
    (h : s.applyPayload event = .ok t) : SessionStep s event t := by
  simp only [SessionAggregate.applyPayload, hp] at h
  split at h
  next => cases h
  next guards =>
    refine step_of_transitionAttempt (by rw [hp]; rfl) (fun a ha hs => ?_) h
    simp only [ha, Option.any_some, Option.bind_some, Bool.or_eq_true, Bool.not_eq_true',
      bne_iff_ne, ne_eq, not_or, Bool.not_eq_false, not_not, Bool.not_eq_true,
      Bool.and_eq_true] at guards
    obtain ⟨⟨⟨ready, adjacent⟩, expected⟩, within⟩ := guards
    obtain ⟨binding, hbinding, hb⟩ := (Option.any_eq_true _ _).mp adjacent
    simp only [Bool.and_eq_true, beq_iff_eq] at hb
    exact .turnStarted hp hs ready hbinding hb.1 hb.2 expected within

theorem step_of_toolCallStarted {toolCallId : ToolCallId}
    (hp : event.payload = .toolCallStarted toolCallId)
    (h : s.applyPayload event = .ok t) : SessionStep s event t := by
  simp only [SessionAggregate.applyPayload, hp] at h
  split at h
  next => cases h
  next active =>
    refine step_of_transitionToolCall (fun c hc hs => ?_) h
    simp only [hc, Option.bind_some, Bool.not_eq_true', Bool.not_eq_false] at active
    obtain ⟨a, ha, hstatus⟩ := (Option.any_eq_true _ _).mp active
    exact .started hp hs ha (by simpa using hstatus)

theorem step_of_toolCallProposed {attemptId : AttemptId} {call : ToolCallSpec}
    (hp : event.payload = .toolCallProposed attemptId call)
    (h : s.applyPayload event = .ok t) : SessionStep s event t := by
  simp only [SessionAggregate.applyPayload, hp] at h
  obtain ⟨_, hc, h⟩ := bind_eq_ok_iff.mp h
  split at h
  next => cases h
  next fresh =>
    split at h
    next => cases h
    next inFlight =>
      cases Except.ok.inj h
      obtain ⟨a, ha⟩ : ∃ a, s.attempt attemptId = some a := by
        cases ha : s.attempt attemptId with
        | none => simp [ha] at inFlight
        | some a => exact ⟨a, rfl⟩
      exact .toolCallProposed hp (requireCreatedForReplay_eq_ok_iff.mp hc) fresh ha
        (by simpa [ha] using inFlight)

/-- The cases of `apply_one` that check the calls of the attempt before the transition. -/
theorem step_of_settling {id : AttemptId} {allowed : List AttemptStatus}
    {transition : AttemptProjection → AttemptProjection}
    (unbound : event.payload.boundContextTurns = ∅)
    (change : s.hasUnsettledToolCall id = false → ∀ a, a.status ∈ allowed →
      AttemptChange s event id a (transition a))
    (h : (do
      s.requireReplayAttemptToolCallsSettled event id
      s.transitionAttempt event id allowed transition) = .ok t) : SessionStep s event t := by
  obtain ⟨_, settled, h⟩ := bind_eq_ok_iff.mp h
  have settled := requireReplayAttemptToolCallsSettled_eq_ok_iff.mp settled
  exact step_of_transitionAttempt unbound (fun a _ => change settled a) h

/-- Inversion: an accepted payload took one of the listed steps. -/
theorem step_of_applyPayload (h : s.applyPayload event = .ok t) : SessionStep s event t := by
  cases hp : event.payload with
  | sessionCreated =>
    simp only [SessionAggregate.applyPayload, hp] at h
    split at h
    next => cases h
    next hc => cases Except.ok.inj h; exact .header (.created hp (by simpa using hc))
  | sessionRenamed title =>
    simp only [SessionAggregate.applyPayload, hp] at h
    obtain ⟨_, hc, h⟩ := bind_eq_ok_iff.mp h
    cases Except.ok.inj h
    exact .header (.renamed hp (requireCreatedForReplay_eq_ok_iff.mp hc))
  | sessionArchived =>
    simp only [SessionAggregate.applyPayload, hp] at h
    obtain ⟨_, hc, h⟩ := bind_eq_ok_iff.mp h
    split at h
    next => cases h
    next ha =>
      cases Except.ok.inj h
      exact .header (.archived hp (requireCreatedForReplay_eq_ok_iff.mp hc) (by simpa using ha))
  | sessionUnarchived =>
    simp only [SessionAggregate.applyPayload, hp] at h
    obtain ⟨_, hc, h⟩ := bind_eq_ok_iff.mp h
    split at h
    next => cases h
    next ha =>
      cases Except.ok.inj h
      exact .header (.unarchived hp (requireCreatedForReplay_eq_ok_iff.mp hc) (by simpa using ha))
  | modelSelected model =>
    simp only [SessionAggregate.applyPayload, hp] at h
    obtain ⟨_, hc, h⟩ := bind_eq_ok_iff.mp h
    cases Except.ok.inj h
    exact .header (.modelSelected hp (requireCreatedForReplay_eq_ok_iff.mp hc))
  | inputAdmitted inputId prompt deliveryMode =>
    simp only [SessionAggregate.applyPayload, hp] at h
    obtain ⟨_, hc, h⟩ := bind_eq_ok_iff.mp h
    split at h
    next => cases h
    next fresh =>
      cases Except.ok.inj h
      exact .inputAdmitted hp (requireCreatedForReplay_eq_ok_iff.mp hc) fresh
  | attemptPrepared attemptId inputId model retryOf => exact step_of_attemptPrepared hp h
  | attemptStarted attemptId =>
    simp only [SessionAggregate.applyPayload, hp] at h
    exact step_of_transitionAttempt (by rw [hp]; rfl) (fun a _ hs => .started hp hs) h
  | attemptTextAppended attemptId text =>
    simp only [SessionAggregate.applyPayload, hp] at h
    exact step_of_transitionAttempt (by rw [hp]; rfl) (fun a _ hs => .textAppended hp hs) h
  | attemptUsageRecorded attemptId usage =>
    simp only [SessionAggregate.applyPayload, hp] at h
    exact step_of_transitionAttempt (by rw [hp]; rfl) (fun a _ hs => .usageRecorded hp hs) h
  | attemptCancellationRequested attemptId =>
    simp only [SessionAggregate.applyPayload, hp] at h
    exact step_of_transitionAttempt (by rw [hp]; rfl)
      (fun a _ hs => .cancellationRequested hp hs) h
  | attemptCompleted attemptId =>
    simp only [SessionAggregate.applyPayload, hp] at h
    exact step_of_settling (by rw [hp]; rfl) (fun hu a hs => .completed hp hu hs) h
  | attemptFailed attemptId failure =>
    simp only [SessionAggregate.applyPayload, hp] at h
    exact step_of_settling (by rw [hp]; rfl) (fun hu a hs => .failed hp hu hs) h
  | attemptCancelled attemptId =>
    simp only [SessionAggregate.applyPayload, hp] at h
    exact step_of_settling (by rw [hp]; rfl) (fun hu a hs => .cancelled hp hu hs) h
  | attemptMarkedUnknown attemptId =>
    simp only [SessionAggregate.applyPayload, hp] at h
    exact step_of_settling (by rw [hp]; rfl) (fun hu a hs => .markedUnknown hp hu hs) h
  | runBudgetConfigured attemptId limits =>
    simp only [SessionAggregate.applyPayload, hp] at h
    split at h
    next => cases h
    next unset =>
      refine step_of_transitionAttempt (by rw [hp]; rfl) (fun a ha hs => ?_) h
      exact .budgetConfigured hp (by simpa [ha] using unset) hs
  | contextTurnBound attemptId runTurn contextTurnId manifestHash =>
    exact step_of_contextTurnBound hp h
  | runTurnStarted attemptId turn => exact step_of_runTurnStarted hp h
  | toolCallProposed attemptId call => exact step_of_toolCallProposed hp h
  | toolPermissionRecorded toolCallId decisionId outcome =>
    simp only [SessionAggregate.applyPayload, hp] at h
    exact step_of_transitionToolCall (fun c _ hs => .recorded hp hs) h
  | toolPermissionAnswered toolCallId decisionId answer =>
    simp only [SessionAggregate.applyPayload, hp] at h
    exact step_of_transitionToolCall (fun c _ hs => .answered hp hs) h
  | toolCallStarted toolCallId => exact step_of_toolCallStarted hp h
  | toolCallCompleted toolCallId output =>
    simp only [SessionAggregate.applyPayload, hp] at h
    exact step_of_transitionToolCall (fun c _ hs => .completed hp hs) h
  | toolCallFailed toolCallId failure =>
    simp only [SessionAggregate.applyPayload, hp] at h
    exact step_of_transitionToolCall (fun c _ hs => .failed hp hs) h
  | toolCallDenied toolCallId =>
    simp only [SessionAggregate.applyPayload, hp] at h
    exact step_of_transitionToolCall (fun c _ hs => .denied hp hs) h
  | toolCallCancelled toolCallId =>
    simp only [SessionAggregate.applyPayload, hp] at h
    exact step_of_transitionToolCall (fun c _ hs => .cancelled hp hs) h
  | toolCallMarkedUnknown toolCallId =>
    simp only [SessionAggregate.applyPayload, hp] at h
    exact step_of_transitionToolCall (fun c _ hs => .markedUnknown hp hs) h
  | attemptPausedForTools attemptId =>
    simp only [SessionAggregate.applyPayload, hp] at h
    split at h
    next => cases h
    next guards =>
      refine step_of_transitionAttempt (by rw [hp]; rfl) (fun a ha hs => ?_) h
      simp only [ha, Option.all_some, Bool.or_eq_true, beq_iff_eq, Bool.not_eq_true', not_or,
        Bool.not_eq_true, Bool.not_eq_false, List.any_eq_true] at guards
      obtain ⟨⟨idle, started⟩, call, hcall, hid⟩ := guards
      exact .paused hp hs idle started hcall (by simpa using hid)
  | attemptResumedAfterTools attemptId =>
    simp only [SessionAggregate.applyPayload, hp] at h
    split at h
    next => cases h
    next settled =>
      refine step_of_transitionAttempt (by rw [hp]; rfl) (fun a _ hs => ?_) h
      exact .resumed hp (by simpa using settled) hs

end AutoHarness
