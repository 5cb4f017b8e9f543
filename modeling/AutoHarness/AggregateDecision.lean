import AutoHarness.AggregateDecide
import AutoHarness.AggregateLog

namespace AutoHarness

open FallibleRun (bind_eq_ok_iff)

variable {s : SessionAggregate} {payloads : List EventPayload}

/-- The payload is one that the addressed attempt can take as the next event of its session. -/
def AttemptAccepts (s : SessionAggregate) (id : AttemptId) (payload : EventPayload) : Prop :=
  ∃ a, s.attempt id = some a ∧ ∀ event, event.payload = payload → s.isCreated = true →
    s.expectedSequence = .ok event.sequence → ∃ b, AttemptChange s event id a b

/-- The payload is one that the addressed tool call can take. -/
def ToolCallAccepts (s : SessionAggregate) (id : ToolCallId) (payload : EventPayload) : Prop :=
  ∃ c, s.toolCall id = some c ∧ ∀ event, event.payload = payload →
    ∃ d, ToolCallChange s event id c d

/-- Every way in which `decide` can accept a command, with everything it checks. -/
inductive Decision (s : SessionAggregate) : CommandPayload → List EventPayload → Prop
  | createSession {sessionId} : s.isCreated = false →
      Decision s (.createSession sessionId) [.sessionCreated]
  | renameSession {sessionId title} : s.isCreated = true →
      Decision s (.renameSession sessionId title) [.sessionRenamed title]
  | archiveSession {sessionId} : s.isCreated = true → s.isArchived = false →
      (∀ a ∈ s.attempts, a.status.isSettled = true) →
      Decision s (.archiveSession sessionId) [.sessionArchived]
  | unarchiveSession {sessionId} : s.isCreated = true → s.isArchived = true →
      Decision s (.unarchiveSession sessionId) [.sessionUnarchived]
  | selectModel {sessionId model} : s.isCreated = true →
      Decision s (.selectModel sessionId model) [.modelSelected model]
  | admitPrompt {sessionId inputId prompt deliveryMode} : s.isCreated = true →
      inputId ∉ s.admittedInputIds →
      Decision s (.admitPrompt sessionId inputId prompt deliveryMode)
        (s.admitPromptEvents inputId prompt deliveryMode)
  | admitPromptAndPrepareAttempt {sessionId inputId prompt deliveryMode attemptId model} :
      s.isCreated = true → inputId ∉ s.admittedInputIds → attemptId ∉ s.attemptIndexes →
      s.selectedModel = some model →
      Decision s (.admitPromptAndPrepareAttempt sessionId inputId prompt deliveryMode attemptId)
        (s.admitPromptEvents inputId prompt deliveryMode ++
          [.attemptPrepared attemptId inputId model none])
  | prepareAttempt {sessionId attemptId inputId input model} : s.isCreated = true →
      attemptId ∉ s.attemptIndexes → s.input inputId = some input → input.promotedBy = none →
      s.selectedModel = some model →
      Decision s (.prepareAttempt sessionId attemptId inputId none)
        [.attemptPrepared attemptId inputId model none]
  | prepareRetry {sessionId attemptId inputId priorId input prior} : s.isCreated = true →
      attemptId ∉ s.attemptIndexes → s.input inputId = some input →
      s.attempt priorId = some prior → prior.canRetry = true → prior.inputId = inputId →
      Decision s (.prepareAttempt sessionId attemptId inputId (some priorId))
        [.attemptPrepared attemptId inputId prior.model (some priorId)]
  | proposeToolCall {sessionId attemptId call a} : s.attempt attemptId = some a →
      a.status = .inFlight → call.toolCallId ∉ s.toolCallIndexes →
      Decision s (.proposeToolCall sessionId attemptId call) [.toolCallProposed attemptId call]
  | attempt {command id payload} : AttemptAccepts s id payload → Decision s command [payload]
  | toolCall {command id payload} : ToolCallAccepts s id payload → Decision s command [payload]

/-- The commands that check one attempt and emit one event. -/
theorem decision_of_attemptStatus {command : CommandPayload} {id : AttemptId}
    {allowed : List AttemptStatus} {payload : EventPayload}
    (change : ∀ a event, a.status ∈ allowed → event.payload = payload →
      ∃ b, AttemptChange s event id a b)
    (h : (do let _ ← s.requireAttemptStatus id allowed
             Except.ok [payload]) = Except.ok payloads) : Decision s command payloads := by
  obtain ⟨a, ha, h⟩ := bind_eq_ok_iff.mp h
  cases Except.ok.inj h
  obtain ⟨found, status⟩ := requireAttemptStatus_eq_ok_iff.mp ha
  exact .attempt ⟨a, found, fun event hp _ _ => change a event status hp⟩

/-- The commands that settle an attempt. -/
theorem decision_of_settling {command : CommandPayload} {id : AttemptId}
    {allowed : List AttemptStatus} {payload : EventPayload}
    (change : ∀ a event, a.status ∈ allowed → s.hasUnsettledToolCall id = false →
      event.payload = payload → ∃ b, AttemptChange s event id a b)
    (h : (do let _ ← s.requireAttemptStatus id allowed
             s.requireAttemptToolCallsSettled id
             Except.ok [payload]) = Except.ok payloads) : Decision s command payloads := by
  obtain ⟨a, ha, h⟩ := bind_eq_ok_iff.mp h
  obtain ⟨_, hsettled, h⟩ := bind_eq_ok_iff.mp h
  cases Except.ok.inj h
  obtain ⟨found, status⟩ := requireAttemptStatus_eq_ok_iff.mp ha
  have settled := requireAttemptToolCallsSettled_eq_ok_iff.mp hsettled
  exact .attempt ⟨a, found, fun event hp _ _ => change a event status settled hp⟩

/-- The commands that check one tool call and emit one event. -/
theorem decision_of_toolCallStatus {command : CommandPayload} {id : ToolCallId}
    {allowed : List ToolCallStatus} {payload : EventPayload}
    (change : ∀ c event, c.status ∈ allowed → event.payload = payload →
      ∃ d, ToolCallChange s event id c d)
    (h : (do let _ ← s.requireToolCallStatus id allowed
             Except.ok [payload]) = Except.ok payloads) : Decision s command payloads := by
  obtain ⟨c, hc, h⟩ := bind_eq_ok_iff.mp h
  cases Except.ok.inj h
  obtain ⟨found, status⟩ := requireToolCallStatus_eq_ok_iff.mp hc
  exact .toolCall ⟨c, found, fun event hp => change c event status hp⟩

/-- The commands that only need an existing session. -/
theorem created_of_bind {α : Type} {f : Unit → Except CommandRejection α} {result : α}
    (h : (s.requireCreated >>= f) = .ok result) : s.isCreated = true ∧ f () = .ok result := by
  obtain ⟨_, created, h⟩ := bind_eq_ok_iff.mp h
  exact ⟨requireCreated_eq_ok_iff.mp created, h⟩

theorem decision_of_prepareAttempt {sessionId : SessionId} {attemptId : AttemptId}
    {inputId : InputId} {retryOf : Option AttemptId}
    (h : s.decidePayload (.prepareAttempt sessionId attemptId inputId retryOf) = .ok payloads) :
    Decision s (.prepareAttempt sessionId attemptId inputId retryOf) payloads := by
  obtain ⟨created, h⟩ := created_of_bind h
  split at h
  next => cases h
  next fresh =>
    split at h
    next => cases h
    next input found =>
      obtain ⟨model, hmodel, h⟩ := bind_eq_ok_iff.mp h
      cases Except.ok.inj h
      unfold SessionAggregate.attemptModel at hmodel
      cases retryOf with
      | none =>
        simp only at hmodel
        split at hmodel
        next => cases hmodel
        next unpromoted =>
          exact .prepareAttempt created fresh found (by simpa using unpromoted)
            (requireModel_eq_ok_iff.mp hmodel)
      | some priorId =>
        simp only at hmodel
        split at hmodel
        next => cases hmodel
        next prior hprior =>
          split at hmodel
          next => cases hmodel
          next retry =>
            split at hmodel
            next => cases hmodel
            next same =>
              cases Except.ok.inj hmodel
              exact .prepareRetry created fresh found hprior (by simpa using retry)
                (not_not.mp same)

theorem decision_of_bindContextTurn {sessionId : SessionId} {attemptId : AttemptId}
    {runTurn : UInt32} {contextTurnId : ContextTurnId} {manifestHash : Sha256Digest}
    (h : s.decidePayload (.bindContextTurn sessionId attemptId runTurn contextTurnId
      manifestHash) = .ok payloads) :
    Decision s (.bindContextTurn sessionId attemptId runTurn contextTurnId manifestHash)
      payloads := by
  obtain ⟨a, ha, h⟩ := bind_eq_ok_iff.mp h
  obtain ⟨found, status⟩ := requireAttemptStatus_eq_ok_iff.mp ha
  split at h
  next => cases h
  next fresh =>
    simp only at h
    split at h
    next => cases h
    next guards =>
      cases Except.ok.inj h
      simp only [Bool.or_eq_true, Bool.not_eq_true', bne_iff_ne, ne_eq, not_or, not_not,
        Bool.not_eq_false, Bool.not_eq_true, Option.isSome_eq_false_iff,
        Option.isNone_iff_eq_none] at guards
      obtain ⟨⟨⟨ready, expected⟩, idle⟩, within⟩ := guards
      have bounded : a.exceedsTurns runTurn = false := by
        simpa [AttemptProjection.exceedsTurns, expected] using within
      exact .attempt ⟨a, found, fun event hp created _ =>
        ⟨_, .contextBound hp created fresh status ready expected idle bounded⟩⟩

theorem decision_of_startRunTurn {sessionId : SessionId} {attemptId : AttemptId}
    (h : s.decidePayload (.startRunTurn sessionId attemptId) = .ok payloads) :
    Decision s (.startRunTurn sessionId attemptId) payloads := by
  obtain ⟨a, ha, h⟩ := bind_eq_ok_iff.mp h
  obtain ⟨found, status⟩ := requireAttemptStatus_eq_ok_iff.mp ha
  split at h
  next => cases h
  next turn expected =>
    simp only at h
    split at h
    next => cases h
    next guards =>
      cases Except.ok.inj h
      simp only [Bool.or_eq_true, Bool.not_eq_true', not_or, Bool.not_eq_false,
        Bool.not_eq_true, Option.any_eq_true, Bool.and_eq_true, beq_iff_eq] at guards
      obtain ⟨⟨ready, binding, pending, number, last⟩, within⟩ := guards
      refine .attempt ⟨a, found, fun event hp _ sequence => ⟨_, .turnStarted hp status ready pending
        number ?_ expected within⟩⟩
      -- the binding is the last event, so the next sequence is the one after it
      rw [SessionSequence.checkedNext_eq_some_iff, expectedSequence_eq_ok_iff.mp sequence]
      simp [SessionAggregate.lastSequenceValue, last]

/-- The listed decisions are the only ones. -/
theorem decision_of_decidePayload {command : CommandPayload}
    (h : s.decidePayload command = .ok payloads) : Decision s command payloads := by
  cases command with
  | createSession =>
    simp only [SessionAggregate.decidePayload] at h
    split at h
    next => cases h
    next absent =>
      cases Except.ok.inj h
      exact .createSession (by simpa using absent)
  | renameSession =>
    obtain ⟨created, h⟩ := created_of_bind h
    cases Except.ok.inj h
    exact .renameSession created
  | archiveSession =>
    obtain ⟨created, h⟩ := created_of_bind h
    split at h
    next => cases h
    next active =>
      split at h
      next => cases h
      next settled =>
        cases Except.ok.inj h
        refine .archiveSession created (by simpa using active) fun a ha => ?_
        simp only [List.any_eq_true, Bool.or_eq_true, Bool.not_eq_true', not_exists, not_and,
          not_or, Bool.not_eq_false] at settled
        exact (settled a ha).1
  | unarchiveSession =>
    obtain ⟨created, h⟩ := created_of_bind h
    split at h
    next => cases h
    next archived =>
      cases Except.ok.inj h
      exact .unarchiveSession created (by simpa using archived)
  | selectModel =>
    obtain ⟨created, h⟩ := created_of_bind h
    cases Except.ok.inj h
    exact .selectModel created
  | admitPrompt =>
    obtain ⟨created, h⟩ := created_of_bind h
    split at h
    next => cases h
    next fresh =>
      cases Except.ok.inj h
      exact .admitPrompt created fresh
  | admitPromptAndPrepareAttempt =>
    obtain ⟨created, h⟩ := created_of_bind h
    split at h
    next => cases h
    next fresh =>
      split at h
      next => cases h
      next new =>
        obtain ⟨model, hmodel, h⟩ := bind_eq_ok_iff.mp h
        cases Except.ok.inj h
        exact .admitPromptAndPrepareAttempt created fresh new (requireModel_eq_ok_iff.mp hmodel)
  | prepareAttempt => exact decision_of_prepareAttempt h
  | startAttempt =>
    exact decision_of_attemptStatus (fun a event hs hp => ⟨_, .started hp hs⟩) h
  | appendAttemptText =>
    exact decision_of_attemptStatus (fun a event hs hp => ⟨_, .textAppended hp hs⟩) h
  | recordAttemptUsage =>
    exact decision_of_attemptStatus (fun a event hs hp => ⟨_, .usageRecorded hp hs⟩) h
  | requestAttemptCancellation =>
    exact decision_of_attemptStatus (fun a event hs hp => ⟨_, .cancellationRequested hp hs⟩) h
  | completeAttempt =>
    exact decision_of_settling (fun a event hs hu hp => ⟨_, .completed hp hu hs⟩) h
  | failAttempt => exact decision_of_settling (fun a event hs hu hp => ⟨_, .failed hp hu hs⟩) h
  | cancelAttempt =>
    exact decision_of_settling (fun a event hs hu hp => ⟨_, .cancelled hp hu hs⟩) h
  | markAttemptUnknown =>
    exact decision_of_settling (fun a event hs hu hp => ⟨_, .markedUnknown hp hu hs⟩) h
  | configureRunBudget =>
    obtain ⟨a, ha, h⟩ := bind_eq_ok_iff.mp h
    obtain ⟨found, status⟩ := requireAttemptStatus_eq_ok_iff.mp ha
    split at h
    next => cases h
    next unlimited =>
      cases Except.ok.inj h
      exact .attempt ⟨a, found, fun event hp _ _ =>
        ⟨_, .budgetConfigured hp (by simpa using unlimited) status⟩⟩
  | bindContextTurn => exact decision_of_bindContextTurn h
  | startRunTurn => exact decision_of_startRunTurn h
  | proposeToolCall =>
    obtain ⟨a, ha, h⟩ := bind_eq_ok_iff.mp h
    obtain ⟨found, status⟩ := requireAttemptStatus_eq_ok_iff.mp ha
    split at h
    next => cases h
    next fresh =>
      cases Except.ok.inj h
      exact .proposeToolCall found (by simpa using status) fresh
  | recordToolPermission =>
    exact decision_of_toolCallStatus (fun c event hs hp => ⟨_, .recorded hp hs⟩) h
  | answerToolPermission =>
    exact decision_of_toolCallStatus (fun c event hs hp => ⟨_, .answered hp hs⟩) h
  | startToolCall =>
    obtain ⟨c, hc, h⟩ := bind_eq_ok_iff.mp h
    obtain ⟨a, ha, h⟩ := bind_eq_ok_iff.mp h
    cases Except.ok.inj h
    obtain ⟨found, status⟩ := requireToolCallStatus_eq_ok_iff.mp hc
    obtain ⟨parent, active⟩ := requireAttemptStatus_eq_ok_iff.mp ha
    exact .toolCall ⟨c, found, fun event hp => ⟨_, .started hp status parent active⟩⟩
  | completeToolCall =>
    exact decision_of_toolCallStatus (fun c event hs hp => ⟨_, .completed hp hs⟩) h
  | failToolCall =>
    exact decision_of_toolCallStatus (fun c event hs hp => ⟨_, .failed hp hs⟩) h
  | denyToolCall =>
    exact decision_of_toolCallStatus (fun c event hs hp => ⟨_, .denied hp hs⟩) h
  | cancelToolCall =>
    exact decision_of_toolCallStatus (fun c event hs hp => ⟨_, .cancelled hp hs⟩) h
  | markToolCallUnknown =>
    exact decision_of_toolCallStatus (fun c event hs hp => ⟨_, .markedUnknown hp hs⟩) h
  | pauseAttemptForTools =>
    obtain ⟨a, ha, h⟩ := bind_eq_ok_iff.mp h
    obtain ⟨found, status⟩ := requireAttemptStatus_eq_ok_iff.mp ha
    split at h
    next => cases h
    next guards =>
      cases Except.ok.inj h
      simp only [Bool.or_eq_true, beq_iff_eq, Bool.not_eq_true', not_or, Bool.not_eq_true,
        Bool.not_eq_false, List.any_eq_true] at guards
      obtain ⟨⟨idle, started⟩, call, hcall, owner⟩ := guards
      exact .attempt ⟨a, found, fun event hp _ _ => ⟨_, .paused hp status idle started hcall owner⟩⟩
  | resumeAttemptAfterTools =>
    obtain ⟨a, ha, h⟩ := bind_eq_ok_iff.mp h
    obtain ⟨found, status⟩ := requireAttemptStatus_eq_ok_iff.mp ha
    split at h
    next => cases h
    next settled =>
      cases Except.ok.inj h
      exact .attempt ⟨a, found, fun event hp _ _ =>
        ⟨_, .resumed hp (by simpa using settled) status⟩⟩

end AutoHarness
