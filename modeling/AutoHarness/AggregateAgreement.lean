import AutoHarness.AggregateDecision
import AutoHarness.AggregateRepresentation

namespace AutoHarness

open FallibleRun IndexedList

variable {s t : SessionAggregate} {event : EventEnvelope} {payload : EventPayload}
  {payloads : List EventPayload}

/-- Whatever envelopes the payloads are given, as long as each fits the state it meets,
`apply_one` takes them all in order. -/
def Accepts : SessionAggregate → List EventPayload → Prop
  | _, [] => True
  | s, payload :: payloads => ∀ event, event.payload = payload → EnvelopeFits s event →
      ∃ t, s.applyOne event = .ok t ∧ Accepts t payloads

theorem accepts_cons (h : ∀ event, event.payload = payload → EnvelopeFits s event →
    ∃ u, SessionStep s event u ∧ Accepts (u.recordApplied event) payloads) :
    Accepts s (payload :: payloads) := by
  intro event hp fits
  obtain ⟨u, step, rest⟩ := h event hp fits
  exact ⟨_, applyOne_eq_ok_iff.mpr ⟨fits, u, step, rfl⟩, rest⟩

theorem accepts_singleton (h : ∀ event, event.payload = payload → EnvelopeFits s event →
    ∃ u, SessionStep s event u) : Accepts s [payload] := by
  refine accepts_cons fun event hp fits => ?_
  obtain ⟨u, step⟩ := h event hp fits
  exact ⟨u, step, trivial⟩

/-- Only created sessions have attempts or can be archived. -/
def CreatedFirst (s : SessionAggregate) : Prop :=
  s.isCreated = false → s.attempts = [] ∧ s.isArchived = false

theorem createdFirst_step (h : CreatedFirst s) (step : SessionStep s event t) :
    CreatedFirst t := by
  cases step with
  | header change =>
    cases change with
    | created => nofun
    | renamed | modelSelected => exact h
    | archived _ created | unarchived _ created =>
      intro absent
      cases created.symm.trans absent
  | inputAdmitted | toolCallProposed | toolCallChanged => exact h
  | attemptPrepared _ created | retryPrepared _ created =>
    intro absent
    cases created.symm.trans absent
  | attemptChanged _ _ _ ht =>
    subst ht
    intro absent
    obtain ⟨attempts, archived⟩ := h absent
    exact ⟨by simp [attempts], archived⟩

theorem rehydrate_createdFirst {sessionId : SessionId} {log : List EventEnvelope}
    (h : SessionAggregate.rehydrate sessionId log = .ok s) : CreatedFirst s :=
  rehydrate_invariant (fun _ => ⟨rfl, rfl⟩)
    (fun _ _ _ hs step => createdFirst_step hs step) (fun _ _ hs => hs) h

theorem CreatedFirst.of_attempt (h : CreatedFirst s) {id : AttemptId} {a : AttemptProjection}
    (found : s.attempt id = some a) : s.isCreated = true := by
  by_contra absent
  obtain ⟨i, -, ha⟩ := Option.bind_eq_some_iff.mp found
  simp [(h (by simpa using absent)).1] at ha

theorem CreatedFirst.of_archived (h : CreatedFirst s) (archived : s.isArchived = true) :
    s.isCreated = true := by
  by_contra absent
  cases archived.symm.trans (h (by simpa using absent)).2

theorem AttemptAccepts.accepts {id : AttemptId} (h : AttemptAccepts s id payload)
    (created : CreatedFirst s) : Accepts s [payload] := by
  obtain ⟨a, found, change⟩ := h
  obtain ⟨i, hi, ha⟩ := Option.bind_eq_some_iff.mp found
  refine accepts_singleton fun event hp fits => ?_
  obtain ⟨b, hb⟩ := change event hp (created.of_attempt found) fits.sequence
  exact ⟨_, .attemptChanged hi ha hb rfl⟩

theorem ToolCallAccepts.accepts {id : ToolCallId} (h : ToolCallAccepts s id payload) :
    Accepts s [payload] := by
  obtain ⟨c, found, change⟩ := h
  obtain ⟨i, hi, hc⟩ := Option.bind_eq_some_iff.mp found
  refine accepts_singleton fun event hp _ => ?_
  obtain ⟨d, hd⟩ := change event hp
  exact ⟨_, .toolCallChanged hi hc hd⟩

theorem findIdx_of_input {inputId : InputId} {input : AdmittedInput}
    (h : s.input inputId = some input) :
    ∃ i, s.admittedInputs.findIdx? (fun input => input.inputId == inputId) = some i ∧
      s.admittedInputs[i]? = some input := by
  obtain ⟨hp, i, hi, rfl, first⟩ := List.find?_eq_some_iff_getElem.mp h
  refine ⟨i, List.findIdx?_eq_some_iff_getElem.mpr ⟨hi, hp, ?_⟩, by simp [hi]⟩
  intro j hj
  simpa using first j hj

/-- Admission, with the derived title of a first prompt, leads to a state with one more input. -/
theorem accepts_admitPrompt {inputId : InputId} {prompt : PromptText} {deliveryMode : DeliveryMode}
    (created : s.isCreated = true) (fresh : inputId ∉ s.admittedInputIds)
    (rest : ∀ t : SessionAggregate, t.isCreated = true → t.attemptIndexes = s.attemptIndexes →
      t.selectedModel = s.selectedModel →
      t.admittedInputs = s.admittedInputs ++ [⟨inputId, prompt, deliveryMode, none⟩] →
      Accepts t payloads) :
    Accepts s (s.admitPromptEvents inputId prompt deliveryMode ++ payloads) := by
  unfold SessionAggregate.admitPromptEvents
  split
  next =>
    refine accepts_cons fun event hp _ => ⟨_, .inputAdmitted hp created fresh, ?_⟩
    refine accepts_cons fun event hp _ => ⟨_, .header (.renamed hp created), ?_⟩
    exact rest _ created rfl rfl rfl
  next =>
    refine accepts_cons fun event hp _ => ⟨_, .inputAdmitted hp created fresh, ?_⟩
    exact rest _ created rfl rfl rfl

theorem findIdx_of_admitted (h : InputsExact s) {inputId : InputId} (prompt : PromptText)
    (deliveryMode : DeliveryMode) (fresh : inputId ∉ s.admittedInputIds) :
    List.findIdx? (fun input : AdmittedInput => input.inputId == inputId)
      (s.admittedInputs ++ [⟨inputId, prompt, deliveryMode, none⟩]) =
        some s.admittedInputs.length := by
  have absent : s.admittedInputs.findIdx? (fun input => input.inputId == inputId) = none := by
    rw [List.findIdx?_eq_none_iff]
    intro input hm
    rw [h.ids, List.mem_toFinset, List.mem_map] at fresh
    simpa using fun same => fresh ⟨input, hm, same⟩
  simp [List.findIdx?_append, absent]

/-- Whatever `decide` returns is accepted by `apply_one`. -/
theorem Decision.accepts {command : CommandPayload} (represented : Represented s)
    (created : CreatedFirst s) (d : Decision s command payloads) : Accepts s payloads := by
  cases d with
  | createSession absent =>
    exact accepts_singleton fun event hp _ => ⟨_, .header (.created hp absent)⟩
  | renameSession exist =>
    exact accepts_singleton fun event hp _ => ⟨_, .header (.renamed hp exist)⟩
  | archiveSession exist active =>
    exact accepts_singleton fun event hp _ => ⟨_, .header (.archived hp exist active)⟩
  | unarchiveSession exist archived =>
    exact accepts_singleton fun event hp _ => ⟨_, .header (.unarchived hp exist archived)⟩
  | selectModel exist =>
    exact accepts_singleton fun event hp _ => ⟨_, .header (.modelSelected hp exist)⟩
  | @admitPrompt _ inputId prompt deliveryMode exist fresh =>
    rw [← List.append_nil (s.admitPromptEvents inputId prompt deliveryMode)]
    exact accepts_admitPrompt exist fresh fun _ _ _ _ _ => trivial
  | @admitPromptAndPrepareAttempt _ inputId prompt deliveryMode _ _ exist fresh new selected =>
    refine accepts_admitPrompt exist fresh fun t existt indexes model inputs => ?_
    have position := findIdx_of_admitted represented.inputs prompt deliveryMode fresh
    rw [← inputs] at position
    have input : t.admittedInputs[s.admittedInputs.length]? =
        some ⟨inputId, prompt, deliveryMode, none⟩ := by simp [inputs]
    rw [← indexes] at new
    exact accepts_singleton fun event hp _ =>
      ⟨_, .attemptPrepared hp existt new position input rfl (model.trans selected)⟩
  | prepareAttempt exist new found unpromoted selected =>
    obtain ⟨i, hi, hin⟩ := findIdx_of_input found
    exact accepts_singleton fun event hp _ =>
      ⟨_, .attemptPrepared hp exist new hi hin unpromoted selected⟩
  | prepareRetry exist new found prior retry same =>
    obtain ⟨i, hi, -⟩ := findIdx_of_input found
    exact accepts_singleton fun event hp _ =>
      ⟨_, .retryPrepared hp exist new hi prior retry same rfl⟩
  | proposeToolCall found inFlight fresh =>
    exact accepts_singleton fun event hp _ =>
      ⟨_, .toolCallProposed hp (created.of_attempt found) fresh found inFlight⟩
  | attempt accepted => exact accepted.accepts created
  | toolCall accepted => exact accepted.accepts

theorem decision_of_decide {command : CommandEnvelope} (h : s.decide command = .ok payloads) :
    Decision s command.payload payloads := by
  unfold SessionAggregate.decide at h
  split at h
  next => cases h
  next =>
    split at h
    next => exact decision_of_decidePayload h
    next =>
      obtain ⟨_, -, h⟩ := bind_eq_ok_iff.mp h
      exact decision_of_decidePayload h

theorem Decision.nonempty {command : CommandPayload} (d : Decision s command payloads) :
    payloads ≠ [] := by
  cases d with
  | admitPrompt => unfold SessionAggregate.admitPromptEvents; split <;> simp
  | _ => simp

end AutoHarness
