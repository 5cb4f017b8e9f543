import AutoHarness.EngineLive

namespace AutoHarness

open FallibleRun Interleaving

variable {s t : SessionAggregate} {event : EventEnvelope} {events : List EventEnvelope}
  {command : CommandEnvelope} {payloads : List EventPayload}

/-- The events of the commands that stay available on an archived session. -/
def EventPayload.allowedWhenArchived : EventPayload → Bool
  | .sessionRenamed _ | .sessionUnarchived => true
  | _ => false

/-- The event respects the archive: nothing else happens to an archived session, and only a
quiescent session is archived. -/
structure Guarded (s : SessionAggregate) (event : EventEnvelope) : Prop where
  frozen : s.isArchived = true → event.payload.allowedWhenArchived = true
  quiescent : event.payload = .sessionArchived → ∀ a ∈ s.attempts, a.status.isSettled = true

theorem AttemptChange.not_lifecycle {id : AttemptId} {a b : AttemptProjection}
    (h : AttemptChange s event id a b) :
    event.payload.allowedWhenArchived = false ∧ event.payload ≠ .sessionArchived := by
  cases h with
  | started hp | textAppended hp | usageRecorded hp | cancellationRequested hp | completed hp
  | failed hp | cancelled hp | markedUnknown hp | budgetConfigured hp | contextBound hp
  | turnStarted hp | paused hp | resumed hp => rw [hp]; exact ⟨rfl, nofun⟩

/-- Archived sessions are quiescent. -/
def ArchivedSettled (s : SessionAggregate) : Prop :=
  s.isArchived = true → ∀ a ∈ s.attempts, a.status.isSettled = true

theorem archivedSettled_step (h : ArchivedSettled s) (guarded : Guarded s event)
    (step : SessionStep s event t) : ArchivedSettled t := by
  cases step with
  | header change =>
    cases change with
    | created | renamed | modelSelected => exact h
    | archived hp => exact fun _ => guarded.quiescent hp
    | unarchived => nofun
  | inputAdmitted | toolCallProposed | toolCallChanged => exact h
  | attemptPrepared hp | retryPrepared hp =>
    intro archived
    have allowed := guarded.frozen archived
    rw [hp] at allowed
    cases allowed
  | attemptChanged _ _ change ht =>
    subst ht
    intro archived
    cases change.not_lifecycle.1.symm.trans (guarded.frozen archived)

theorem archivedSettled_run (along : Along SessionAggregate.applyOne Guarded s events)
    (h : ArchivedSettled s) (accepted : s.applyUncommittedBatch events = .ok t) :
    ArchivedSettled t := by
  refine along.invariant h (fun m event u hm guarded step => ?_) accepted
  obtain ⟨-, v, hv, rfl⟩ := applyOne_eq_ok_iff.mp step
  have next := archivedSettled_step hm guarded hv
  exact next

/-- Without an archiving event an active session stays active. -/
theorem active_step (active : s.isArchived = false) (other : event.payload ≠ .sessionArchived)
    (step : SessionStep s event t) : t.isArchived = false := by
  cases step with
  | header change =>
    cases change with
    | archived hp => exact absurd hp other
    | unarchived => rfl
    | created | renamed | modelSelected => exact active
  | attemptChanged _ _ _ ht => rw [ht]; exact active
  | inputAdmitted | attemptPrepared | retryPrepared | toolCallProposed | toolCallChanged =>
    exact active

theorem guarded_of_active (active : s.isArchived = false)
    (other : ∀ event ∈ events, event.payload ≠ .sessionArchived) :
    Along SessionAggregate.applyOne Guarded s events := by
  induction events generalizing s with
  | nil => trivial
  | cons event events ih =>
    refine ⟨⟨fun archived => ?_, fun hp => ?_⟩, fun t ht => ?_⟩
    · cases active.symm.trans archived
    · exact absurd hp (other event List.mem_cons_self)
    · obtain ⟨-, u, hu, rfl⟩ := applyOne_eq_ok_iff.mp ht
      have next := active_step active (other event List.mem_cons_self) hu
      exact ih next fun e he => other e (List.mem_cons_of_mem _ he)

/-- On an archived session `decide` accepts a new title or the way back, nothing else. -/
theorem decide_archived (archived : s.isArchived = true) (created : s.isCreated = true)
    (h : s.decide command = .ok payloads) :
    ∃ payload, payloads = [payload] ∧ payload.allowedWhenArchived = true ∧
      payload ≠ .sessionArchived := by
  unfold SessionAggregate.decide at h
  split at h
  next => cases h
  next =>
    split at h
    next skips =>
      cases hc : command.payload with
      | createSession =>
        simp [hc, SessionAggregate.decidePayload, created] at h
      | renameSession sessionId title =>
        rw [hc] at h
        obtain ⟨-, h⟩ := created_of_bind h
        cases Except.ok.inj h
        exact ⟨_, rfl, rfl, by simp⟩
      | archiveSession =>
        rw [hc] at h
        obtain ⟨-, h⟩ := created_of_bind h
        simp [archived] at h
      | unarchiveSession =>
        rw [hc] at h
        obtain ⟨-, h⟩ := created_of_bind h
        simp only [archived, Bool.not_true, Bool.false_eq_true, if_false] at h
        cases Except.ok.inj h
        exact ⟨_, rfl, rfl, by simp⟩
      | _ =>
        rw [hc] at skips
        cases skips
    next =>
      obtain ⟨_, active, -⟩ := bind_eq_ok_iff.mp h
      cases archived.symm.trans (requireNotArchived_eq_ok_iff.mp active)

theorem admitPromptEvents_not_archived {inputId : InputId} {prompt : PromptText}
    {deliveryMode : DeliveryMode} :
    .sessionArchived ∉ s.admitPromptEvents inputId prompt deliveryMode := by
  unfold SessionAggregate.admitPromptEvents
  split <;> simp

section Live

variable {M : Type} {engine : InMemoryEngine M} {prepared : PreparedCommand}

theorem Prepared.step_singleton (p : Prepared engine command prepared)
    (single : prepared.events = [event]) :
    EnvelopeFits (engine.current command.sessionId) event ∧
      ∃ u, SessionStep (engine.current command.sessionId) event u := by
  have applied := p.applied
  rw [single, SessionAggregate.applyUncommittedBatch, run_cons, bind_eq_ok_iff] at applied
  obtain ⟨m, hm, -⟩ := applied
  obtain ⟨fits, u, hu, -⟩ := applyOne_eq_ok_iff.mp hm
  exact ⟨fits, u, hu⟩

theorem ToolCallChange.not_lifecycle {id : ToolCallId} {c d : ToolCallProjection}
    (h : ToolCallChange s event id c d) : event.payload ≠ .sessionArchived := by
  cases h with
  | recorded hp | answered hp | started hp | completed hp | failed hp | denied hp | cancelled hp
  | markedUnknown hp => rw [hp]; nofun

/-- An archiving event is prepared alone and only for a quiescent session. -/
theorem Prepared.quiescent (p : Prepared engine command prepared) (live : Live engine)
    (hm : event ∈ prepared.events) (archives : event.payload = .sessionArchived) :
    prepared.events.map EventEnvelope.payload = [.sessionArchived] ∧
      ∀ a ∈ (engine.current command.sessionId).attempts, a.status.isSettled = true := by
  have member : .sessionArchived ∈ prepared.events.map EventEnvelope.payload :=
    List.mem_map.mpr ⟨event, hm, archives⟩
  have decision := decision_of_decide p.decided
  generalize command.payload = request at decision
  generalize hp : prepared.events.map EventEnvelope.payload = payloads at decision member
  cases decision with
  | archiveSession _ _ settled => exact ⟨rfl, settled⟩
  | admitPrompt => exact absurd member admitPromptEvents_not_archived
  | admitPromptAndPrepareAttempt =>
    rcases List.mem_append.mp member with member | member
    · exact absurd member admitPromptEvents_not_archived
    · simp at member
  | attempt accepted =>
    obtain ⟨single, hs, payload⟩ := List.map_eq_singleton_iff.mp hp
    obtain ⟨a, found, change⟩ := accepted
    obtain ⟨fits, -⟩ := p.step_singleton hs
    have created := (rehydrate_createdFirst (live.replayed.sessions _)).of_attempt found
    obtain ⟨b, hb⟩ := change single payload created fits.sequence
    rw [List.mem_singleton, ← payload] at member
    exact absurd member.symm hb.not_lifecycle.2
  | toolCall accepted =>
    obtain ⟨single, hs, payload⟩ := List.map_eq_singleton_iff.mp hp
    obtain ⟨c, -, change⟩ := accepted
    obtain ⟨d, hd⟩ := change single payload
    rw [List.mem_singleton, ← payload] at member
    exact absurd member.symm hd.not_lifecycle
  | createSession | renameSession | unarchiveSession | selectModel | prepareAttempt | prepareRetry
  | proposeToolCall => simp at member

/-- Every prepared batch respects the archive. -/
theorem Prepared.guarded (p : Prepared engine command prepared) (live : Live engine) :
    Along SessionAggregate.applyOne Guarded (engine.current command.sessionId) prepared.events := by
  cases archived : (engine.current command.sessionId).isArchived with
  | true =>
    have created := (rehydrate_createdFirst (live.replayed.sessions _)).of_archived archived
    obtain ⟨payload, hp, allowed, other⟩ := decide_archived archived created p.decided
    obtain ⟨event, hs, rfl⟩ := List.map_eq_singleton_iff.mp hp
    rw [hs]
    exact ⟨⟨fun _ => allowed, fun archives => absurd archives other⟩, fun _ _ => trivial⟩
  | false =>
    by_cases archives : ∃ event ∈ prepared.events, event.payload = .sessionArchived
    · obtain ⟨event, hm, archives⟩ := archives
      obtain ⟨hp, settled⟩ := p.quiescent live hm archives
      obtain ⟨single, hs, -⟩ := List.map_eq_singleton_iff.mp hp
      rw [hs]
      exact ⟨⟨fun still => (nomatch archived.symm.trans still), fun _ => settled⟩,
        fun _ _ => trivial⟩
    · push Not at archives
      exact guarded_of_active archived archives

variable [EventMetadataSource M]

/-- In the stream of every live session each event respects the archive. -/
theorem reachable_guarded (h : Reachable engine) (sessionId : SessionId) :
    Along SessionAggregate.applyOne Guarded (.empty sessionId)
      (sessionEvents sessionId engine.events) := by
  induction h with
  | new => trivial
  | @execute before command reachable ih =>
    have live := reachable_live reachable
    obtain ⟨rest, ⟨e, he⟩ | ⟨prepared, p, he⟩⟩ := execute_cases before command
    · rw [he]
      exact ih
    · rw [he]
      change Along _ _ _ (sessionEvents sessionId (before.events ++ prepared.events))
      by_cases same : sessionId = command.sessionId
      · subst same
        rw [p.sessionEvents_self, along_append (live.replayed.sessions command.sessionId)]
        exact ⟨ih, p.guarded live⟩
      · rw [p.sessionEvents_ne same]
        exact ih

/-- In every prefix of the stream of a live session, an archived session is quiescent and the
next event gives it a title or takes it out of the archive. -/
theorem live_archive_frozen (h : Reachable engine) {sessionId : SessionId}
    {before after : List EventEnvelope}
    (split : sessionEvents sessionId engine.events = before ++ after) :
    ∃ s, SessionAggregate.rehydrate sessionId before = .ok s ∧
      (s.isArchived = true → (∀ a ∈ s.attempts, a.status.isSettled = true) ∧
        ∀ event, after.head? = some event →
          (∃ title, event.payload = .sessionRenamed title) ∨
            event.payload = .sessionUnarchived) := by
  have accepted := (reachable_live h).replayed.sessions sessionId
  have guarded := reachable_guarded h sessionId
  rw [split] at accepted guarded
  obtain ⟨s, hs, -⟩ := run_append_ok_iff.mp accepted
  obtain ⟨early, late⟩ := (along_append hs).mp guarded
  have settled := archivedSettled_run early (fun archived => nomatch archived) hs
  refine ⟨s, hs, fun archived => ⟨settled archived, fun event head => ?_⟩⟩
  obtain ⟨rest, rfl⟩ := List.head?_eq_some_iff.mp head
  have allowed := late.1.frozen archived
  cases hp : event.payload with
  | sessionRenamed title => exact .inl ⟨title, rfl⟩
  | sessionUnarchived => exact .inr rfl
  | _ =>
    rw [hp] at allowed
    cases allowed

end Live

def archivedEngine : InMemoryEngine SampleSource :=
  (sampleEngine.execute (sampleCommand 2 (.archiveSession sampleSession))).2

theorem live_archive_frozen_sample :
    ∃ s, SessionAggregate.rehydrate sampleSession
        (sessionEvents sampleSession archivedEngine.events) = .ok s ∧
      (s.isArchived = true → ∀ a ∈ s.attempts, a.status.isSettled = true) := by
  have reachable : Reachable archivedEngine := .execute _ sampleEngine_reachable
  have whole : sessionEvents sampleSession archivedEngine.events =
      sessionEvents sampleSession archivedEngine.events ++ [] := (List.append_nil _).symm
  obtain ⟨s, hs, frozen⟩ := live_archive_frozen reachable whole
  exact ⟨s, hs, fun archived => (frozen archived).1⟩

/-- A log that archives a session with a prepared attempt and then starts the attempt. -/
def archivedAttemptPayloads : List EventPayload :=
  [.sessionCreated, .modelSelected sampleModel,
    .inputAdmitted sampleInput samplePrompt .nextTurn,
    .attemptPrepared sampleAttempt sampleInput sampleModel none, .sessionArchived,
    .attemptStarted sampleAttempt]

theorem rehydrate_archive_unguarded :
    (∃ s, SessionAggregate.rehydrate sampleSession
        ((sampleEvents .first archivedAttemptPayloads).take 5) = .ok s ∧
      s.isArchived = true ∧ s.attempts.map (fun a => a.status) = [.prepared]) ∧
    ∃ t, SessionAggregate.rehydrate sampleSession (sampleEvents .first archivedAttemptPayloads) =
        .ok t ∧
      t.isArchived = true ∧ t.attempts.map (fun a => a.status) = [.inFlight] :=
  ⟨⟨_, rfl, rfl, rfl⟩, ⟨_, rfl, rfl, rfl⟩⟩

end AutoHarness
