import AutoHarness.AggregateLog
import AutoHarness.Engine
import AutoHarness.Interleaving

namespace AutoHarness

open FallibleRun Interleaving

variable {M : Type} {source : M} {engine next : InMemoryEngine M} {event : EventEnvelope}
  {log : List EventEnvelope}

/-- The stream of one session inside a log of many. -/
def sessionEvents (sessionId : SessionId) (log : List EventEnvelope) : List EventEnvelope :=
  project EventEnvelope.sessionId sessionId log

/-- The commands that the events of a log name as their cause. -/
def causingCommands (log : List EventEnvelope) : List CommandId :=
  log.filterMap EventEnvelope.causingCommand?

/-- The logs that replay accepts. -/
structure Replayable (log : List EventEnvelope) : Prop where
  eventsDistinct : (log.map EventEnvelope.eventId).Nodup
  commandsDistinct : (causingCommands log).Nodup
  sessions : ∀ sessionId, ∃ s, SessionAggregate.rehydrate sessionId (sessionEvents sessionId log) = .ok s

/-- The engine that replaying the log ends in, field by field. -/
structure Replayed (source : M) (log : List EventEnvelope) (engine : InMemoryEngine M) : Prop where
  source : engine.metadataSource = source
  events : engine.events = log
  eventIds : engine.eventIds = (log.map EventEnvelope.eventId).toFinset
  commandIds : engine.commandIds = (causingCommands log).toFinset
  known : ∀ sessionId, engine.session sessionId = none ↔ sessionEvents sessionId log = []
  sessions : ∀ sessionId, SessionAggregate.rehydrate sessionId (sessionEvents sessionId log) =
    .ok (engine.current sessionId)

theorem replayed_new (source : M) : Replayed source [] (.new source) where
  source := rfl
  events := rfl
  eventIds := rfl
  commandIds := rfl
  known _ := ⟨fun _ => rfl, fun _ => rfl⟩
  sessions _ := rfl

theorem session_eq_some_current {sessionId : SessionId}
    (h : engine.session sessionId ≠ none) :
    engine.session sessionId = some (engine.current sessionId) := by
  obtain ⟨s, hs⟩ := Option.ne_none_iff_exists'.mp h
  simp [InMemoryEngine.current, hs]

/-- The log and the metadata source determine the engine. -/
theorem Replayed.unique (h : Replayed source log engine) (h' : Replayed source log next) :
    engine = next := by
  have sessions : engine.sessions = next.sessions := by
    refine Finmap.ext_lookup fun sessionId => ?_
    change engine.session sessionId = next.session sessionId
    by_cases empty : sessionEvents sessionId log = []
    · rw [(h.known sessionId).mpr empty, (h'.known sessionId).mpr empty]
    · rw [session_eq_some_current (mt (h.known sessionId).mp empty),
        session_eq_some_current (mt (h'.known sessionId).mp empty)]
      exact congrArg some (Except.ok.inj ((h.sessions sessionId).symm.trans (h'.sessions sessionId)))
  cases engine
  cases next
  simp only [InMemoryEngine.mk.injEq]
  exact ⟨h.source.trans h'.source.symm, sessions, h.events.trans h'.events.symm,
    h.eventIds.trans h'.eventIds.symm, h.commandIds.trans h'.commandIds.symm⟩

/-- What an accepted round of the replay loop has checked and done. -/
theorem replayOne_eq_ok_iff : engine.replayOne event = .ok next ↔
    event.eventId ∉ engine.eventIds ∧
      (∀ commandId, event.causingCommand? = some commandId → commandId ∉ engine.commandIds) ∧
      ∃ aggregate, (engine.current event.sessionId).applyOne event = .ok aggregate ∧
        next = { engine with
          sessions := engine.sessions.insert event.sessionId aggregate
          events := engine.events ++ [event]
          eventIds := insert event.eventId engine.eventIds
          commandIds := engine.commandIds ∪ event.causingCommand?.toFinset } := by
  unfold InMemoryEngine.replayOne
  split
  next seen => simp [seen]
  next fresh =>
    simp only [bind_eq_ok_iff, SessionAggregate.applyUncommittedBatch, run_cons, run_nil,
      Except.ok.injEq, exists_eq_right]
    unfold EventEnvelope.causingCommand?
    cases event.causation with
    | command commandId =>
      by_cases used : commandId ∈ engine.commandIds
      · simp [used]
      · have union : engine.commandIds ∪ {commandId} = insert commandId engine.commandIds := by
          rw [Finset.union_comm, Finset.insert_eq]
        simp [fresh, used, union, eq_comm (a := next)]
    | event cause => simp [fresh, eq_comm (a := next)]

theorem causingCommands_append (xs ys : List EventEnvelope) :
    causingCommands (xs ++ ys) = causingCommands xs ++ causingCommands ys :=
  List.filterMap_append

theorem causingCommands_singleton (event : EventEnvelope) :
    causingCommands [event] = event.causingCommand?.toList := by
  cases h : event.causingCommand? with
  | none => simp [causingCommands, h]
  | some commandId => simp [causingCommands, h]

@[simp] theorem current_insert_self (sessions : Finmap fun _ : SessionId => SessionAggregate)
    (source : M) (events : List EventEnvelope) (eventIds : Finset EventId)
    (commandIds : Finset CommandId) (sessionId : SessionId) (s : SessionAggregate) :
    InMemoryEngine.current ⟨source, sessions.insert sessionId s, events, eventIds, commandIds⟩
      sessionId = s := by
  simp [InMemoryEngine.current, InMemoryEngine.session]

/-- An accepted round extends the replayed log by its event. -/
theorem replayed_replayOne (h : Replayed source log engine)
    (step : engine.replayOne event = .ok next) : Replayed source (log ++ [event]) next := by
  obtain ⟨fresh, unused, aggregate, applied, rfl⟩ := replayOne_eq_ok_iff.mp step
  refine ⟨h.source, by rw [h.events], ?_, ?_, fun sessionId => ?_, fun sessionId => ?_⟩
  · simp [h.eventIds, List.toFinset_append]
  · rw [causingCommands_append, causingCommands_singleton, List.toFinset_append, h.commandIds]
    cases event.causingCommand? <;> simp
  · by_cases same : event.sessionId = sessionId
    · subst same
      simp [sessionEvents, InMemoryEngine.session, project_singleton_self]
    · have other := h.known sessionId
      simp only [sessionEvents, InMemoryEngine.session] at other ⊢
      rw [Finmap.lookup_insert_of_ne _ (Ne.symm same), project_append, project_singleton_ne same,
        List.append_nil]
      exact other
  · by_cases same : event.sessionId = sessionId
    · subst same
      rw [current_insert_self]
      rw [sessionEvents, project_append, project_singleton_self]
      exact run_concat_ok_iff.mpr ⟨_, h.sessions event.sessionId, applied⟩
    · have other := h.sessions sessionId
      simp only [sessionEvents, InMemoryEngine.current, InMemoryEngine.session] at other ⊢
      rw [Finmap.lookup_insert_of_ne _ (Ne.symm same), project_append, project_singleton_ne same,
        List.append_nil]
      exact other

theorem replayed_of_replay (h : InMemoryEngine.replay source log = .ok engine) :
    Replayed source log engine :=
  run_history (P := Replayed source) (replayed_new source)
    (fun _ _ _ _ _ hm step => replayed_replayOne hm step) h

theorem replayable_of_replay (h : InMemoryEngine.replay source log = .ok engine) :
    Replayable log := by
  have distinct : (log.map EventEnvelope.eventId).Nodup ∧ (causingCommands log).Nodup := by
    refine run_history (P := fun xs _ => (xs.map EventEnvelope.eventId).Nodup ∧
      (causingCommands xs).Nodup) ⟨List.nodup_nil, List.nodup_nil⟩
      (fun xs m event t hm inv step => ?_) h
    have replayed := replayed_of_replay hm
    obtain ⟨fresh, unused, -⟩ := replayOne_eq_ok_iff.mp step
    rw [replayed.eventIds, List.mem_toFinset] at fresh
    constructor
    · rw [List.map_append, List.nodup_append']
      exact ⟨inv.1, by simp, by simpa using fresh⟩
    · rw [causingCommands_append, causingCommands_singleton, List.nodup_append']
      cases cause : event.causingCommand? with
      | none => exact ⟨inv.2, by simp, by simp⟩
      | some commandId =>
        have new := unused commandId cause
        rw [replayed.commandIds, List.mem_toFinset] at new
        exact ⟨inv.2, by simp, by simpa using new⟩
  exact ⟨distinct.1, distinct.2, fun sessionId => ⟨_, (replayed_of_replay h).sessions sessionId⟩⟩

theorem Replayable.of_append {xs ys : List EventEnvelope} (h : Replayable (xs ++ ys)) :
    Replayable xs := by
  refine ⟨?_, ?_, fun sessionId => ?_⟩
  · exact (List.nodup_append'.mp (List.map_append ▸ h.eventsDistinct)).1
  · exact (List.nodup_append'.mp (causingCommands_append xs ys ▸ h.commandsDistinct)).1
  · obtain ⟨t, ht⟩ := h.sessions sessionId
    rw [sessionEvents, project_append] at ht
    obtain ⟨s, hs, -⟩ := run_append_ok_iff.mp ht
    exact ⟨s, hs⟩

/-- Replay accepts every log with distinct identities whose session streams rehydrate. -/
theorem replay_of_replayable (source : M) (h : Replayable log) :
    ∃ engine, InMemoryEngine.replay source log = .ok engine := by
  induction log using List.reverseRecOn with
  | nil => exact ⟨_, rfl⟩
  | append_singleton xs event ih =>
    obtain ⟨m, hm⟩ := ih h.of_append
    have replayed := replayed_of_replay hm
    have fresh : event.eventId ∉ m.eventIds := by
      have distinct := h.eventsDistinct
      rw [List.map_append, List.nodup_append'] at distinct
      rw [replayed.eventIds, List.mem_toFinset]
      simpa using distinct.2.2
    have unused : ∀ commandId, event.causingCommand? = some commandId →
        commandId ∉ m.commandIds := by
      intro commandId cause
      have distinct := h.commandsDistinct
      rw [causingCommands_append, causingCommands_singleton, cause, List.nodup_append'] at distinct
      rw [replayed.commandIds, List.mem_toFinset]
      simpa using distinct.2.2
    obtain ⟨t, ht⟩ := h.sessions event.sessionId
    rw [sessionEvents, project_append, project_singleton_self] at ht
    obtain ⟨s, hs, applied⟩ := run_concat_ok_iff.mp ht
    have current := Except.ok.inj ((replayed.sessions event.sessionId).symm.trans hs)
    rw [← current] at applied
    exact ⟨_, run_concat_ok_iff.mpr ⟨m, hm, replayOne_eq_ok_iff.mpr
      ⟨fresh, unused, t, applied, rfl⟩⟩⟩

theorem Replayable.of_sameStreams {xs ys : List EventEnvelope} (h : Replayable xs)
    (same : SameStreams EventEnvelope.sessionId xs ys) : Replayable ys := by
  have perm := same.perm
  refine ⟨?_, ?_, fun sessionId => ?_⟩
  · exact (perm.map _).nodup_iff.mp h.eventsDistinct
  · exact (perm.filterMap _).nodup_iff.mp h.commandsDistinct
  · rw [sessionEvents, ← same sessionId]
    exact h.sessions sessionId

/-- Everything of a replayed engine but the order of its events is determined by the streams. -/
theorem Replayed.of_sameStreams {xs ys : List EventEnvelope} {e f : InMemoryEngine M}
    (he : Replayed source xs e) (hf : Replayed source ys f)
    (same : SameStreams EventEnvelope.sessionId xs ys) :
    { e with events := f.events } = f := by
  have perm := same.perm
  refine Replayed.unique ?_ hf
  refine ⟨he.source, hf.events, ?_, ?_, fun sessionId => ?_, fun sessionId => ?_⟩
  · rw [he.eventIds]
    exact List.toFinset_eq_of_perm _ _ (perm.map _)
  · rw [he.commandIds]
    exact List.toFinset_eq_of_perm _ _ (perm.filterMap _)
  · rw [sessionEvents, ← same sessionId]
    exact he.known sessionId
  · rw [sessionEvents, ← same sessionId]
    exact he.sessions sessionId

end AutoHarness
