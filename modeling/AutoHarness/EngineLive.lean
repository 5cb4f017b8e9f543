import AutoHarness.ContextBinding
import AutoHarness.EnginePrepare

namespace AutoHarness

open FallibleRun Interleaving

variable {M : Type} {engine : InMemoryEngine M}

/-- The engine is the one that a replay of its own events builds. -/
structure Live (engine : InMemoryEngine M) : Prop where
  replayed : Replayed engine.metadataSource engine.events engine
  replayable : Replayable engine.events

theorem live_new (source : M) : Live (.new source) := by
  have accepted : InMemoryEngine.replay source [] = .ok (.new source) := rfl
  exact ⟨replayed_new source, replayable_of_replay accepted⟩

theorem Live.with_source (h : Live engine) (source : M) :
    Live { engine with metadataSource := source } :=
  ⟨⟨rfl, rfl, h.replayed.eventIds, h.replayed.commandIds, h.replayed.known, h.replayed.sessions⟩,
    h.replayable⟩

theorem Live.of_replay {source : M} {log : List EventEnvelope}
    (h : InMemoryEngine.replay source log = .ok engine) : Live engine := by
  have replayed := replayed_of_replay h
  rw [← replayed.events, ← replayed.source] at h
  exact ⟨replayed_of_replay h, replayable_of_replay h⟩

theorem Live.replay (h : Live engine) (source : M) :
    InMemoryEngine.replay source engine.events = .ok { engine with metadataSource := source } := by
  obtain ⟨again, ha⟩ := replay_of_replayable source h.replayable
  rw [ha, (replayed_of_replay ha).unique (h.with_source source).replayed]

theorem Live.rehydrate (h : Live engine) {sessionId : SessionId} {s : SessionAggregate}
    (found : engine.session sessionId = some s) :
    SessionAggregate.rehydrate sessionId (sessionEvents sessionId engine.events) = .ok s := by
  have current := h.replayed.sessions sessionId
  rwa [InMemoryEngine.current, found] at current

section Commit

variable {command : CommandEnvelope} {prepared : PreparedCommand}

theorem Prepared.sessionEvents_self (p : Prepared engine command prepared) :
    sessionEvents command.sessionId (engine.events ++ prepared.events) =
      sessionEvents command.sessionId engine.events ++ prepared.events := by
  rw [sessionEvents, project_append, project_eq_self p.session]
  rfl

theorem Prepared.sessionEvents_ne (p : Prepared engine command prepared) {sessionId : SessionId}
    (other : sessionId ≠ command.sessionId) :
    sessionEvents sessionId (engine.events ++ prepared.events) =
      sessionEvents sessionId engine.events := by
  have none : project EventEnvelope.sessionId sessionId prepared.events = [] := by
    refine project_of_ne fun event hm => ?_
    rw [p.session event hm]
    exact Ne.symm other
  rw [sessionEvents, project_append, none, List.append_nil]
  rfl

theorem Prepared.session_self (p : Prepared engine command prepared) :
    (engine.commitPrepared prepared).session command.sessionId = some prepared.candidate := by
  simp [InMemoryEngine.commitPrepared, InMemoryEngine.session, p.sessionId]

theorem Prepared.session_ne (p : Prepared engine command prepared) {sessionId : SessionId}
    (other : sessionId ≠ command.sessionId) :
    (engine.commitPrepared prepared).session sessionId = engine.session sessionId := by
  simp only [InMemoryEngine.commitPrepared, InMemoryEngine.session, p.sessionId]
  exact Finmap.lookup_insert_of_ne _ other

/-- The batch continues the stream of its session. -/
theorem Prepared.rehydrate (p : Prepared engine command prepared) (h : Live engine) :
    SessionAggregate.rehydrate command.sessionId
      (sessionEvents command.sessionId engine.events ++ prepared.events) = .ok prepared.candidate :=
  run_append_ok_iff.mpr ⟨_, h.replayed.sessions _, p.applied⟩

theorem replayable_commit (h : Live engine) (p : Prepared engine command prepared) :
    Replayable (engine.events ++ prepared.events) := by
  refine ⟨?_, ?_, fun sessionId => ?_⟩
  · rw [List.map_append, List.nodup_append']
    refine ⟨h.replayable.eventsDistinct, p.distinct, fun id old new => ?_⟩
    obtain ⟨event, hm, rfl⟩ := List.mem_map.mp new
    have fresh := p.fresh event hm
    rw [h.replayed.eventIds, List.mem_toFinset] at fresh
    exact fresh old
  · have unused := p.unused
    rw [h.replayed.commandIds, List.mem_toFinset] at unused
    rw [causingCommands_append, p.causes, List.nodup_append']
    exact ⟨h.replayable.commandsDistinct, by simp, by simpa using unused⟩
  · by_cases same : sessionId = command.sessionId
    · subst same
      rw [p.sessionEvents_self]
      exact ⟨_, p.rehydrate h⟩
    · rw [p.sessionEvents_ne same]
      exact h.replayable.sessions sessionId

theorem replayed_commit (h : Live engine) (p : Prepared engine command prepared) :
    Replayed engine.metadataSource (engine.events ++ prepared.events)
      (engine.commitPrepared prepared) := by
  refine ⟨rfl, rfl, ?_, ?_, fun sessionId => ?_, fun sessionId => ?_⟩
  · simp only [InMemoryEngine.commitPrepared, h.replayed.eventIds, p.eventIds, List.map_append,
      List.toFinset_append]
  · rw [causingCommands_append, p.causes]
    simp [InMemoryEngine.commitPrepared, h.replayed.commandIds, p.commandId, List.toFinset_append]
  · by_cases same : sessionId = command.sessionId
    · subst same
      simp [p.session_self, p.sessionEvents_self, p.nonempty]
    · rw [p.session_ne same, p.sessionEvents_ne same]
      exact h.replayed.known sessionId
  · by_cases same : sessionId = command.sessionId
    · subst same
      rw [p.sessionEvents_self, InMemoryEngine.current, p.session_self]
      exact p.rehydrate h
    · rw [p.sessionEvents_ne same, InMemoryEngine.current, p.session_ne same]
      exact h.replayed.sessions sessionId

theorem Live.commit (h : Live engine) (p : Prepared engine command prepared) :
    Live (engine.commitPrepared prepared) :=
  ⟨replayed_commit h p, replayable_commit h p⟩

/-- A prepared command stays prepared when only the metadata source moves on. -/
theorem Prepared.with_source (p : Prepared engine command prepared) (source : M) :
    Prepared { engine with metadataSource := source } command prepared :=
  ⟨p.sessionId, p.commandId, p.unused, p.decided, p.expected, p.eventIds, p.distinct, p.fresh,
    p.session, p.causes, p.nonempty, p.applied⟩

end Commit

section Execute

variable [EventMetadataSource M]

/-- Every command is either rejected, moving only the metadata source, or commits what it
prepared. -/
theorem execute_cases (engine : InMemoryEngine M) (command : CommandEnvelope) :
    ∃ rest, (∃ e, engine.execute command = (.error e, { engine with metadataSource := rest })) ∨
      ∃ prepared, Prepared engine command prepared ∧ engine.execute command =
        (.ok prepared.events, { engine with metadataSource := rest }.commitPrepared prepared) := by
  unfold InMemoryEngine.execute
  split
  next e rest _ => exact ⟨rest, .inl ⟨e, rfl⟩⟩
  next prepared rest h => exact ⟨rest, .inr ⟨prepared, prepared_of_prepare h, rfl⟩⟩

theorem Live.execute (h : Live engine) (command : CommandEnvelope) :
    Live (engine.execute command).2 := by
  obtain ⟨rest, ⟨e, he⟩ | ⟨prepared, p, he⟩⟩ := execute_cases engine command
  · rw [he]
    exact h.with_source rest
  · rw [he]
    exact (h.with_source rest).commit (p.with_source rest)

theorem reachable_live (h : Reachable engine) : Live engine := by
  induction h with
  | new source => exact live_new source
  | execute command _ ih => exact ih.execute command

/-- The answers to a sequence of commands and the engine after them. -/
def InMemoryEngine.executeAll (engine : InMemoryEngine M) :
    List CommandEnvelope → List (Except EngineError (List EventEnvelope)) × InMemoryEngine M
  | [] => ([], engine)
  | command :: commands =>
    let (answer, next) := engine.execute command
    let (answers, final) := next.executeAll commands
    (answer :: answers, final)

theorem Reachable.executeAll (h : Reachable engine) (commands : List CommandEnvelope) :
    Reachable (engine.executeAll commands).2 := by
  induction commands generalizing engine with
  | nil => exact h
  | cons command commands ih => exact ih (.execute command h)

/-- Replaying the events of a live engine rebuilds it, up to the source of new metadata, and
with the same source it answers every later sequence of commands alike. -/
theorem replay_eq_live (h : Reachable engine) :
    (∀ source : M, ∃ replayed, InMemoryEngine.replay source engine.events = .ok replayed ∧
      replayed.sessions = engine.sessions ∧ replayed.events = engine.events ∧
      replayed.eventIds = engine.eventIds ∧ replayed.commandIds = engine.commandIds) ∧
    ∃ replayed, InMemoryEngine.replay engine.metadataSource engine.events = .ok replayed ∧
      ∀ commands, (replayed.executeAll commands).1 = (engine.executeAll commands).1 := by
  have live := reachable_live h
  refine ⟨fun source => ⟨_, live.replay source, rfl, rfl, rfl, rfl⟩, ?_⟩
  exact ⟨_, live.replay engine.metadataSource, fun _ => rfl⟩

/-- Bindings, turn counters and dispatch boundaries of every accepted log and of every session
of a live engine. -/
theorem context_turn_discipline :
    (∀ sessionId log s, SessionAggregate.rehydrate sessionId log = .ok s →
      ContextTurnDiscipline log s) ∧
    ∀ (engine : InMemoryEngine M) sessionId s, Reachable engine →
      engine.session sessionId = some s →
      ContextTurnDiscipline (sessionEvents sessionId engine.events) s := by
  refine ⟨fun _ _ _ accepted => rehydrate_contextTurnDiscipline accepted, ?_⟩
  intro engine sessionId s reachable found
  exact rehydrate_contextTurnDiscipline ((reachable_live reachable).rehydrate found)

end Execute

section Sample

/-- A metadata source that counts. -/
structure SampleSource where
  next : Nat

instance : EventMetadataSource SampleSource where
  nextEventMetadata source := (⟨sampleId _ source.next, ⟨0⟩⟩, ⟨source.next + 1⟩)

def sampleCommand (n : Nat) (payload : CommandPayload) : CommandEnvelope :=
  ⟨sampleId _ n, sampleCorrelation, payload⟩

def sampleEngine : InMemoryEngine SampleSource :=
  ((InMemoryEngine.new ⟨1⟩).execute (sampleCommand 1 (.createSession sampleSession))).2

theorem sampleEngine_reachable : Reachable sampleEngine :=
  .execute _ (.new _)

theorem replay_eq_live_sample :
    ∃ replayed, InMemoryEngine.replay (⟨7⟩ : SampleSource) sampleEngine.events = .ok replayed ∧
      replayed.sessions = sampleEngine.sessions := by
  obtain ⟨replayed, h, sessions, -⟩ := (replay_eq_live sampleEngine_reachable).1 ⟨7⟩
  exact ⟨replayed, h, sessions⟩

def boundPayloads : List EventPayload :=
  [.sessionCreated, .modelSelected sampleModel,
    .inputAdmitted sampleInput samplePrompt .nextTurn,
    .attemptPrepared sampleAttempt sampleInput sampleModel none, .attemptStarted sampleAttempt,
    .contextTurnBound sampleAttempt 1 sampleContextTurn sampleHash,
    .runTurnStarted sampleAttempt 1]

theorem boundLog_accepted : ∃ s,
    SessionAggregate.rehydrate sampleSession (sampleEvents .first boundPayloads) = .ok s :=
  ⟨_, rfl⟩

theorem context_turn_discipline_sample :
    (∃ s, SessionAggregate.rehydrate sampleSession (sampleEvents .first boundPayloads) = .ok s ∧
      ContextTurnDiscipline (sampleEvents .first boundPayloads) s) ∧
    Reachable sampleEngine ∧ ∀ s, sampleEngine.session sampleSession = some s →
      ContextTurnDiscipline (sessionEvents sampleSession sampleEngine.events) s := by
  obtain ⟨s, hs⟩ := boundLog_accepted
  refine ⟨⟨s, hs, (context_turn_discipline (M := SampleSource)).1 _ _ s hs⟩,
    sampleEngine_reachable, fun s found => ?_⟩
  exact context_turn_discipline.2 sampleEngine _ s sampleEngine_reachable found

end Sample

end AutoHarness
