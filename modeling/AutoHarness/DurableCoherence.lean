import AutoHarness.DurableRecovery

namespace AutoHarness

open FallibleRun Interleaving

variable {S M C B : Type} {log : S → List EventEnvelope} {engine next opened : DurableEngine S M}
  {command : CommandEnvelope} {prepared : PreparedCommand}

/-- The inner engine is live and holds the stored streams. -/
structure Coherent (log : S → List EventEnvelope) (engine : DurableEngine S M) : Prop where
  live : Live engine.inner
  streams : SameStreams EventEnvelope.sessionId engine.inner.events (log engine.store)

/-- A failed call keeps the log and moves at most the metadata source. -/
structure Unpublished (log : S → List EventEnvelope) (engine next : DurableEngine S M) :
    Prop where
  log : log next.store = log engine.store
  inner : ∃ rest, next.inner = { engine.inner with metadataSource := rest }

/-- What a call did when it answered. -/
inductive Outcome (log : S → List EventEnvelope) (engine next : DurableEngine S M) :
    Except DurableEngineError (List EventEnvelope) → Prop
  | failed {e : DurableEngineError} : Unpublished log engine next → Outcome log engine next (.error e)
  | published {command : CommandEnvelope} {prepared : PreparedCommand} {rest : M} :
      Prepared engine.inner command prepared →
      log next.store = log engine.store ++ prepared.events →
      next.inner = { engine.inner with metadataSource := rest }.commitPrepared prepared →
      Outcome log engine next (.ok prepared.events)

/-- The stored stream of the prepared session ends where the candidate does. -/
theorem lastDurableSequence_prepared (h : Coherent log engine)
    (p : Prepared engine.inner command prepared) :
    lastDurableSequence prepared.sessionId (log engine.store ++ prepared.events) =
      prepared.expectedLastSequence + prepared.events.length := by
  have current := rehydrate_logged (h.live.replayed.sessions command.sessionId)
  have logged := rehydrate_logged (p.rehydrate h.live)
  have stream : sessionEvents command.sessionId (log engine.store ++ prepared.events) =
      sessionEvents command.sessionId engine.inner.events ++ prepared.events :=
    (h.streams.append prepared.events command.sessionId).symm.trans p.sessionEvents_self
  have nonempty : sessionEvents command.sessionId engine.inner.events ++ prepared.events ≠ [] :=
    List.append_ne_nil_of_right_ne_nil _ p.nonempty
  obtain ⟨last, hl⟩ := Option.isSome_iff_exists.mp (List.getLast?_isSome.mpr nonempty)
  have sequence := logged.sequences _ last (List.getLast?_eq_getElem? ▸ hl)
  rw [p.sessionId, lastDurableSequence, stream, hl, p.expected, current.length]
  simp only [Option.map_some, Option.getD_some, sequence, List.length_append]
  have positive := List.length_pos_of_ne_nil p.nonempty
  omega

/-- New events cannot have been stored before. -/
theorem prepared_not_stored (h : Coherent log engine)
    (p : Prepared engine.inner command prepared) :
    ¬ ∀ event ∈ prepared.events, event ∈ log engine.store := by
  intro stored
  obtain ⟨event, rest, he⟩ := List.exists_cons_of_ne_nil p.nonempty
  have hm : event ∈ prepared.events := by simp [he]
  have inside : event ∈ engine.inner.events := h.streams.perm.mem_iff.mpr (stored event hm)
  have fresh := p.fresh event hm
  rw [h.live.replayed.eventIds, List.mem_toFinset] at fresh
  exact fresh (List.mem_map_of_mem inside)

/-- Both commit paths end in one of the two outcomes. -/
theorem publish_outcome (h : Coherent log engine) (p : Prepared engine.inner command prepared)
    (rest : M) {answer : Except StoreError Nat} {store : S}
    (written : Written prepared.sessionId (log engine.store) prepared.events answer (log store)) :
    Outcome log engine ((engine.withSource rest).publish prepared
        (prepared.expectedLastSequence + prepared.events.length) (answer, store)).2
      ((engine.withSource rest).publish prepared
        (prepared.expectedLastSequence + prepared.events.length) (answer, store)).1 := by
  generalize hl : log store = after at written
  cases written with
  | refused e => exact .failed ⟨hl, rest, rfl⟩
  | committed =>
    rw [lastDurableSequence_prepared h p]
    simp only [DurableEngine.publish, ne_eq, not_true_eq_false, if_false]
    exact .published p hl rfl
  | alreadyCommitted stored => exact absurd stored (prepared_not_stored h p)

/-- A call either extends the log and the events of the inner engine alike, or neither. -/
theorem Outcome.extends {answer : Except DurableEngineError (List EventEnvelope)}
    (o : Outcome log engine next answer) : ∃ events,
      log next.store = log engine.store ++ events ∧
        next.inner.events = engine.inner.events ++ events := by
  cases o with
  | failed unpublished =>
    obtain ⟨rest, hi⟩ := unpublished.inner
    exact ⟨[], by rw [unpublished.log, List.append_nil], by rw [hi, List.append_nil]⟩
  | published _ hl hi => exact ⟨_, hl, by rw [hi]; rfl⟩

theorem Coherent.of_outcome {answer : Except DurableEngineError (List EventEnvelope)}
    (h : Coherent log engine) (o : Outcome log engine next answer) : Coherent log next := by
  obtain ⟨events, hl, hi⟩ := o.extends
  refine ⟨?_, ?_⟩
  · cases o with
    | failed unpublished =>
      obtain ⟨rest, hr⟩ := unpublished.inner
      rw [hr]
      exact h.live.with_source rest
    | published p _ hr =>
      rw [hr]
      exact (h.live.with_source _).commit (p.with_source _)
  · rw [hl, hi]
    exact h.streams.append events

theorem publish_not_engine {expectedReceipt : Nat} {written : Except StoreError Nat × S}
    {e : EngineError} :
    (engine.publish prepared expectedReceipt written).1 ≠ .error (.engine e) := by
  unfold DurableEngine.publish
  split
  next => nofun
  next => split <;> nofun

theorem checkedAdd_eq_some {a b c : Nat} (h : checkedAdd a b = some c) : c = a + b := by
  unfold checkedAdd at h
  split at h
  next => exact (Option.some.inj h).symm
  next => cases h

/-- What a call does with its command: the command is not prepared, the prepared batch is not
the expected one, or the store is asked to write it. -/
inductive Called [EventMetadataSource M] (log : S → List EventEnvelope)
    (engine : DurableEngine S M) (command : CommandEnvelope) :
    Except DurableEngineError (List EventEnvelope) × DurableEngine S M → Prop
  | unprepared {e : EngineError} {rest : M} : engine.inner.prepare command = (.error e, rest) →
      Called log engine command (.error (.engine e), engine.withSource rest)
  | mismatched {rest : M} : Called log engine command (.error .storeInvariant, engine.withSource rest)
  | asked {prepared : PreparedCommand} {rest : M} {answer : Except StoreError Nat} {store : S} :
      engine.inner.prepare command = (.ok prepared, rest) →
      Written prepared.sessionId (log engine.store) prepared.events answer (log store) →
      Called log engine command ((engine.withSource rest).publish prepared
        (prepared.expectedLastSequence + prepared.events.length) (answer, store))

section Call

variable [EventMetadataSource M] [SessionStore S] [ContextStore S C B]

theorem execute_called (atomic : AtomicWrites C B log) (engine : DurableEngine S M)
    (command : CommandEnvelope) : Called log engine command (engine.execute command) := by
  unfold DurableEngine.execute
  split
  next e rest hp => exact .unprepared hp
  next prepared rest hp =>
    simp only
    split
    next => exact .mismatched
    next expectedReceipt add =>
      have written := atomic.append engine.store
        ⟨prepared.sessionId, prepared.expectedLastSequence, prepared.events⟩
      rw [checkedAdd_eq_some add]
      exact .asked hp written

theorem bind_called (atomic : AtomicWrites C B log) (engine : DurableEngine S M)
    (context : ContextTurnCommitRequest C) (boundary : Option B) (command : CommandEnvelope) :
    Called log engine command (engine.commitContextTurnAndBindInner context boundary command) := by
  unfold DurableEngine.commitContextTurnAndBindInner
  split
  next e rest hp => exact .unprepared hp
  next prepared rest hp =>
    have p := prepared_of_prepare hp
    simp only
    split
    next bindingEvent single =>
      split
      next => exact .mismatched
      next =>
        split
        next => exact .mismatched
        next expectedReceipt add =>
          split
          next => exact .mismatched
          next =>
            have written := atomic.bind engine.store ⟨context, bindingEvent, boundary⟩
            have session := p.session bindingEvent (by simp [single])
            have receipt : expectedReceipt =
                prepared.expectedLastSequence + prepared.events.length := by
              rw [single]
              exact checkedAdd_eq_some add
            rw [session, ← p.sessionId, ← single] at written
            rw [receipt]
            exact .asked hp written
    next => exact .mismatched

theorem call_called (atomic : AtomicWrites C B log) (engine : DurableEngine S M)
    (call : DurableCall C B) : Called log engine call.command (engine.call call) := by
  cases call with
  | execute command => exact execute_called atomic engine command
  | commitContextTurnAndBind context command => exact bind_called atomic engine context none command
  | commitCompactionContextTurnAndBind context boundary command =>
    exact bind_called atomic engine context (some boundary) command

theorem call_outcome (atomic : AtomicWrites C B log) (h : Coherent log engine)
    (call : DurableCall C B) : Outcome log engine (engine.call call).2 (engine.call call).1 := by
  have called := call_called atomic engine call
  generalize engine.call call = result at called
  cases called with
  | @unprepared _ rest | @mismatched rest => exact .failed ⟨rfl, rest, rfl⟩
  | @asked _ rest _ _ hp written => exact publish_outcome h (prepared_of_prepare hp) rest written

/-- A command that the session rejects leaves no trace at all. -/
theorem call_rejected (atomic : AtomicWrites C B log) {call : DurableCall C B}
    {rejection : CommandRejection}
    (h : engine.call call = (.error (.engine (.commandRejected rejection)), next)) :
    next = engine := by
  have called := call_called atomic engine call
  generalize engine.call call = result at called h
  cases called with
  | unprepared hp =>
    cases h
    rw [prepare_rejected hp]
    rfl
  | mismatched => cases h
  | asked => exact absurd (congrArg Prod.fst h) publish_not_engine

theorem callAll_cons (engine : DurableEngine S M) (call : DurableCall C B)
    (calls : List (DurableCall C B)) :
    engine.callAll (call :: calls) = (engine.call call).2.callAll calls :=
  rfl

/-- Coherence along every run, with the log and the events of the inner engine growing alike. -/
theorem Coherent.callAll (atomic : AtomicWrites C B log) (h : Coherent log engine)
    (calls : List (DurableCall C B)) :
    Coherent log (engine.callAll calls) ∧ ∃ events,
      log (engine.callAll calls).store = log engine.store ++ events ∧
        (engine.callAll calls).inner.events = engine.inner.events ++ events := by
  induction calls generalizing engine with
  | nil => exact ⟨h, [], (List.append_nil _).symm, (List.append_nil _).symm⟩
  | cons call calls ih =>
    have outcome := call_outcome atomic h call
    obtain ⟨first, hl, hi⟩ := outcome.extends
    obtain ⟨coherent, rest, hl', hi'⟩ := ih (h.of_outcome outcome)
    rw [callAll_cons]
    refine ⟨coherent, first ++ rest, ?_, ?_⟩
    · rw [hl', hl, List.append_assoc]
    · rw [hi', hi, List.append_assoc]

end Call

/-- The durable engines that accept commands: new ones over an empty log and recovered ones. -/
inductive Opened [SessionStore S] (log : S → List EventEnvelope) : DurableEngine S M → Prop
  | new (store : S) (source : M) : log store = [] → Opened log (.new store source)
  | recovered {store : S} {source : M} {fuel : Nat} {engine : DurableEngine S M} :
      FaithfulReads (log store) store → (log store).length < fuel →
      DurableEngine.recover fuel store source = some (.ok engine) → Opened log engine

theorem Opened.coherent [SessionStore S] (h : Opened log opened) : Coherent log opened := by
  cases h with
  | new store source empty =>
    refine ⟨live_new source, ?_⟩
    intro sessionId
    exact congrArg _ empty.symm
  | @recovered store source fuel engine reads enough recovered =>
    obtain ⟨events, same, result⟩ := recover_eq_replay reads enough source
    rw [result] at recovered
    cases hr : InMemoryEngine.replay source events with
    | error e =>
      rw [hr] at recovered
      cases recovered
    | ok inner =>
      rw [hr] at recovered
      cases recovered
      refine ⟨Live.of_replay hr, ?_⟩
      rw [(replayed_of_replay hr).events]
      exact same

/-- The replay of the log is the inner engine, but for the order of events and the source. -/
theorem Coherent.replay (h : Coherent log engine) (source : M) :
    InMemoryEngine.replay source (log engine.store) =
      .ok { engine.inner with metadataSource := source, events := log engine.store } :=
  replay_of_sameStreams (h.live.replay source) h.streams

/-- Over a store with atomic writes every run of calls, whatever fails in it, keeps the inner
engine equal to the replay of the log. A failed call keeps the log and everything of the inner
engine but the metadata source, and a rejected command keeps that too. -/
theorem durable_engine_coherent [EventMetadataSource M] [SessionStore S] [ContextStore S C B]
    (atomic : AtomicWrites C B log) (h : Opened log opened) (calls : List (DurableCall C B)) :
    (∀ source : M, ∃ replayed,
      InMemoryEngine.replay source (log (opened.callAll calls).store) = .ok replayed ∧
      replayed.sessions = (opened.callAll calls).inner.sessions ∧
      replayed.eventIds = (opened.callAll calls).inner.eventIds ∧
      replayed.commandIds = (opened.callAll calls).inner.commandIds ∧
      (∀ sessionId, sessionEvents sessionId replayed.events =
        sessionEvents sessionId (opened.callAll calls).inner.events) ∧
      (opened.inner.events = log opened.store →
        replayed = { (opened.callAll calls).inner with metadataSource := source })) ∧
    ∀ (call : DurableCall C B) e next, (opened.callAll calls).call call = (.error e, next) →
      log next.store = log (opened.callAll calls).store ∧
      (∃ rest, next.inner = { (opened.callAll calls).inner with metadataSource := rest }) ∧
      ((∃ rejection, e = .engine (.commandRejected rejection)) → next = opened.callAll calls) := by
  obtain ⟨coherent, events, hl, hi⟩ := h.coherent.callAll atomic calls
  constructor
  · intro source
    refine ⟨_, coherent.replay source, rfl, rfl, rfl, coherent.streams.symm, fun exact_ => ?_⟩
    rw [hl, ← exact_, ← hi]
  · intro call e next failed
    have outcome := call_outcome atomic coherent call
    rw [failed] at outcome
    cases outcome with
    | failed unpublished =>
      refine ⟨unpublished.log, unpublished.inner, ?_⟩
      rintro ⟨rejection, rfl⟩
      exact call_rejected atomic failed

section Sample

/-- A new durable engine whose store refuses the writes that the faults name. -/
def faultyEngine (faults : List (Option StoreError)) : DurableEngine ListStore SampleSource :=
  .new ⟨[], faults⟩ ⟨1⟩

def sampleTurn : ContextTurnCommitRequest Unit where
  turn := ⟨sampleSession, sampleAttempt, 1, sampleContextTurn, sampleHash⟩
  carried := ()

/-- The calls up to a bound turn; the faults let the second and the last of them fail once. -/
def sampleCalls : List (DurableCall Unit Unit) :=
  let bind := sampleCommand 5
    (.bindContextTurn sampleSession sampleAttempt 1 sampleContextTurn sampleHash)
  [.execute (sampleCommand 1 (.createSession sampleSession)),
    .execute (sampleCommand 2 (.selectModel sampleSession sampleModel)),
    .execute (sampleCommand 2 (.selectModel sampleSession sampleModel)),
    .execute (sampleCommand 3 (.admitPromptAndPrepareAttempt sampleSession sampleInput samplePrompt
      .nextTurn sampleAttempt)),
    .execute (sampleCommand 4 (.startAttempt sampleSession sampleAttempt)),
    .commitContextTurnAndBind sampleTurn bind,
    .commitContextTurnAndBind sampleTurn bind]

def sampleFaults : List (Option StoreError) :=
  [none, some .busy, none, none, none, some .backend, none]

theorem durable_engine_coherent_sample :
    ((faultyEngine sampleFaults).callAll sampleCalls).store.log.length = 7 ∧
    InMemoryEngine.replay (⟨7⟩ : SampleSource)
        ((faultyEngine sampleFaults).callAll sampleCalls).store.log =
      .ok { ((faultyEngine sampleFaults).callAll sampleCalls).inner with metadataSource := ⟨7⟩ } := by
  have start : Opened ListStore.log (faultyEngine sampleFaults) := .new _ _ rfl
  obtain ⟨replayed, accepted, -, -, -, -, same⟩ :=
    (durable_engine_coherent (listStore_atomicWrites Unit Unit) start sampleCalls).1 ⟨7⟩
  exact ⟨rfl, by rw [accepted, same rfl]⟩

/-- A store that keeps every batch and reports a wrong sequence. -/
structure MisreportingStore where
  log : List EventEnvelope

instance : SessionStore MisreportingStore where
  append store request := (.ok ⟨.committed, 0⟩, ⟨store.log ++ request.events⟩)
  loadEvents _ _ _ _ := .error .backend
  listSessions _ := .error .backend

theorem durable_failure_not_traceless :
    (AtomicWrites Unit Unit ListStore.log ∧ ∃ next, (faultyEngine [some .busy]).execute
        (sampleCommand 1 (.createSession sampleSession)) = (.error (.store .busy), next) ∧
      next.store.log = [] ∧ (faultyEngine [some .busy]).inner.metadataSource.next = 1 ∧
      next.inner.metadataSource.next = 2) ∧
    ∃ next, (DurableEngine.new (⟨[]⟩ : MisreportingStore) (⟨1⟩ : SampleSource)).execute
        (sampleCommand 1 (.createSession sampleSession)) = (.error .storeInvariant, next) ∧
      next.inner.events = [] ∧ next.store.log.length = 1 :=
  ⟨⟨listStore_atomicWrites Unit Unit, _, rfl, rfl, rfl, rfl⟩, ⟨_, rfl, rfl, rfl⟩⟩

end Sample

end AutoHarness
