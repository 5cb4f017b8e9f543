import AutoHarness.DurableCoherence
import AutoHarness.SessionReads

namespace AutoHarness

open FallibleRun (bind_eq_ok_iff run)

/-- The columns of a context turn that the session tables read beside its key. -/
class TurnColumns (C : Type) where
  workspaceId : C → WorkspaceId
  expectedSequence : C → Nat

/-- The store with its session tables, which its transactions keep live. The faults say which of its
next transactions are rolled back, by the backend or by a check of the context tables. -/
structure SqliteStore where
  tables : SessionTables
  live : tables.Live
  faults : List (Option StoreError)

namespace SqliteStore

variable {C B : Type} (store : SqliteStore)

def opened (faults : List (Option StoreError)) : SqliteStore :=
  ⟨.empty, SessionTables.live_empty, faults⟩

/-- The tables after a transaction, or those before it when it fails. -/
def commit {ρ : Type} (result : Except StoreError (ρ × SessionTables))
    (kept : ∀ receipt tables, result = .ok (receipt, tables) → tables.Live) :
    Except StoreError ρ × SqliteStore :=
  match store.faults.head?.join with
  | some e => (.error e, { store with faults := store.faults.tail })
  | none =>
    match result, kept with
    | .error e, _ => (.error e, { store with faults := store.faults.tail })
    | .ok (receipt, tables), kept =>
      (.ok receipt, ⟨tables, kept receipt tables rfl, store.faults.tail⟩)

def append (request : AppendRequest) : Except StoreError AppendReceipt × SqliteStore :=
  store.commit (store.tables.append request) fun _ _ accepted =>
    SessionTables.append_live store.live accepted

variable [TurnColumns C]

/-- Both the turn and its binding were there before. -/
def boundBefore (request : BoundContextTurnCommitRequest C B) : Bool :=
  (store.tables.contextTurns.find? request.context.turn.contextTurnId).isSome &&
    (store.tables.events.find? request.bindingEvent.eventId).isSome &&
    (store.tables.bindings.find? request.context.turn.contextTurnId).isSome

def bindTables (request : BoundContextTurnCommitRequest C B) :
    Except StoreError (BoundContextTurnCommitReceipt × SessionTables) := do
  let tables ← store.tables.commitContextTurnAndBind request.context.turn
    (TurnColumns.expectedSequence request.context.carried)
    (TurnColumns.workspaceId request.context.carried) request.bindingEvent
  .ok (⟨if store.boundBefore request then .alreadyCommitted else .committed,
    request.bindingEvent.sequence.get⟩, tables)

theorem bindTables_eq_ok {request : BoundContextTurnCommitRequest C B}
    {receipt : BoundContextTurnCommitReceipt} {tables : SessionTables}
    (h : store.bindTables request = .ok (receipt, tables)) :
    store.tables.commitContextTurnAndBind request.context.turn
        (TurnColumns.expectedSequence request.context.carried)
        (TurnColumns.workspaceId request.context.carried) request.bindingEvent = .ok tables ∧
      receipt.lastSequence = request.bindingEvent.sequence.get := by
  obtain ⟨bound, committed, h⟩ := bind_eq_ok_iff.mp h
  cases Except.ok.inj h
  exact ⟨committed, rfl⟩

def commitContextTurnAndBind (request : BoundContextTurnCommitRequest C B) :
    Except StoreError BoundContextTurnCommitReceipt × SqliteStore :=
  store.commit (store.bindTables request) fun _ _ accepted =>
    SessionTables.commitContextTurnAndBind_live store.live (store.bindTables_eq_ok accepted).1

def deleteSession (order : RemovalOrder AttemptRow) (sessionId : SessionId)
    (expectedLastSequence : Nat) :
    Except StoreError SessionTables.DeletionDisposition × SqliteStore :=
  store.commit (store.tables.deleteSession order sessionId expectedLastSequence) fun _ _ accepted =>
    SessionTables.deleteSession_live store.live accepted

def rebuildProjections : Except StoreError Unit × SqliteStore :=
  store.commit (store.tables.rebuildProjections.map ((), ·)) fun _ _ accepted => by
    obtain ⟨rebuilt, done, live, -⟩ := SessionTables.rebuildProjections_live store.live
    rw [done] at accepted
    cases Except.ok.inj accepted
    exact live

/-- The events in the order in which they were stored. -/
def log : List EventEnvelope := store.tables.events.rows

end SqliteStore

instance : SessionStore SqliteStore where
  append := SqliteStore.append
  loadEvents store := store.tables.loadEvents
  listSessions store := store.tables.listSessions

instance {C B : Type} [TurnColumns C] : ContextStore SqliteStore C B where
  commitContextTurnAndBind store request := store.commitContextTurnAndBind request

namespace SqliteStore

variable {C B M : Type} {store : SqliteStore}

theorem commit_cases {ρ : Type} (store : SqliteStore)
    (result : Except StoreError (ρ × SessionTables))
    (kept : ∀ receipt tables, result = .ok (receipt, tables) → tables.Live) :
    (∃ e, (store.commit result kept).1 = .error e ∧ (store.commit result kept).2.log = store.log) ∨
      ∃ receipt tables, result = .ok (receipt, tables) ∧
        (store.commit result kept).1 = .ok receipt ∧
        (store.commit result kept).2.log = tables.events.rows := by
  unfold commit
  split
  next e _ => exact .inl ⟨e, rfl, rfl⟩
  next =>
    cases result with
    | error e => exact .inl ⟨e, rfl, rfl⟩
    | ok written => exact .inr ⟨written.1, written.2, rfl, rfl, rfl⟩

/-- The last stored sequence after a batch of one session is that of its last event. -/
theorem lastDurableSequence_append {k : SessionId} {log events : List EventEnvelope} {last : Nat}
    (own : ∀ event ∈ events, event.sessionId = k)
    (ends : events.getLast?.map (fun event => event.sequence.get) = some last) :
    lastDurableSequence k (log ++ events) = last := by
  obtain ⟨event, he, rfl⟩ := Option.map_eq_some_iff.mp ends
  unfold lastDurableSequence sessionEvents
  rw [Interleaving.project_append, Interleaving.project_eq_self own, List.getLast?_append, he]
  rfl

/-- What an append answers about the log. -/
theorem append_written (store : SqliteStore) (request : AppendRequest) :
    Written request.sessionId store.log request.events
      ((store.append request).1.map AppendReceipt.lastSequence) (store.append request).2.log := by
  unfold append
  obtain ⟨e, answer, log⟩ | ⟨receipt, tables, accepted, answer, log⟩ :=
    store.commit_cases (store.tables.append request) fun _ _ accepted =>
      SessionTables.append_live store.live accepted
  · rw [answer, log]
    exact .refused e
  · rw [answer, log]
    obtain ⟨-, -, grows, last⟩ | ⟨rfl, rfl, stored⟩ := SessionTables.append_cases accepted
    · obtain ⟨⟨⟩, valid, -⟩ := bind_eq_ok_iff.mp accepted
      have ends : lastDurableSequence request.sessionId (store.log ++ request.events) =
          receipt.lastSequence :=
        lastDurableSequence_append (SessionTables.valid_events valid).2 last
      have written : Written request.sessionId store.log request.events _ _ := .committed
      rw [grows.rows]
      rwa [ends] at written
    · rw [← store.live.lastDurableSequence]
      exact .alreadyCommitted stored

/-- A binding event that is not in the log is written like a batch of its own. -/
theorem bind_written [TurnColumns C] (store : SqliteStore)
    (request : BoundContextTurnCommitRequest C B) (fresh : request.bindingEvent ∉ store.log) :
    Written request.bindingEvent.sessionId store.log [request.bindingEvent]
      ((store.commitContextTurnAndBind request).1.map BoundContextTurnCommitReceipt.lastSequence)
      (store.commitContextTurnAndBind request).2.log := by
  unfold commitContextTurnAndBind
  obtain ⟨e, answer, log⟩ | ⟨receipt, tables, accepted, answer, log⟩ :=
    store.commit_cases (store.bindTables request) fun _ _ accepted =>
      SessionTables.commitContextTurnAndBind_live store.live (store.bindTables_eq_ok accepted).1
  · rw [answer, log]
    exact .refused e
  · obtain ⟨committed, last⟩ := store.bindTables_eq_ok accepted
    obtain ⟨known, -⟩ | grows := (SessionTables.commitContextTurnAndBind_cases committed).1
    · exact (fresh known).elim
    · have ends : lastDurableSequence request.bindingEvent.sessionId
          (store.log ++ [request.bindingEvent]) = receipt.lastSequence := by
        refine lastDurableSequence_append (List.forall_mem_singleton.mpr rfl) ?_
        rw [last]
        rfl
      have written : Written request.bindingEvent.sessionId store.log [request.bindingEvent] _ _ :=
        .committed
      rw [answer, log, grows.rows]
      rwa [ends] at written

theorem deleteSession_streams (store : SqliteStore) (order : RemovalOrder AttemptRow)
    (sessionId : SessionId) (expected : Nat) (k : SessionId) :
    sessionEvents k (store.deleteSession order sessionId expected).2.log =
        sessionEvents k store.log ∨
      sessionEvents k (store.deleteSession order sessionId expected).2.log = [] := by
  unfold deleteSession
  obtain ⟨e, -, log⟩ | ⟨disposition, tables, accepted, -, log⟩ :=
    store.commit_cases (store.tables.deleteSession order sessionId expected) fun _ _ accepted =>
      SessionTables.deleteSession_live store.live accepted
  · rw [log]
    exact .inl rfl
  · rw [log]
    obtain rfl | rfl := SessionTables.deleteSession_cases accepted
    · exact .inl rfl
    · by_cases own : k = sessionId
      · subst own
        exact .inr (Interleaving.project_filter_self k _)
      · exact .inl (Interleaving.project_filter_ne own _)

theorem rebuildProjections_log (store : SqliteStore) :
    store.rebuildProjections.2.log = store.log := by
  unfold rebuildProjections
  obtain ⟨e, -, log⟩ | ⟨receipt, tables, accepted, -, log⟩ :=
    store.commit_cases (store.tables.rebuildProjections.map ((), ·)) _
  · exact log
  · rw [log]
    cases rebuilt : store.tables.rebuildProjections with
    | error e =>
      rw [rebuilt] at accepted
      cases accepted
    | ok tables' =>
      rw [rebuilt] at accepted
      cases Except.ok.inj accepted
      exact congrArg KeyedTable.rows (SessionTables.rebuildProjections_keeps rebuilt).events

theorem faithfulReads (store : SqliteStore) : FaithfulReads store.log store where
  listed := store.live.faithfulReads_listed
  loaded sessionId _ _ bounded := store.live.loadEvents sessionId (Nat.le_of_lt bounded)
  ordered := store.live.ordered

end SqliteStore

/-- The inner engine is live. It holds the stored streams, and it may still hold those of sessions
that were deleted since it was opened. -/
structure Tracking {M : Type} (engine : DurableEngine SqliteStore M) : Prop where
  live : Live engine.inner
  streams : ∀ k, sessionEvents k engine.store.log = sessionEvents k engine.inner.events ∨
    sessionEvents k engine.store.log = []

section Tracking

variable {C B M : Type} {engine next : DurableEngine SqliteStore M} {command : CommandEnvelope}
  {prepared : PreparedCommand}

theorem Prepared.expected_eq (p : Prepared engine.inner command prepared)
    (live : Live engine.inner) : prepared.expectedLastSequence =
      (sessionEvents command.sessionId engine.inner.events).length :=
  p.expected.trans (rehydrate_logged (live.replayed.sessions command.sessionId)).length

/-- The batch continues the stream of the inner engine. -/
theorem Prepared.sequence_eq (p : Prepared engine.inner command prepared)
    (live : Live engine.inner) {i : Nat} {event : EventEnvelope}
    (found : prepared.events[i]? = some event) :
    event.sequence.get = prepared.expectedLastSequence + i + 1 := by
  have logged := rehydrate_logged (p.rehydrate live)
  rw [p.expected_eq live]
  refine logged.sequences _ event ?_
  rw [List.getElem?_append_right (Nat.le_add_right _ i), Nat.add_sub_cancel_left, found]

theorem Prepared.lastSequence_eq (p : Prepared engine.inner command prepared)
    (live : Live engine.inner) :
    prepared.events.getLast?.map (fun event => event.sequence.get) =
      some (prepared.expectedLastSequence + prepared.events.length) := by
  obtain ⟨last, hl⟩ := Option.isSome_iff_exists.mp (List.getLast?_isSome.mpr p.nonempty)
  have sequence := p.sequence_eq live (List.getLast?_eq_getElem? ▸ hl)
  have positive := List.length_pos_of_ne_nil p.nonempty
  rw [hl, Option.map_some, sequence]
  congr 1
  omega

theorem Tracking.fresh (h : Tracking engine) (p : Prepared engine.inner command prepared) :
    ¬ ∀ event ∈ prepared.events, event ∈ engine.store.log := by
  intro stored
  obtain ⟨event, rest, he⟩ := List.exists_cons_of_ne_nil p.nonempty
  have hm : event ∈ prepared.events := by simp [he]
  have listed : event ∈ sessionEvents event.sessionId engine.store.log :=
    Interleaving.mem_project.mpr ⟨stored event hm, rfl⟩
  have inside : event ∈ engine.inner.events := by
    rcases h.streams event.sessionId with same | gone
    · rw [same] at listed
      exact (Interleaving.mem_project.mp listed).1
    · rw [gone] at listed
      cases listed
  have fresh := p.fresh event hm
  rw [h.live.replayed.eventIds, List.mem_toFinset] at fresh
  exact fresh (List.mem_map_of_mem inside)

theorem Tracking.publish_outcome (h : Tracking engine) (p : Prepared engine.inner command prepared)
    (rest : M) {answer : Except StoreError Nat} {store : SqliteStore}
    (written : Written prepared.sessionId engine.store.log prepared.events answer store.log) :
    Outcome SqliteStore.log engine ((engine.withSource rest).publish prepared
        (prepared.expectedLastSequence + prepared.events.length) (answer, store)).2
      ((engine.withSource rest).publish prepared
        (prepared.expectedLastSequence + prepared.events.length) (answer, store)).1 := by
  generalize hl : store.log = after at written
  cases written with
  | refused e => exact .failed ⟨hl, rest, rfl⟩
  | committed =>
    have last : lastDurableSequence prepared.sessionId (engine.store.log ++ prepared.events) = _ :=
      SqliteStore.lastDurableSequence_append
        (fun event he => (p.session event he).trans p.sessionId.symm) (p.lastSequence_eq h.live)
    rw [last]
    simp only [DurableEngine.publish, ne_eq, not_true_eq_false, if_false]
    exact .published p hl rfl
  | alreadyCommitted stored => exact absurd stored (h.fresh p)

section Calls

variable [EventMetadataSource M] [TurnColumns C]

theorem Tracking.execute_outcome (h : Tracking engine) (command : CommandEnvelope) :
    Outcome SqliteStore.log engine (engine.execute command).2 (engine.execute command).1 := by
  unfold DurableEngine.execute
  split
  next e rest hp => exact .failed ⟨rfl, rest, rfl⟩
  next prepared rest hp =>
    have p := prepared_of_prepare hp
    simp only
    split
    next => exact .failed ⟨rfl, rest, rfl⟩
    next expectedReceipt add =>
      have written := engine.store.append_written
        ⟨prepared.sessionId, prepared.expectedLastSequence, prepared.events⟩
      rw [checkedAdd_eq_some add]
      exact h.publish_outcome p rest written

theorem Tracking.bind_outcome (h : Tracking engine) (context : ContextTurnCommitRequest C)
    (boundary : Option B) (command : CommandEnvelope) :
    Outcome SqliteStore.log engine
      (engine.commitContextTurnAndBindInner context boundary command).2
      (engine.commitContextTurnAndBindInner context boundary command).1 := by
  unfold DurableEngine.commitContextTurnAndBindInner
  split
  next e rest hp => exact .failed ⟨rfl, rest, rfl⟩
  next prepared rest hp =>
    have p := prepared_of_prepare hp
    simp only
    split
    next bindingEvent single =>
      split
      next => exact .failed ⟨rfl, rest, rfl⟩
      next =>
        split
        next => exact .failed ⟨rfl, rest, rfl⟩
        next expectedReceipt add =>
          split
          next => exact .failed ⟨rfl, rest, rfl⟩
          next =>
            have fresh : bindingEvent ∉ engine.store.log := by
              intro stored
              refine h.fresh p fun event he => ?_
              rw [single] at he
              rw [List.mem_singleton.mp he]
              exact stored
            have written := engine.store.bind_written ⟨context, bindingEvent, boundary⟩ fresh
            have session := p.session bindingEvent (by simp [single])
            have receipt : expectedReceipt =
                prepared.expectedLastSequence + prepared.events.length := by
              rw [single]
              exact checkedAdd_eq_some add
            rw [session, ← p.sessionId, ← single] at written
            rw [receipt]
            exact h.publish_outcome p rest written
    next => exact .failed ⟨rfl, rest, rfl⟩

theorem Tracking.call_outcome (h : Tracking engine) (call : DurableCall C B) :
    Outcome SqliteStore.log engine (engine.call call).2 (engine.call call).1 := by
  cases call with
  | execute command => exact h.execute_outcome command
  | commitContextTurnAndBind context command =>
    exact h.bind_outcome context (none : Option B) command
  | commitCompactionContextTurnAndBind context boundary command =>
    exact h.bind_outcome context (some boundary) command

end Calls

/-- A published batch goes to a session whose stored stream the engine holds: in the place of a
deleted one the store would not have taken it. -/
theorem Tracking.of_outcome {answer : Except DurableEngineError (List EventEnvelope)}
    (h : Tracking engine) (o : Outcome SqliteStore.log engine next answer) : Tracking next := by
  cases o with
  | failed unpublished =>
    obtain ⟨rest, hi⟩ := unpublished.inner
    refine ⟨?_, fun k => ?_⟩
    · rw [hi]
      exact h.live.with_source rest
    · rw [hi, unpublished.log]
      exact h.streams k
  | @published command prepared rest p hl hi =>
    refine ⟨?_, fun k => ?_⟩
    · rw [hi]
      exact (h.live.with_source rest).commit (p.with_source rest)
    · have events : next.inner.events = engine.inner.events ++ prepared.events := by
        rw [hi]
        rfl
      rw [events, hl]
      by_cases own : k = command.sessionId
      · subst own
        left
        rw [p.sessionEvents_self]
        have stored : sessionEvents command.sessionId (engine.store.log ++ prepared.events) =
            sessionEvents command.sessionId engine.store.log ++ prepared.events := by
          unfold sessionEvents
          rw [Interleaving.project_append, Interleaving.project_eq_self p.session]
        rw [stored]
        rcases h.streams command.sessionId with same | gone
        · rw [same]
        · have numbered := next.store.live.sequences command.sessionId
          change (sessionEvents command.sessionId next.store.log).map _ =
            List.range' 1 (sessionEvents command.sessionId next.store.log).length at numbered
          rw [hl, stored, gone, List.nil_append] at numbered
          obtain ⟨event, rest, he⟩ := List.exists_cons_of_ne_nil p.nonempty
          have head : prepared.events[0]? = some event := by
            rw [he]
            rfl
          have first := p.sequence_eq h.live head
          rw [he, List.map_cons, List.length_cons, List.range'_succ] at numbered
          have one := (List.cons.inj numbered).1
          have empty : (sessionEvents command.sessionId engine.inner.events).length = 0 := by
            rw [← p.expected_eq h.live]
            omega
          rw [gone, List.length_eq_zero_iff.mp empty]
      · have other : sessionEvents k (engine.store.log ++ prepared.events) =
            sessionEvents k engine.store.log := by
          unfold sessionEvents
          rw [Interleaving.project_append, Interleaving.project_of_ne fun event he same =>
            own (same.symm.trans (p.session event he)), List.append_nil]
        rw [other, p.sessionEvents_ne own]
        exact h.streams k

theorem SqliteStore.replayable (h : Tracking engine) : Replayable engine.store.log := by
  have sourced := engine.store.live.sourced
  refine ⟨engine.store.tables.events.distinct, ?_, fun k => ?_⟩
  · refine List.pairwise_filterMap.mpr (engine.store.tables.events.rows_nodup.imp_of_mem ?_)
    intro a b ha hb different commandId first other second same
    refine different (sourced.ledger.command a ha b hb ?_ ?_)
    · rw [first]
      rfl
    · rw [first, second, same]
  · rcases h.streams k with same | gone
    · rw [same]
      exact h.live.replayable.sessions k
    · rw [gone]
      exact ⟨_, rfl⟩

end Tracking

/-- What can happen to an engine over its store: calls, the maintenance of the store under it, and
the end of its process, after which another one recovers it. -/
inductive EngineStep (C B M : Type) where
  | call (call : DurableCall C B)
  | deleteSession (order : RemovalOrder AttemptRow) (sessionId : SessionId)
      (expectedLastSequence : Nat)
  | rebuildProjections
  | restart (source : M)

section Steps

variable {C B M : Type}

/-- The store alone is left of the engine. -/
def DurableEngine.restart (engine : DurableEngine SqliteStore M) (source : M) :
    Except DurableEngineError (DurableEngine SqliteStore M) :=
  (DurableEngine.recover (engine.store.log.length + 1) engine.store source).getD
    (.error .storeInvariant)

section Restart

variable {engine : DurableEngine SqliteStore M}

/-- A process that starts over the store holds exactly the stored streams. -/
theorem Tracking.restart (h : Tracking engine) (source : M) :
    ∃ recovered, engine.restart source = .ok recovered ∧ recovered.store = engine.store ∧
      Live recovered.inner ∧
      ∀ k, sessionEvents k engine.store.log = sessionEvents k recovered.inner.events := by
  obtain ⟨events, same, result⟩ := recover_eq_replay engine.store.faithfulReads
    (Nat.lt_succ_self engine.store.log.length) source
  obtain ⟨inner, replayed⟩ := replay_of_replayable source
    ((SqliteStore.replayable h).of_sameStreams same.symm)
  refine ⟨⟨engine.store, inner⟩, ?_, rfl, Live.of_replay replayed, fun k => ?_⟩
  · rw [DurableEngine.restart, result, replayed]
    rfl
  · rw [(replayed_of_replay replayed).events]
    exact (same k).symm

end Restart

variable [EventMetadataSource M] [TurnColumns C]

def DurableEngine.step (engine : DurableEngine SqliteStore M) :
    EngineStep C B M → Except DurableEngineError (DurableEngine SqliteStore M)
  | .call call => .ok (engine.call call).2
  | .deleteSession order sessionId expectedLastSequence =>
    .ok { engine with store := (engine.store.deleteSession order sessionId expectedLastSequence).2 }
  | .rebuildProjections => .ok { engine with store := engine.store.rebuildProjections.2 }
  | .restart source => engine.restart source

variable {engine next : DurableEngine SqliteStore M}

theorem Tracking.step (h : Tracking engine) (step : EngineStep C B M) :
    ∃ next, engine.step step = .ok next ∧ Tracking next := by
  cases step with
  | call call => exact ⟨_, rfl, h.of_outcome (h.call_outcome call)⟩
  | deleteSession order sessionId expected =>
    refine ⟨_, rfl, h.live, fun k => ?_⟩
    rcases engine.store.deleteSession_streams order sessionId expected k with same | gone
    · exact same ▸ h.streams k
    · exact .inr gone
  | rebuildProjections =>
    refine ⟨_, rfl, h.live, fun k => ?_⟩
    exact engine.store.rebuildProjections_log ▸ h.streams k
  | restart source =>
    obtain ⟨recovered, restarted, store, live, streams⟩ := h.restart source
    refine ⟨recovered, restarted, live, fun k => .inl ?_⟩
    rw [store]
    exact streams k

theorem tracking_run (h : Tracking engine) (steps : List (EngineStep C B M)) :
    ∃ next, run DurableEngine.step engine steps = .ok next ∧ Tracking next := by
  induction steps generalizing engine with
  | nil => exact ⟨engine, rfl, h⟩
  | cons step steps ih =>
    obtain ⟨middle, first, tracking⟩ := h.step step
    obtain ⟨next, rest, tracking⟩ := ih tracking
    exact ⟨next, bind_eq_ok_iff.mpr ⟨middle, first, rest⟩, tracking⟩

/-- Along every run of calls, deletions, rebuilds and restarts, whatever fails in the store, no
restart fails. A restart recovers every session that the store has as the running engine knows it,
and no other. A call that answers has stored its events at the end of the log, and one that fails
has stored nothing. -/
theorem engine_survives (faults : List (Option StoreError)) (source : M)
    (steps : List (EngineStep C B M)) :
    ∃ engine, run DurableEngine.step (.new (.opened faults) source) steps = .ok engine ∧
      (∀ other : M, ∃ recovered, engine.restart other = .ok recovered ∧
        recovered.store = engine.store ∧
        ∀ k, recovered.inner.session k =
          if sessionEvents k engine.store.log = [] then none else engine.inner.session k) ∧
      ∀ (call : DurableCall C B) answer next, engine.call call = (answer, next) →
        next.store.log = engine.store.log ++ answer.toOption.getD [] := by
  have start : Tracking (.new (.opened faults) source : DurableEngine SqliteStore M) :=
    ⟨live_new source, fun _ => .inl rfl⟩
  obtain ⟨engine, reached, h⟩ := tracking_run start steps
  refine ⟨engine, reached, fun other => ?_, fun call answer next called => ?_⟩
  · obtain ⟨recovered, restarted, store, live, streams⟩ := h.restart other
    refine ⟨recovered, restarted, store, fun k => ?_⟩
    split
    next empty =>
      rw [streams k] at empty
      exact (live.replayed.known k).mpr empty
    next some_ =>
      have same := (h.streams k).resolve_right some_
      have here := live.replayed.sessions k
      have there := h.live.replayed.sessions k
      rw [← streams k, same] at here
      have current := Except.ok.inj (here.symm.trans there)
      rw [session_eq_some_current (mt (live.replayed.known k).mp (streams k ▸ some_)),
        session_eq_some_current (mt (h.live.replayed.known k).mp (same ▸ some_)), current]
  · have outcome := h.call_outcome call
    rw [called] at outcome
    cases outcome with
    | failed unpublished => exact unpublished.log.trans (List.append_nil _).symm
    | published _ log _ => exact log

end Steps

end AutoHarness
