import AutoHarness.EngineReplay
import AutoHarness.StorePort

namespace AutoHarness

open FallibleRun Interleaving

/-- The last stored sequence of a session, zero before its first event. -/
def lastDurableSequence (sessionId : SessionId) (log : List EventEnvelope) : Nat :=
  ((sessionEvents sessionId log).getLast?.map fun event => event.sequence.get).getD 0

/-- The outcomes of an atomic write: nothing is stored and the call fails, the whole batch is
appended, or the whole batch was there before. A receipt names the last stored sequence. -/
inductive Written (sessionId : SessionId) (log events : List EventEnvelope) :
    Except StoreError Nat → List EventEnvelope → Prop
  | refused (e : StoreError) : Written sessionId log events (.error e) log
  | committed : Written sessionId log events
      (.ok (lastDurableSequence sessionId (log ++ events))) (log ++ events)
  | alreadyCommitted : (∀ event ∈ events, event ∈ log) →
      Written sessionId log events (.ok (lastDurableSequence sessionId log)) log

/-- A store with a global log that both of its transactions write atomically. -/
structure AtomicWrites {S : Type} (C B : Type) [SessionStore S] [ContextStore S C B]
    (log : S → List EventEnvelope) : Prop where
  append : ∀ store request, Written request.sessionId (log store) request.events
    ((SessionStore.append store request).1.map AppendReceipt.lastSequence)
    (log (SessionStore.append store request).2)
  bind : ∀ store (request : BoundContextTurnCommitRequest C B),
    Written request.bindingEvent.sessionId (log store) [request.bindingEvent]
      ((ContextStore.commitContextTurnAndBind store request).1.map
        BoundContextTurnCommitReceipt.lastSequence)
      (log (ContextStore.commitContextTurnAndBind store request).2)

/-- The reads of the store report a log: every session of it once with its last sequence, and
the events of a session by ascending sequence. -/
structure FaithfulReads {S : Type} [SessionStore S] (log : List EventEnvelope) (store : S) :
    Prop where
  listed : ∃ summaries, SessionStore.listSessions store = .ok summaries ∧
    (summaries.map SessionSummary.sessionId).Nodup ∧
    (∀ event ∈ log, event.sessionId ∈ summaries.map SessionSummary.sessionId) ∧
    ∀ summary ∈ summaries, (sessionEvents summary.sessionId log).getLast?.map
      EventEnvelope.sequence = some summary.lastSequence
  loaded : ∀ sessionId after limit, after < maxSequence →
    SessionStore.loadEvents store sessionId after limit = .ok
      (((sessionEvents sessionId log).filter fun event => after < event.sequence.get).take
        limit.toNat)
  ordered : ∀ sessionId, (sessionEvents sessionId log).Pairwise
    fun a b => a.sequence.get < b.sequence.get

/-- Rehydrated streams are strictly ordered by sequence. -/
theorem Logged.ordered {sessionId : SessionId} {log : List EventEnvelope} {s : SessionAggregate}
    (h : Logged sessionId log s) : log.Pairwise fun a b => a.sequence.get < b.sequence.get := by
  rw [List.pairwise_iff_getElem]
  intro i j hi hj before
  rw [h.sequences i _ (List.getElem?_eq_getElem hi), h.sequences j _ (List.getElem?_eq_getElem hj)]
  omega

theorem Replayable.ordered {log : List EventEnvelope} (h : Replayable log)
    (sessionId : SessionId) : (sessionEvents sessionId log).Pairwise
      fun a b => a.sequence.get < b.sequence.get := by
  obtain ⟨_, hs⟩ := h.sessions sessionId
  exact (rehydrate_logged hs).ordered

/-- A store that keeps its log in memory and fails where the list of faults says so. -/
structure ListStore where
  log : List EventEnvelope
  faults : List (Option StoreError)

def ListStore.write (store : ListStore) (sessionId : SessionId) (events : List EventEnvelope) :
    Except StoreError Nat × ListStore :=
  match store.faults.head?.join with
  | some e => (.error e, { store with faults := store.faults.tail })
  | none =>
    (.ok (lastDurableSequence sessionId (store.log ++ events)),
      ⟨store.log ++ events, store.faults.tail⟩)

def ListStore.summaries (store : ListStore) : List SessionSummary :=
  (store.log.map EventEnvelope.sessionId).dedup.filterMap fun sessionId =>
    (sessionEvents sessionId store.log).getLast?.map fun event => ⟨sessionId, event.sequence⟩

instance : SessionStore ListStore where
  append store request :=
    let (answer, next) := store.write request.sessionId request.events
    (answer.map (AppendReceipt.mk .committed), next)
  loadEvents store sessionId after limit :=
    .ok (((sessionEvents sessionId store.log).filter fun event => after < event.sequence.get).take
      limit.toNat)
  listSessions store := .ok store.summaries

instance {C B : Type} : ContextStore ListStore C B where
  commitContextTurnAndBind store request :=
    let (answer, next) := store.write request.bindingEvent.sessionId [request.bindingEvent]
    (answer.map (BoundContextTurnCommitReceipt.mk .committed), next)

theorem ListStore.write_written (store : ListStore) (sessionId : SessionId)
    (events : List EventEnvelope) :
    Written sessionId store.log events (store.write sessionId events).1
      (store.write sessionId events).2.log := by
  unfold ListStore.write
  split
  next e _ => exact .refused e
  next => exact .committed

theorem map_receipt {ρ : Type} (answer : Except StoreError Nat) (f : Nat → ρ) (g : ρ → Nat)
    (inverse : ∀ n, g (f n) = n) : (answer.map f).map g = answer := by
  cases answer with
  | error e => rfl
  | ok n => exact congrArg Except.ok (inverse n)

theorem listStore_atomicWrites (C B : Type) : AtomicWrites C B ListStore.log where
  append store request := by
    simp only [SessionStore.append]
    rw [map_receipt _ (AppendReceipt.mk .committed) _ fun _ => rfl]
    exact store.write_written request.sessionId request.events
  bind store request := by
    simp only [ContextStore.commitContextTurnAndBind]
    rw [map_receipt _ (BoundContextTurnCommitReceipt.mk .committed) _ fun _ => rfl]
    exact store.write_written request.bindingEvent.sessionId [request.bindingEvent]

theorem ListStore.mem_summaries {store : ListStore} {summary : SessionSummary}
    (h : summary ∈ store.summaries) :
    (sessionEvents summary.sessionId store.log).getLast?.map EventEnvelope.sequence =
      some summary.lastSequence := by
  obtain ⟨sessionId, -, found⟩ := List.mem_filterMap.mp h
  obtain ⟨event, last, rfl⟩ := Option.map_eq_some_iff.mp found
  simp [last]

theorem ListStore.summaries_complete {store : ListStore} {event : EventEnvelope}
    (h : event ∈ store.log) : event.sessionId ∈ store.summaries.map SessionSummary.sessionId := by
  have stream : sessionEvents event.sessionId store.log ≠ [] :=
    List.ne_nil_of_mem (mem_project.mpr ⟨h, rfl⟩)
  obtain ⟨last, hl⟩ := Option.isSome_iff_exists.mp (List.getLast?_isSome.mpr stream)
  refine List.mem_map.mpr ⟨⟨event.sessionId, last.sequence⟩, ?_, rfl⟩
  refine List.mem_filterMap.mpr ⟨event.sessionId, ?_, by rw [hl]; rfl⟩
  exact List.mem_dedup.mpr (List.mem_map_of_mem h)

theorem ListStore.summaries_distinct (store : ListStore) :
    (store.summaries.map SessionSummary.sessionId).Nodup := by
  rw [ListStore.summaries, List.map_filterMap]
  refine (List.nodup_dedup _).filterMap fun a b c ha hb => ?_
  simp only [Option.mem_def, Option.map_eq_some_iff] at ha hb
  obtain ⟨_, ⟨_, -, rfl⟩, rfl⟩ := ha
  obtain ⟨_, ⟨_, -, rfl⟩, rfl⟩ := hb
  rfl

/-- The list store reports every replayable log that it holds. -/
theorem listStore_faithfulReads (store : ListStore) (h : Replayable store.log) :
    FaithfulReads store.log store where
  listed := ⟨store.summaries, rfl, store.summaries_distinct,
    fun _ hm => ListStore.summaries_complete hm, fun _ hm => ListStore.mem_summaries hm⟩
  loaded _ _ _ _ := rfl
  ordered := h.ordered

end AutoHarness
