import AutoHarness.Durable
import AutoHarness.EngineLive
import AutoHarness.ListStore

namespace AutoHarness

open FallibleRun Interleaving

variable {S M : Type} {source : M} {xs ys log : List EventEnvelope} {engine : InMemoryEngine M}

/-- Another merge of the same streams replays to the same engine but for the order of events. -/
theorem replay_of_sameStreams (h : InMemoryEngine.replay source xs = .ok engine)
    (same : SameStreams EventEnvelope.sessionId xs ys) :
    InMemoryEngine.replay source ys = .ok { engine with events := ys } := by
  obtain ⟨other, ho⟩ := replay_of_replayable source ((replayable_of_replay h).of_sameStreams same)
  have replayed := replayed_of_replay ho
  have equal := (replayed_of_replay h).of_sameStreams replayed same
  rw [ho, ← equal, replayed.events]

/-- A merge of rejected streams is rejected too. -/
theorem replay_error_of_sameStreams {e : ReplayError}
    (h : InMemoryEngine.replay source xs = .error e)
    (same : SameStreams EventEnvelope.sessionId xs ys) :
    ∃ f, InMemoryEngine.replay source ys = .error f := by
  cases hy : InMemoryEngine.replay source ys with
  | error f => exact ⟨f, rfl⟩
  | ok engine => cases h.symm.trans (replay_of_sameStreams hy same.symm)

section Recover

variable [SessionStore S] {store : S} {fuel : Nat}

theorem loadSession_eq (reads : FaithfulReads log store) {summary : SessionSummary}
    (listed : (sessionEvents summary.sessionId log).getLast?.map EventEnvelope.sequence =
      some summary.lastSequence) (enough : log.length < fuel) :
    loadSession fuel store summary = some (.ok (sessionEvents summary.sessionId log)) := by
  obtain ⟨last, hl, hs⟩ := Option.map_eq_some_iff.mp listed
  have whole : Paging.remaining (fun event : EventEnvelope => event.sequence.get) 0
      (sessionEvents summary.sessionId log) = sessionEvents summary.sessionId log := by
    refine List.filter_eq_self.mpr fun event _ => ?_
    exact decide_eq_true event.sequence.positive
  have short : (sessionEvents summary.sessionId log).length ≤ log.length :=
    List.length_filter_le _ _
  have pages : ∀ cursor, cursor < last.sequence.get →
      (SessionStore.loadEvents store summary.sessionId cursor defaultEventPageSize).mapError
          DurableEngineError.store =
        .ok ((Paging.remaining (fun event : EventEnvelope => event.sequence.get) cursor
          (sessionEvents summary.sessionId log)).take 512) := by
    intro cursor before
    rw [reads.loaded _ _ _ (Nat.lt_of_lt_of_le before last.sequence.bounded)]
    rfl
  unfold loadSession
  rw [← hs, Paging.readAll_eq (reads.ordered _) hl pages (by decide) (Nat.zero_le _)
    (by rw [whole]; omega), whole]

theorem loadSessions_eq (reads : FaithfulReads log store) {summaries : List SessionSummary}
    (listed : ∀ summary ∈ summaries, (sessionEvents summary.sessionId log).getLast?.map
      EventEnvelope.sequence = some summary.lastSequence) (enough : log.length < fuel) :
    loadSessions fuel store summaries = some (.ok
      ((summaries.map SessionSummary.sessionId).flatMap fun sessionId =>
        sessionEvents sessionId log)) := by
  induction summaries with
  | nil => rfl
  | cons summary summaries ih =>
    have first := loadSession_eq reads (listed summary List.mem_cons_self) enough
    have rest := ih fun other hm => listed other (List.mem_cons_of_mem _ hm)
    simp only [loadSessions, first, rest, Option.map_some, Except.map, List.map_cons,
      List.flatMap_cons]

/-- Recovery replays a merge of the stored streams. -/
theorem recover_eq_replay (reads : FaithfulReads log store) (enough : log.length < fuel)
    (source : M) :
    ∃ events, SameStreams EventEnvelope.sessionId events log ∧
      DurableEngine.recover fuel store source =
        some (do
          let inner ← (InMemoryEngine.replay source events).mapError .replay
          .ok ⟨store, inner⟩) := by
  obtain ⟨summaries, hs, distinct, complete, listed⟩ := reads.listed
  refine ⟨_, sameStreams_flatMap distinct complete, ?_⟩
  unfold DurableEngine.recover
  rw [hs]
  simp only [loadSessions_eq reads listed enough, Option.map_some, ok_bind]
  rfl

end Recover

/-- Replay cannot see how the streams of different sessions are interleaved, and recovery, which
reads session by session, rebuilds what a replay in append order does. -/
theorem replay_interleaving_independent :
    (∀ (source : M) (xs ys : List EventEnvelope),
      (∀ sessionId, sessionEvents sessionId xs = sessionEvents sessionId ys) →
      (∃ e f, InMemoryEngine.replay source xs = .error e ∧
        InMemoryEngine.replay source ys = .error f) ∨
      ∃ e f, InMemoryEngine.replay source xs = .ok e ∧ InMemoryEngine.replay source ys = .ok f ∧
        e.sessions = f.sessions ∧ e.eventIds = f.eventIds ∧ e.commandIds = f.commandIds) ∧
    ∀ [SessionStore S] (store : S) (log : List EventEnvelope) (source : M) (fuel : Nat),
      FaithfulReads log store → log.length < fuel →
      (∃ e f, InMemoryEngine.replay source log = .error e ∧
        DurableEngine.recover fuel store source = some (.error (.replay f))) ∨
      ∃ e recovered, InMemoryEngine.replay source log = .ok e ∧
        DurableEngine.recover fuel store source = some (.ok recovered) ∧
        recovered.store = store ∧ recovered.inner.sessions = e.sessions ∧
        recovered.inner.eventIds = e.eventIds ∧ recovered.inner.commandIds = e.commandIds := by
  constructor
  · intro source xs ys same
    cases hx : InMemoryEngine.replay source xs with
    | error e =>
      obtain ⟨f, hf⟩ := replay_error_of_sameStreams hx same
      exact .inl ⟨e, f, rfl, hf⟩
    | ok engine => exact .inr ⟨engine, _, rfl, replay_of_sameStreams hx same, rfl, rfl, rfl⟩
  · intro _ store log source fuel reads enough
    obtain ⟨events, same, recovered⟩ := recover_eq_replay reads enough source
    rw [recovered]
    cases hl : InMemoryEngine.replay source log with
    | error e =>
      obtain ⟨f, hf⟩ := replay_error_of_sameStreams hl same.symm
      exact .inl ⟨e, f, rfl, by rw [hf]; rfl⟩
    | ok engine =>
      have again := replay_of_sameStreams hl same.symm
      exact .inr ⟨engine, ⟨store, { engine with events }⟩, rfl, by rw [again]; rfl, rfl, rfl, rfl,
        rfl⟩

section Sample

def otherSession : SessionId := ⟨"session-2", rfl⟩

/-- The creation of a session, with the number as event and command identity. -/
def createdEvent (sessionId : SessionId) (n : Nat) : EventEnvelope :=
  .newV1 (sampleId _ n) sessionId .first ⟨0⟩ (.command (sampleId _ n)) sampleCorrelation
    .sessionCreated

def twoSessions : List EventEnvelope :=
  [createdEvent sampleSession 1, createdEvent otherSession 2]

theorem twoSessions_accepted : ∃ engine,
    InMemoryEngine.replay (⟨3⟩ : SampleSource) twoSessions = .ok engine :=
  ⟨_, rfl⟩

theorem twoSessions_reverse (sessionId : SessionId) :
    sessionEvents sessionId twoSessions = sessionEvents sessionId twoSessions.reverse := by
  have first : (createdEvent sampleSession 1).sessionId = sampleSession := rfl
  have second : (createdEvent otherSession 2).sessionId = otherSession := rfl
  have distinct : sampleSession ≠ otherSession := by decide
  by_cases same : sampleSession = sessionId
  · subst same
    simp [twoSessions, sessionEvents, project, first, second, distinct.symm]
  · by_cases other : otherSession = sessionId
    · subst other
      simp [twoSessions, sessionEvents, project, first, second, distinct]
    · simp [twoSessions, sessionEvents, project, first, second, same, other]

theorem replay_interleaving_independent_sample :
    (∃ e f, InMemoryEngine.replay (⟨3⟩ : SampleSource) twoSessions = .ok e ∧
      InMemoryEngine.replay (⟨3⟩ : SampleSource) twoSessions.reverse = .ok f ∧
      e.sessions = f.sessions) ∧
    ∃ e recovered, InMemoryEngine.replay (⟨3⟩ : SampleSource) twoSessions = .ok e ∧
      DurableEngine.recover 3 (⟨twoSessions, []⟩ : ListStore) (⟨3⟩ : SampleSource) =
        some (.ok recovered) ∧
      recovered.inner.sessions = e.sessions := by
  obtain ⟨engine, accepted⟩ := twoSessions_accepted
  have reads := listStore_faithfulReads ⟨twoSessions, []⟩ (replayable_of_replay accepted)
  have independent := replay_interleaving_independent (S := ListStore) (M := SampleSource)
  constructor
  · rcases independent.1 ⟨3⟩ _ _ twoSessions_reverse with
      ⟨e, f, rejected, -⟩ | ⟨e, f, he, hf, sessions, -⟩
    · cases rejected.symm.trans accepted
    · exact ⟨e, f, he, hf, sessions⟩
  · rcases independent.2 ⟨twoSessions, []⟩ twoSessions ⟨3⟩ 3 reads (by decide) with
      ⟨e, f, rejected, -⟩ | ⟨e, recovered, he, hr, -, sessions, -⟩
    · cases rejected.symm.trans accepted
    · exact ⟨e, recovered, he, hr, sessions⟩

end Sample

end AutoHarness
