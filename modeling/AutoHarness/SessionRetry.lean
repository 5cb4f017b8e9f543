import AutoHarness.SessionLedger

namespace AutoHarness

open FallibleRun (bind_eq_ok_iff run)

namespace SessionTables

variable {t u w : SessionTables} {k : SessionId} {request : AppendRequest}

/-- What the checks of a request say about its events. -/
theorem valid_events (valid : request.validate = .ok ()) :
    request.events ≠ [] ∧ ∀ event ∈ request.events, event.sessionId = request.sessionId := by
  unfold AppendRequest.validate at valid
  split at valid
  next => cases valid
  next nonempty =>
    split at valid
    next => cases valid
    next =>
      obtain ⟨scan, ran, -⟩ := bind_eq_ok_iff.mp valid
      refine ⟨nonempty, FallibleRun.run_history (P := fun events _ => ∀ event ∈ events,
        event.sessionId = request.sessionId) (by simp) (fun _ _ _ _ _ own step => ?_) ran⟩
      intro event he
      rcases List.mem_append.mp he with old | new
      · exact own event old
      · rw [List.mem_singleton.mp new]
        exact (AppendRequest.validateEvent_eq_ok step).1

theorem Live.validateStored {event : EventEnvelope} (live : t.Live) (he : event ∈ t.events) :
    t.validateStored event = .ok () := by
  unfold SessionTables.validateStored
  rw [if_neg (not_not.mpr (live.schema event he))]
  split
  next => rfl
  next causeId caused =>
    obtain ⟨cause, hc, rfl, session, before⟩ := live.sourced.ledger.cause event he causeId caused
    rw [KeyedTable.find?_eq_some_iff.mpr ⟨hc, rfl⟩]
    simp [session, before]

theorem Live.findExisting {event : EventEnvelope} (live : t.Live) (he : event ∈ t.events) :
    t.findExisting event = .ok true := by
  have found : t.events.find? event.eventId = some event :=
    KeyedTable.find?_eq_some_iff.mpr ⟨he, rfl⟩
  unfold SessionTables.findExisting
  simp [found, live.validateStored he]

/-- No event has a sequence above the version of its session. -/
theorem Live.sequence_le {event : EventEnvelope} (live : t.Live) (he : event ∈ t.events) :
    event.sequence.get ≤ t.currentSessionVersion event.sessionId := by
  have own := live.sessions event.sessionId
  obtain ⟨scan, scanned⟩ := own.scanned
  have before := (StreamScan.ordered_of_run scanned).2 event (mem_eventsOf.mpr ⟨he, rfl⟩)
  rw [(StreamScan.seen_of_run scanned).expected, ← own.version] at before
  exact Nat.lt_succ_iff.mp before

/-- A batch whose events are stored is accepted again and changes nothing. -/
theorem Live.append_stored (live : t.Live) (valid : request.validate = .ok ())
    (stored : ∀ event ∈ request.events, event ∈ t.events) :
    t.append request =
      .ok (⟨.alreadyCommitted, t.currentSessionVersion request.sessionId⟩, t) := by
  obtain ⟨nonempty, own⟩ := valid_events valid
  have existing : t.existingBatchState request.events = .ok .all := by
    unfold existingBatchState
    rw [FallibleRun.mapM_eq_ok (g := fun _ => true) fun event he =>
      live.findExisting (stored event he)]
    obtain ⟨first, rest, events⟩ := List.exists_cons_of_ne_nil nonempty
    simp [events]
  unfold append
  rw [valid, FallibleRun.ok_bind, existing, FallibleRun.ok_bind, List.head?_eq_some_head nonempty,
    List.getLast?_eq_some_getLast nonempty]
  have last := List.getLast_mem nonempty
  have covered := live.sequence_le (stored _ last)
  rw [own _ last] at covered
  exact if_neg (Nat.not_lt.mpr covered)

/-- The row of a bound turn, from the event that bound it. -/
theorem Live.bindingRow {event : EventEnvelope} {turn : ContextTurnKey} (live : t.Live)
    (he : event ∈ t.events) (session : event.sessionId = turn.sessionId)
    (payload : event.payload = turn.boundPayload) : turn.bindingRow event ∈ t.bindings := by
  have stream := mem_eventsOf.mpr ⟨he, rfl⟩
  obtain ⟨workspaceId, m⟩ := (live.sessions event.sessionId).mirrored fun empty => by
    simp [empty] at stream
  refine (m.mem_binding_iff.mp ?_).1
  obtain ⟨past, future, split⟩ := List.append_of_mem stream
  have bound : (SessionView.ofEvents event.sessionId workspaceId (past ++ [event])).bindings =
      (SessionView.ofEvents event.sessionId workspaceId past).bindings ++
        [turn.bindingRow event] := by
    rw [SessionView.ofEvents_concat]
    change (SessionView.apply _ event).bindings = _
    unfold SessionView.apply
    rw [payload]
    simp [ContextTurnKey.boundPayload, SessionView.bindTurn, session]
  rw [split, List.append_cons]
  refine (SessionView.bindings_stay (past ++ [event]) future).subset ?_
  rw [bound]
  exact List.mem_append_right _ (List.mem_singleton_self _)

section Retry

variable {earlier later : List SessionTransaction} {receipt : AppendReceipt}

/-- An accepted batch that is sent again after any further transactions is recognised: nothing
changes, and each of its events is in the ledger once. -/
theorem append_retry (history : run transact .empty earlier = .ok t)
    (accepted : t.append request = .ok (receipt, u)) (further : run transact u later = .ok w)
    (kept : ∀ transaction ∈ later, ¬ transaction.deletes request.sessionId) :
    w.append request =
        .ok (⟨.alreadyCommitted, w.currentSessionVersion request.sessionId⟩, w) ∧
      ∀ event ∈ request.events, w.events.rows.count event = 1 := by
  have live := append_live (history_live history) accepted
  have live' : w.Live :=
    FallibleRun.run_invariant live (fun _ _ _ live step => transact_live live step) further
  obtain ⟨⟨⟩, valid, -⟩ := bind_eq_ok_iff.mp accepted
  have continues := history_continues further kept
  have remain : ∀ event ∈ request.events, event ∈ w.events := by
    intro event he
    have own := (valid_events valid).2 event he
    have before := mem_eventsOf.mpr ⟨append_mem accepted he, own⟩
    exact (mem_eventsOf.mp (continues.stream.subset before)).1
  refine ⟨live'.append_stored valid remain, fun event he => ?_⟩
  exact List.count_eq_one_of_mem w.events.rows_nodup (remain event he)

/-- The first request of the sample history. -/
def sampleOpening : AppendRequest := ⟨sampleSession, 0, sampleLog.take 4⟩

theorem kept_sampleHistory :
    ∀ transaction ∈ sampleHistory.tail, ¬ transaction.deletes sampleSession := by
  simp [sampleHistory, SessionTransaction.deletes]

theorem append_retry_sample :
    ∃ w, run transact .empty sampleHistory = .ok w ∧
      w.append sampleOpening =
        .ok (⟨.alreadyCommitted, w.currentSessionVersion sampleSession⟩, w) ∧
      ∀ event ∈ sampleLog.take 4, w.events.rows.count event = 1 := by
  have history : run transact .empty [] = .ok SessionTables.empty := rfl
  exact ⟨_, rfl, append_retry history (rfl : SessionTables.empty.append sampleOpening = .ok (_, _))
    (rfl : run transact _ sampleHistory.tail = _) kept_sampleHistory⟩

/-- The version that a committed batch leaves is above the one it expected. -/
theorem committed_version {last : Nat} (live : t.Live)
    (accepted : t.append request = .ok (⟨.committed, last⟩, u)) :
    request.expectedLastSequence < u.currentSessionVersion request.sessionId := by
  obtain ⟨⟨⟩, valid, -⟩ := bind_eq_ok_iff.mp accepted
  obtain ⟨nonempty, own⟩ := valid_events valid
  obtain ⟨-, version, grows, -⟩ | ⟨again, -⟩ := append_cases accepted
  case inr => cases again
  have before := (live.sessions request.sessionId).version
  have after := ((append_live live accepted).sessions request.sessionId).version
  rw [eventsOf, grows.rows, Interleaving.project_append,
    Interleaving.project_eq_self own, List.length_append] at after
  have some := List.length_pos_iff.mpr nonempty
  rw [eventsOf, version] at before
  omega

/-- A writer that expects the version from before a committed batch loses: it is either told the
version of the session, or its events were stored before and nothing changes. -/
theorem append_stale {other : AppendRequest} {last : Nat}
    (history : run transact .empty earlier = .ok t)
    (accepted : t.append request = .ok (⟨.committed, last⟩, u))
    (further : run transact u later = .ok w)
    (kept : ∀ transaction ∈ later, ¬ transaction.deletes request.sessionId)
    (session : other.sessionId = request.sessionId) (valid : other.validate = .ok ())
    (stale : other.expectedLastSequence ≤ request.expectedLastSequence) :
    (∀ receipt v, w.append other = .ok (receipt, v) →
        receipt.disposition = .alreadyCommitted ∧ v = w) ∧
      ((∀ event ∈ other.events, w.events.find? event.eventId = none) →
        w.append other = .error (.versionConflict request.sessionId other.expectedLastSequence
          (w.currentSessionVersion request.sessionId))) := by
  have live := append_live (history_live history) accepted
  have live' : w.Live :=
    FallibleRun.run_invariant live (fun _ _ _ live step => transact_live live step) further
  have moved : w.currentSessionVersion other.sessionId ≠ other.expectedLastSequence := by
    have after := committed_version (history_live history) accepted
    have grown := (history_continues further kept).stream.length_le
    rw [← (live.sessions _).version, ← (live'.sessions _).version] at grown
    rw [session]
    omega
  constructor
  · intro receipt v again
    obtain ⟨-, version, -⟩ | ⟨rfl, same, -⟩ := append_cases again
    · exact (moved version).elim
    · exact ⟨rfl, same⟩
  · intro fresh
    obtain ⟨nonempty, -⟩ := valid_events valid
    have existing : w.existingBatchState other.events = .ok .none := by
      unfold existingBatchState
      rw [FallibleRun.mapM_eq_ok (g := fun _ => false) fun event he => by
        simp [SessionTables.findExisting, fresh event he]]
      simp
    unfold append
    rw [valid, FallibleRun.ok_bind, existing, FallibleRun.ok_bind,
      List.head?_eq_some_head nonempty, List.getLast?_eq_some_getLast nonempty]
    dsimp only
    unfold commitBatch
    rw [if_pos moved, session]

/-- Another creation of the sample session, by a writer that saw no event of it. -/
def sampleRival : AppendRequest :=
  ⟨sampleSession, 0, [.newV1 (sampleId _ 9) sampleSession .first ⟨0⟩ (.command (sampleId _ 9))
    sampleCorrelation .sessionCreated]⟩

theorem append_stale_sample :
    ∃ w, run transact .empty sampleHistory = .ok w ∧
      w.append sampleRival = .error (.versionConflict sampleSession 0
        (w.currentSessionVersion sampleSession)) := by
  have history : run transact .empty [] = .ok SessionTables.empty := rfl
  refine ⟨_, rfl, (append_stale history
    (rfl : SessionTables.empty.append sampleOpening = .ok (⟨.committed, _⟩, _))
    (rfl : run transact _ sampleHistory.tail = _) kept_sampleHistory
    (rfl : sampleRival.sessionId = _) rfl (Nat.le_refl 0)).2 ?_⟩
  intro event he
  rw [List.mem_singleton.mp he]
  rfl

end Retry

end SessionTables

end AutoHarness
