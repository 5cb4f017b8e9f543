import AutoHarness.SessionRemoval

namespace AutoHarness

open FallibleRun (bind_eq_ok_iff run)
open KeyedTable (alter)

namespace SessionTables

variable {t u : SessionTables} {turn : ContextTurnKey} {workspaceId : WorkspaceId}
  {event : EventEnvelope} {sessionId : SessionId}

/-- Other context turns do not matter to a live store as long as the bound ones stay. -/
theorem live_of_turns {turns : KeyedTable ContextTurnKey.contextTurnId}
    {distinct : (turns.rows.map ContextTurnKey.turnKey).Nodup} (live : t.Live)
    (kept : ∀ row ∈ t.bindings, ∀ turn ∈ t.contextTurns,
      turn.contextTurnId = row.contextTurnId → turn ∈ turns) :
    Live { t with contextTurns := turns, turnsDistinct := distinct } := by
  have s := live.sourced
  have bindings : ∀ row ∈ t.bindings,
      BindingSourced { t with contextTurns := turns, turnsDistinct := distinct } row := by
    intro row hr
    have sourced := s.bindings row hr
    exact ⟨kept row hr _ sourced.turn rfl, sourced.origin⟩
  refine ⟨⟨⟨s.ledger.session, s.ledger.sequence, s.ledger.command, s.ledger.cause⟩,
    fun row hr => ?_, fun row hr => ?_, fun row hr => ?_, s.segments, bindings⟩,
    live.schema, fun k => ?_⟩
  · have sourced := s.inputs row hr
    exact ⟨sourced.check, sourced.session, sourced.origin⟩
  · have sourced := s.attempts row hr
    exact ⟨sourced.check, sourced.session, sourced.input, sourced.retry, sourced.origin⟩
  · have sourced := s.messages row hr
    exact ⟨sourced.session, sourced.origin⟩
  · have own := live.sessions k
    refine ⟨own.scanned, fun past event future split => ?_, own.unknown, fun some => ?_⟩
    · change t.eventsOf k = _ at split
      have admits := own.admitted past event future split
      refine admits_turns (fun contextTurnId turn bound found _ => ?_) admits
      obtain ⟨mem, key⟩ := KeyedTable.find?_eq_some_iff.mp found
      refine KeyedTable.find?_eq_some_iff.mpr ⟨?_, key⟩
      have nonempty : t.eventsOf k ≠ [] := by
        rw [split]
        simp
      obtain ⟨workspaceId, m⟩ := own.mirrored nonempty
      have listed : contextTurnId ∈
          (SessionView.ofEvents k workspaceId (t.eventsOf k)).bindings.map
            ContextTurnBindingRow.contextTurnId := by
        rw [SessionView.ofEvents_bindings, split]
        exact List.mem_filterMap.mpr ⟨event, by simp, bound⟩
      obtain ⟨row, hr, same⟩ := List.mem_map.mp listed
      exact kept row (m.mem_binding_iff.mp hr).1 turn mem (key.trans same.symm)
    · obtain ⟨workspaceId, m⟩ := own.mirrored some
      exact ⟨workspaceId, m.header, m.inputs, m.attempts, m.messages, m.segments, m.bindings⟩

theorem bindSessionWorkspace_live (live : t.Live)
    (h : t.bindSessionWorkspace turn workspaceId = .ok u) : u.Live := by
  unfold bindSessionWorkspace at h
  split at h
  next => cases h
  next row found =>
    split at h
    next existing held =>
      split at h
      next =>
        cases Except.ok.inj h
        exact live
      next => cases h
    next =>
      cases Except.ok.inj h
      have own := live.sessions turn.sessionId
      have nonempty : t.eventsOf turn.sessionId ≠ [] := by
        intro empty
        rw [own.unknown empty] at found
        cases found
      obtain ⟨before, m⟩ := own.mirrored nonempty
      obtain ⟨u, hu, sourced, mu, framed⟩ := updateSessions_writes
        (f := SessionRow.bindWorkspace workspaceId) live.sourced m
      cases Except.ok.inj hu
      have events (k : SessionId) :
          (t.updateSessions turn.sessionId (SessionRow.bindWorkspace workspaceId)).1.eventsOf k =
            t.eventsOf k := rfl
      refine ⟨sourced, live.schema, fun k => ?_⟩
      by_cases hk : k = turn.sessionId
      · subst hk
        refine ⟨own.scanned, own.admitted, fun empty => (nonempty empty).elim, fun _ => ?_⟩
        refine ⟨some workspaceId, ?_⟩
        rw [events, SessionView.ofEvents_workspace (some workspaceId) before]
        exact mu
      · have other := live.sessions k
        refine ⟨other.scanned, other.admitted, fun empty => ?_, fun some => ?_⟩
        · rw [← (framed.elsewhere k hk).header]
          exact other.unknown empty
        · obtain ⟨w, mk⟩ := other.mirrored some
          exact ⟨w, mk.agree (framed.elsewhere k hk)⟩

theorem reconcileUnboundTurnConflict_live (live : t.Live)
    (h : t.reconcileUnboundTurnConflict turn = .ok u) : u.Live := by
  unfold reconcileUnboundTurnConflict at h
  split at h
  next =>
    cases Except.ok.inj h
    exact live
  next other found =>
    split at h
    next =>
      cases Except.ok.inj h
      exact live
    next =>
      split at h
      next => cases h
      next unbound =>
        cases Except.ok.inj h
        refine live_of_turns live fun row hr turn ht same => ?_
        rw [KeyedTable.mem_delete]
        refine ⟨ht, decide_eq_false fun removed => unbound ?_⟩
        rw [← removed, same, KeyedTable.find?_eq_some_iff.mpr ⟨hr, rfl⟩]
        rfl

theorem commitContextTurn_live (live : t.Live) (h : t.commitContextTurn turn = .ok u) :
    u.Live := by
  unfold commitContextTurn at h
  split at h
  next existing found =>
    split at h
    next =>
      cases Except.ok.inj h
      exact live
    next => cases h
  next =>
    split at h
    next =>
      split at h
      next inserted stored =>
        cases Except.ok.inj h
        unfold insertTurn? at stored
        split at stored
        next =>
          cases Option.some.inj stored
          refine live_of_turns live fun row hr turn ht _ => ?_
          exact List.mem_append_left _ ht
        next => cases stored
      next => cases h
    next => cases h

theorem appendContextBindingEvent_live {expected : Nat} (live : t.Live)
    (valid : validateBindingRequest turn expected event = .ok ())
    (h : t.appendContextBindingEvent turn expected event = .ok u) : u.Live := by
  unfold validateBindingRequest at valid
  split at valid
  next fits =>
    obtain ⟨version, session, sequence, payload⟩ := fits
    have own := live.sessions event.sessionId
    unfold appendContextBindingEvent at h
    split at h
    next existing found =>
      split at h
      next same =>
        subst same
        obtain ⟨confirmed, hc, covered⟩ := bind_eq_ok_iff.mp h
        have unchanged : u = confirmed := by
          unfold requireCovered at covered
          split at covered
          · cases covered
          · exact (Except.ok.inj covered).symm
        subst unchanged
        unfold confirmBinding at hc
        split at hc
        next =>
          split at hc
          next =>
            cases Except.ok.inj hc
            exact live
          next => cases hc
        next unbound =>
          -- A stored binding event has its binding.
          obtain ⟨mem, -⟩ := KeyedTable.find?_eq_some_iff.mp found
          have stream := mem_eventsOf.mpr ⟨mem, rfl⟩
          obtain ⟨workspaceId, m⟩ := own.mirrored fun empty => by simp [empty] at stream
          have bound : SessionView.boundTurn? existing = some turn.contextTurnId := by
            rw [SessionView.boundTurn?, payload]
            rfl
          have listed : turn.contextTurnId ∈ (SessionView.ofEvents existing.sessionId workspaceId
              (t.eventsOf existing.sessionId)).bindings.map
                ContextTurnBindingRow.contextTurnId := by
            rw [SessionView.ofEvents_bindings]
            exact List.mem_filterMap.mpr ⟨existing, stream, bound⟩
          obtain ⟨row, hr, same⟩ := List.mem_map.mp listed
          exact (KeyedTable.find?_eq_none_iff.mp unbound row (m.mem_binding_iff.mp hr).1
            same).elim
      next => cases h
    next =>
      split at h
      next version' =>
        obtain ⟨⟨⟩, boundary, h⟩ := bind_eq_ok_iff.mp h
        obtain ⟨stored, inserted, projected⟩ := bind_eq_ok_iff.mp h
        obtain ⟨state, -, causation⟩ := bind_eq_ok_iff.mp boundary
        split at causation
        next =>
          rw [← session, own.version] at version'
          have nonempty : t.eventsOf event.sessionId ≠ [] := by
            intro empty
            have unknown := own.unknown empty
            have known := (insertEvent_stores inserted).session
            rw [hasSession, unknown] at known
            cases known
          obtain ⟨workspaceId, m⟩ := own.mirrored nonempty
          obtain ⟨scan, scanned⟩ := own.scanned
          have expected' := (StreamScan.seen_of_run scanned).expected
          have later : event.payload ≠ .sessionCreated := by
            rw [payload]
            exact fun h => by cases h
          exact (live_of_stored live.sourced live.schema (fun k _ => live.sessions k) m
            (.inl ⟨nonempty, later, workspaceId, rfl⟩) scanned own.admitted version
            (by omega) (requireBindingCausation_caused causation) inserted projected).1
        next => cases causation
      next => cases h
  next => cases valid

theorem commitContextTurnAndBind_live {expected : Nat} (live : t.Live)
    (h : t.commitContextTurnAndBind turn expected workspaceId event = .ok u) : u.Live := by
  obtain ⟨⟨⟩, valid, h⟩ := bind_eq_ok_iff.mp h
  obtain ⟨bound, hb, h⟩ := bind_eq_ok_iff.mp h
  obtain ⟨reconciled, hr, h⟩ := bind_eq_ok_iff.mp h
  obtain ⟨stored, hs, h⟩ := bind_eq_ok_iff.mp h
  have live₁ := bindSessionWorkspace_live live hb
  have live₂ := reconcileUnboundTurnConflict_live live₁ hr
  have live₃ := commitContextTurn_live live₂ hs
  exact appendContextBindingEvent_live live₃ valid h

end SessionTables

end AutoHarness
