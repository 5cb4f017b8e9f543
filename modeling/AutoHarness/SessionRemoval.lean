import AutoHarness.SessionAppend

namespace AutoHarness

open FallibleRun (bind_eq_ok_iff run)

namespace SessionTables

variable {t u : SessionTables} {sessionId k : SessionId}

/-- The tables without the rows of one session. -/
def without (t : SessionTables) (sessionId : SessionId) : SessionTables where
  sessions := t.sessions.delete fun row => row.sessionId == sessionId
  events := t.events.delete fun row => row.sessionId == sessionId
  inputs := t.inputs.delete fun row => row.sessionId == sessionId
  attempts := t.attempts.delete fun row => row.sessionId == sessionId
  messages := t.messages.delete fun row => row.sessionId == sessionId
  segments := t.segments.delete fun row => row.sessionId == sessionId
  bindings := t.bindings.delete fun row => row.sessionId == sessionId
  contextTurns := t.contextTurns.delete fun row => row.sessionId == sessionId
  turnsDistinct := t.turnsDistinct.sublist (List.filter_sublist.map _)

section Removal

theorem removeAttempts_eq_ok {rows : List AttemptRow} (h : run removeAttempt t rows = .ok u) :
    u = { t with
      attempts := t.attempts.delete fun row =>
        rows.any fun other => row.attemptId = other.attemptId } := by
  induction rows generalizing t with
  | nil =>
    cases Except.ok.inj h
    simp [KeyedTable.delete_false]
  | cons row rows ih =>
    obtain ⟨m, removed, rest⟩ := bind_eq_ok_iff.mp h
    unfold removeAttempt at removed
    split at removed
    next => cases removed
    next =>
      cases Except.ok.inj removed
      rw [ih rest]
      simp [KeyedTable.delete_delete]

theorem removeEvents_eq_ok {events : List EventEnvelope}
    (h : run removeEvent t events = .ok u) :
    u = { t with
      events := t.events.delete fun row =>
        events.any fun other => row.eventId = other.eventId } := by
  induction events generalizing t with
  | nil =>
    cases Except.ok.inj h
    simp [KeyedTable.delete_false]
  | cons event events ih =>
    obtain ⟨m, removed, rest⟩ := bind_eq_ok_iff.mp h
    unfold removeEvent at removed
    split at removed
    next => cases removed
    next =>
      split at removed
      next =>
        cases Except.ok.inj removed
        rw [ih rest]
        simp [KeyedTable.delete_delete]
      next => cases removed

theorem deleteAttempts_eq_ok {order : RemovalOrder AttemptRow}
    (h : t.deleteAttempts order sessionId = .ok u) :
    u = { t with attempts := t.attempts.delete fun row => row.sessionId == sessionId } := by
  rw [removeAttempts_eq_ok h]
  congr 1
  refine KeyedTable.delete_congr fun row hr => ?_
  rw [Bool.eq_iff_iff, List.any_eq_true, beq_iff_eq]
  simp only [(order.perm _).mem_iff, KeyedTable.mem_select, decide_eq_true_eq]
  constructor
  · rintro ⟨other, ⟨ho, own⟩, same⟩
    rw [KeyedTable.eq_of_key hr ho same]
    exact own
  · intro own
    exact ⟨row, ⟨hr, own⟩, rfl⟩

theorem deleteEvents_eq_ok (h : t.deleteEvents sessionId = .ok u) :
    u = { t with events := t.events.delete fun row => row.sessionId == sessionId } := by
  rw [removeEvents_eq_ok h]
  congr 1
  refine KeyedTable.delete_congr fun row hr => ?_
  rw [Bool.eq_iff_iff, List.any_eq_true, beq_iff_eq]
  simp only [List.mem_reverse, stream, List.mem_mergeSort, Interleaving.mem_project,
    decide_eq_true_eq]
  constructor
  · rintro ⟨other, ⟨ho, own⟩, same⟩
    rw [KeyedTable.eq_of_key hr ho same]
    exact own
  · intro own
    exact ⟨row, ⟨hr, own⟩, rfl⟩

theorem deleteRows_eq_ok {order : RemovalOrder AttemptRow}
    (h : t.deleteRows order sessionId = .ok u) : u = t.without sessionId := by
  obtain ⟨projections, hp, h⟩ := bind_eq_ok_iff.mp h
  obtain ⟨events, he, hs⟩ := bind_eq_ok_iff.mp h
  obtain ⟨turns, ht, hp⟩ := bind_eq_ok_iff.mp hp
  obtain ⟨messages, hm, hp⟩ := bind_eq_ok_iff.mp hp
  obtain ⟨attempts, ha, hi⟩ := bind_eq_ok_iff.mp hp
  unfold deleteContextTurns at ht
  split at ht
  next => cases ht
  next =>
    cases Except.ok.inj ht
    unfold deleteMessages at hm
    split at hm
    next => cases hm
    next =>
      cases Except.ok.inj hm
      cases deleteAttempts_eq_ok ha
      unfold deleteInputs at hi
      split at hi
      next => cases hi
      next =>
        cases Except.ok.inj hi
        cases deleteEvents_eq_ok he
        unfold removeSession at hs
        split at hs
        next => cases hs
        next =>
          split at hs
          next =>
            cases Except.ok.inj hs
            rfl
          next => cases hs

end Removal

section Remaining

theorem mem_without_events {event : EventEnvelope} :
    event ∈ (t.without sessionId).events ↔ event ∈ t.events ∧ event.sessionId ≠ sessionId := by
  simp [without]

theorem mem_without_inputs {row : InputRow} :
    row ∈ (t.without sessionId).inputs ↔ row ∈ t.inputs ∧ row.sessionId ≠ sessionId := by
  simp [without]

theorem mem_without_attempts {row : AttemptRow} :
    row ∈ (t.without sessionId).attempts ↔ row ∈ t.attempts ∧ row.sessionId ≠ sessionId := by
  simp [without]

theorem mem_without_turns {turn : ContextTurnKey} :
    turn ∈ (t.without sessionId).contextTurns ↔
      turn ∈ t.contextTurns ∧ turn.sessionId ≠ sessionId := by
  simp [without]

theorem without_find? (hk : k ≠ sessionId) :
    (t.without sessionId).sessions.find? k = t.sessions.find? k := by
  refine Option.ext fun row => ?_
  rw [KeyedTable.find?_eq_some_iff, KeyedTable.find?_eq_some_iff]
  simp only [without, KeyedTable.mem_delete, beq_eq_false_iff_ne]
  constructor
  · intro h
    exact ⟨h.1.1, h.2⟩
  · intro h
    exact ⟨⟨h.1, h.2 ▸ hk⟩, h.2⟩

theorem without_hasSession (hk : k ≠ sessionId) :
    (t.without sessionId).hasSession k = t.hasSession k := by
  rw [hasSession, hasSession, without_find? hk]

theorem without_agree (hk : k ≠ sessionId) : AgreeAt t (t.without sessionId) k :=
  ⟨(without_find? hk).symm, (Interleaving.project_filter_ne hk _).symm,
    (Interleaving.project_filter_ne hk _).symm, (Interleaving.project_filter_ne hk _).symm,
    (Interleaving.project_filter_ne hk _).symm, (Interleaving.project_filter_ne hk _).symm⟩

theorem without_eventsOf (hk : k ≠ sessionId) :
    (t.without sessionId).eventsOf k = t.eventsOf k :=
  Interleaving.project_filter_ne hk _

theorem without_sourcedBy {eventId : EventId} {P : EventPayload → Prop} (hk : k ≠ sessionId)
    (h : t.SourcedBy k eventId P) : (t.without sessionId).SourcedBy k eventId P := by
  obtain ⟨event, he, hid, own, hp⟩ := h
  exact ⟨event, mem_without_events.mpr ⟨he, own ▸ hk⟩, hid, own, hp⟩

theorem without_sourced (s : t.Sourced) : (t.without sessionId).Sourced := by
  refine ⟨⟨fun event he => ?_, fun a ha b hb => ?_, fun a ha b hb => ?_, fun event he causeId hc => ?_⟩,
    fun row hr => ?_, fun row hr => ?_, fun row hr => ?_, fun row hr => ?_, fun row hr => ?_⟩
  · obtain ⟨mem, hk⟩ := mem_without_events.mp he
    rw [without_hasSession hk]
    exact s.ledger.session event mem
  · exact s.ledger.sequence a (mem_without_events.mp ha).1 b (mem_without_events.mp hb).1
  · exact s.ledger.command a (mem_without_events.mp ha).1 b (mem_without_events.mp hb).1
  · obtain ⟨mem, hk⟩ := mem_without_events.mp he
    obtain ⟨cause, hm, hid, own, before⟩ := s.ledger.cause event mem causeId hc
    exact ⟨cause, mem_without_events.mpr ⟨hm, own ▸ hk⟩, hid, own, before⟩
  · obtain ⟨mem, hk⟩ := mem_without_inputs.mp hr
    have sourced := s.inputs row mem
    exact ⟨sourced.check, by rw [without_hasSession hk]; exact sourced.session,
      without_sourcedBy hk sourced.origin⟩
  · obtain ⟨mem, hk⟩ := mem_without_attempts.mp hr
    have sourced := s.attempts row mem
    refine ⟨sourced.check, by rw [without_hasSession hk]; exact sourced.session, ?_,
      fun priorId hp => ?_, fun column eventId hc => without_sourcedBy hk
        (sourced.origin column eventId hc)⟩
    · obtain ⟨input, hi, key⟩ := sourced.input
      have own : input.sessionId = row.sessionId := congrArg Prod.fst key
      exact ⟨input, mem_without_inputs.mpr ⟨hi, own ▸ hk⟩, key⟩
    · obtain ⟨prior, hm, hid, own⟩ := hasAttempt_iff.mp (sourced.retry priorId hp)
      exact hasAttempt_iff.mpr ⟨prior, mem_without_attempts.mpr ⟨hm, own ▸ hk⟩, hid, own⟩
  · obtain ⟨mem, hk⟩ : row ∈ t.messages ∧ row.sessionId ≠ sessionId := by
      simpa [without] using hr
    have sourced := s.messages row mem
    refine ⟨by rw [without_hasSession hk]; exact sourced.session, ?_⟩
    obtain ⟨event, he, own, rest⟩ := sourced.origin
    exact ⟨event, mem_without_events.mpr ⟨he, own ▸ hk⟩, own, rest⟩
  · obtain ⟨mem, hk⟩ : row ∈ t.segments ∧ row.sessionId ≠ sessionId := by
      simpa [without] using hr
    obtain ⟨event, he, hid, own, rest⟩ := s.segments row mem
    exact ⟨event, mem_without_events.mpr ⟨he, own ▸ hk⟩, hid, own, rest⟩
  · obtain ⟨mem, hk⟩ : row ∈ t.bindings ∧ row.sessionId ≠ sessionId := by
      simpa [without] using hr
    have sourced := s.bindings row mem
    exact ⟨mem_without_turns.mpr ⟨sourced.turn, hk⟩, without_sourcedBy hk sourced.origin⟩

/-- What a binding needs of the context turns. -/
theorem admits_turns {v : SessionView} {past : List EventEnvelope} {event : EventEnvelope}
    {turns turns' : KeyedTable ContextTurnKey.contextTurnId}
    (kept : ∀ contextTurnId turn, SessionView.boundTurn? event = some contextTurnId →
      turns.find? contextTurnId = some turn → turn.sessionId = event.sessionId →
        turns'.find? contextTurnId = some turn)
    (h : v.Admits turns past event) : v.Admits turns' past event := by
  unfold SessionView.Admits at h ⊢
  unfold SessionView.boundTurn? at kept
  cases payload : event.payload <;> simp only [payload] at h kept ⊢ <;> try exact h
  exact ⟨kept _ _ rfl h.1 rfl, h.2⟩

theorem without_live (live : t.Live) : (t.without sessionId).Live := by
  refine ⟨without_sourced live.sourced, fun event he => live.schema event
    (mem_without_events.mp he).1, fun k => ?_⟩
  by_cases hk : k = sessionId
  · subst hk
    have empty : (t.without k).eventsOf k = [] := Interleaving.project_filter_self k _
    refine ⟨⟨.initial, by rw [empty]; rfl⟩, fun past event future split => ?_, fun _ => ?_,
      fun some => (some empty).elim⟩
    · rw [empty] at split
      simp at split
    · refine KeyedTable.find?_eq_none_iff.mpr fun row hr same => ?_
      simp [without, same] at hr
  · have own := live.sessions k
    have same := without_eventsOf (t := t) hk
    refine ⟨same ▸ own.scanned, fun past event future split => ?_, fun none => ?_, fun some => ?_⟩
    · rw [same] at split
      have admits := own.admitted past event future split
      have mem : event ∈ t.eventsOf k := by
        rw [split]
        simp
      have session := (mem_eventsOf.mp mem).2
      refine admits_turns (fun contextTurnId turn _ found stays => ?_) admits
      obtain ⟨mem, key⟩ := KeyedTable.find?_eq_some_iff.mp found
      refine KeyedTable.find?_eq_some_iff.mpr ⟨mem_without_turns.mpr ⟨mem, ?_⟩, key⟩
      rw [stays, session]
      exact hk
    · rw [without_find? hk]
      exact own.unknown (same ▸ none)
    · rw [same] at some ⊢
      obtain ⟨workspaceId, m⟩ := own.mirrored some
      exact ⟨workspaceId, m.agree (without_agree hk)⟩

end Remaining

theorem deleteSession_live {order : RemovalOrder AttemptRow} {expected : Nat}
    {disposition : DeletionDisposition} (live : t.Live)
    (h : t.deleteSession order sessionId expected = .ok (disposition, u)) : u.Live := by
  unfold deleteSession at h
  split at h
  next => cases h
  next =>
    split at h
    next =>
      cases Except.ok.inj h
      exact live
    next row found =>
      obtain ⟨⟨⟩, -, h⟩ := bind_eq_ok_iff.mp h
      obtain ⟨deleted, removed, h⟩ := bind_eq_ok_iff.mp h
      cases Except.ok.inj h
      rw [deleteRows_eq_ok removed]
      exact without_live live

end SessionTables

end AutoHarness
