import AutoHarness.RecoverySettlement

namespace AutoHarness

open FallibleRun IndexedList Interleaving

variable {A S M : Type} [DecidableEq A] [SessionStore S] [EventMetadataSource M]
  {reads : RecoveryReads A} {parseUrl : String → Option Url} {ids : CommandIds}
  {s t : SessionAggregate} {sessionId : SessionId}

theorem Advances.rfl_of {R : SessionAggregate → SessionAggregate → Prop}
    {engine : InMemoryEngine M} (live : Live engine)
    (h : ∀ s, engine.session sessionId = some s → R s s) : Advances sessionId R engine engine :=
  ⟨live, fun _ _ => rfl, fun s found => ⟨s, found, h s found⟩⟩

theorem Advances.trans {P Q R : SessionAggregate → SessionAggregate → Prop}
    {first second third : InMemoryEngine M} (before : Advances sessionId P first second)
    (behind : Advances sessionId Q second third)
    (compose : ∀ s m t, first.session sessionId = some s → second.session sessionId = some m →
      P s m → Q m t → R s t) : Advances sessionId R first third := by
  refine ⟨behind.live, fun other apart => ?_, fun s found => ?_⟩
  · rw [behind.others other apart, before.others other apart]
  · obtain ⟨m, middle, p⟩ := before.changed s found
    obtain ⟨t, final, q⟩ := behind.changed m middle
    exact ⟨t, final, compose s m t found middle p q⟩

section Calls

/-- The pass leaves the call to the answer that its attempt is waiting for. -/
def LeftPending (interrupted : ToolCallProjection × AttemptStatus) : Prop :=
  interrupted.1.status = .permissionPending ∧ interrupted.2 ≠ .inFlight ∧
    interrupted.2 ≠ .cancellationRequested

/-- The listed calls have been settled, but for those that are left pending. -/
structure CallsSettled (tools : List (ToolCallProjection × AttemptStatus))
    (s t : SessionAggregate) : Prop where
  grown : s.lastSequenceValue < t.lastSequenceValue
  attempts : t.attempts = s.attempts
  settled : ∀ c ∈ t.toolCalls, c.status.isSettled = true ∨
    (c ∈ s.toolCalls ∧ ∀ status, (c, status) ∈ tools → LeftPending (c, status))

variable {pass after : RecoveryPass S M}

theorem settleToolCall_cases {call : ToolCallProjection} {status : AttemptStatus}
    (live : Live pass.engine.inner) (unsettled : call.status.isSettled = false)
    (h : RecoveryPass.settleToolCall reads parseUrl ids sessionId pass (call, status) =
      .ok after) :
    (after = pass ∧ LeftPending (call, status)) ∨
      (Advances sessionId (CallSettled call.toolCallId) pass.engine.inner after.engine.inner ∧
        ¬ LeftPending (call, status)) := by
  have advances : ∀ payload event, payload.settlement = some event →
      payload.sessionId = sessionId → SettledBy payload = CallSettled call.toolCallId →
      pass.execute ids payload = .ok after →
      Advances sessionId (CallSettled call.toolCallId) pass.engine.inner after.engine.inner := by
    intro payload event kind addressed effect executed
    have moved := RecoveryPass.execute_advances live kind executed
    rw [addressed, effect] at moved
    exact moved
  unfold RecoveryPass.settleToolCall at h
  simp only at h
  cases current : call.status with
  | running =>
    rw [current] at h
    obtain ⟨committed, proposal, h⟩ := bind_eq_ok_iff.mp h
    refine .inr ⟨?_, by simp [LeftPending, current]⟩
    cases committed with
    | some done =>
      cases h
      unfold RecoveryPass.reconcileCommittedMemoryProposal at proposal
      split at proposal
      · cases proposal
      · split at proposal
        · obtain ⟨loaded, _, proposal⟩ := bind_eq_ok_iff.mp proposal
          split at proposal
          · cases proposal
          · obtain ⟨session, _, proposal⟩ := bind_eq_ok_iff.mp proposal
            obtain ⟨exact_, _, proposal⟩ := bind_eq_ok_iff.mp proposal
            split at proposal
            · obtain ⟨completed, executed, proposal⟩ := bind_eq_ok_iff.mp proposal
              cases proposal
              exact advances _ _ rfl rfl rfl executed
            · cases proposal
        · cases proposal
    | none => exact advances _ _ rfl rfl rfl h
  | deniedPending =>
    rw [current] at h
    exact .inr ⟨advances _ _ rfl rfl rfl h, by simp [LeftPending, current]⟩
  | proposed | authorized =>
    rw [current] at h
    exact .inr ⟨advances _ _ rfl rfl rfl h, by simp [LeftPending, current]⟩
  | permissionPending =>
    rw [current] at h
    simp only at h
    split at h
    next working =>
      refine .inr ⟨advances _ _ rfl rfl rfl h, ?_⟩
      rintro ⟨-, flight, cancelling⟩
      rcases working with e | e
      · exact flight e
      · exact cancelling e
    next idle =>
      cases h
      exact .inl ⟨rfl, current, fun e => idle (.inl e), fun e => idle (.inr e)⟩
  | completed | failed | denied | cancelled | unknown =>
    rw [current] at unsettled
    cases unsettled

theorem CallSettled.then {call : ToolCallProjection} {status : AttemptStatus}
    {tools : List (ToolCallProjection × AttemptStatus)} {m : SessionAggregate}
    (indexes : IndexesExact s) (first : CallSettled call.toolCallId s m)
    (grown : m.lastSequenceValue ≤ t.lastSequenceValue) (attempts : t.attempts = m.attempts)
    (rest : ∀ c ∈ t.toolCalls, c.status.isSettled = true ∨
      (c ∈ m.toolCalls ∧ ∀ status, (c, status) ∈ tools → LeftPending (c, status))) :
    CallsSettled ((call, status) :: tools) s t := by
  obtain ⟨i, c, d, here, owner, -, done, set⟩ := first.toolCalls
  have moved := first.moved
  refine ⟨by omega, attempts.trans first.attempts, fun other member => ?_⟩
  rcases rest other member with settled | ⟨kept, left⟩
  · exact .inl settled
  · rw [set] at kept
    rcases mem_set_cases kept with rfl | ⟨j, apart, there⟩
    · exact .inl done
    · refine .inr ⟨List.mem_of_getElem? there, fun status listed => ?_⟩
      rcases List.mem_cons.mp listed with same | later
      · cases same
        exact absurd (indexes.toolCalls.position_unique there here owner.symm) apart
      · exact left status later

theorem tools_outcome {tools : List (ToolCallProjection × AttemptStatus)}
    (live : Live pass.engine.inner) (found : pass.engine.inner.session sessionId = some s)
    (unsettled : ∀ interrupted ∈ tools, interrupted.1.status.isSettled = false)
    (h : run (RecoveryPass.settleToolCall reads parseUrl ids sessionId) pass tools = .ok after) :
    (after = pass ∧ ∀ interrupted ∈ tools, LeftPending interrupted) ∨
      (Advances sessionId (CallsSettled tools) pass.engine.inner after.engine.inner ∧
        ∃ interrupted ∈ tools, ¬ LeftPending interrupted) := by
  induction tools generalizing pass s with
  | nil =>
    cases h
    exact .inl ⟨rfl, by simp⟩
  | cons interrupted tools ih =>
    obtain ⟨call, status⟩ := interrupted
    rw [run_cons] at h
    obtain ⟨middle, first, behind⟩ := bind_eq_ok_iff.mp h
    have later : ∀ interrupted ∈ tools, interrupted.1.status.isSettled = false :=
      fun other member => unsettled other (List.mem_cons_of_mem _ member)
    rcases settleToolCall_cases live (unsettled _ List.mem_cons_self) first with
      ⟨rfl, left⟩ | ⟨advanced, due⟩
    · rcases ih live found later behind with ⟨same, all⟩ | ⟨advanced, other, member, due⟩
      · refine .inl ⟨same, fun other member => ?_⟩
        rcases List.mem_cons.mp member with rfl | later
        · exact left
        · exact all other later
      · refine .inr ⟨⟨advanced.live, advanced.others, fun s found => ?_⟩, other,
          List.mem_cons_of_mem _ member, due⟩
        obtain ⟨t, final, settled⟩ := advanced.changed s found
        refine ⟨t, final, settled.grown, settled.attempts, fun c member => ?_⟩
        rcases settled.settled c member with done | ⟨kept, pending⟩
        · exact .inl done
        · refine .inr ⟨kept, fun status listed => ?_⟩
          rcases List.mem_cons.mp listed with same | later
          · cases same
            exact left
          · exact pending status later
    · refine .inr ⟨?_, _, List.mem_cons_self, due⟩
      obtain ⟨m, middleFound, -⟩ := advanced.changed s found
      have exact_ : ∀ s, pass.engine.inner.session sessionId = some s → IndexesExact s :=
        fun s found => (rehydrate_represented (live.rehydrate found)).indexes
      rcases ih advanced.live middleFound later behind with ⟨same, all⟩ | ⟨behind, -⟩
      · subst same
        refine ⟨advanced.live, advanced.others, fun s found => ?_⟩
        obtain ⟨t, final, settled⟩ := advanced.changed s found
        exact ⟨t, final, settled.then (exact_ s found) le_rfl rfl fun c member =>
          .inr ⟨member, fun status listed => all _ listed⟩⟩
      · refine advanced.trans behind fun s m t found _ first rest => ?_
        exact first.then (exact_ s found) rest.grown.le rest.attempts rest.settled

end Calls

section Attempts

/-- The attempt waits for a dispatch with a turn that is bound at the very end of the log. -/
def ExactPending (reads : RecoveryReads A) (sessionId : SessionId) (s : SessionAggregate)
    (a : AttemptProjection) : Prop :=
  a.isProviderDispatchReady = true ∧
    ∃ turn, loadExactPendingContextTurn reads s sessionId a.attemptId = .ok (some turn)

/-- What the pass leaves as it is. -/
def LeftWaiting (reads : RecoveryReads A) (sessionId : SessionId) (s : SessionAggregate)
    (a : AttemptProjection) : Prop :=
  a.status = .awaitingTools ∨ ExactPending reads sessionId s a

theorem ExactPending.adjacent {a : AttemptProjection} (indexes : IndexesExact s)
    (member : a ∈ s.attempts) (h : ExactPending reads sessionId s a) :
    a.status = .inFlight ∧ ∃ binding, a.pendingContextTurn = some binding ∧
      s.lastSequence = some binding.boundSequence := by
  obtain ⟨ready, turn, loaded⟩ := h
  have found : s.attempt a.attemptId = some a :=
    indexes.attempts.find?_eq_some_iff.mpr ⟨member, rfl⟩
  have flight : a.status = .inFlight := by
    simp only [AttemptProjection.isProviderDispatchReady, Bool.and_eq_true, beq_iff_eq] at ready
    exact ready.1
  refine ⟨flight, ?_⟩
  unfold loadExactPendingContextTurn at loaded
  rw [found] at loaded
  simp only [ready, Bool.not_true, Bool.false_eq_true, ↓reduceIte] at loaded
  cases pending : a.pendingContextTurn with
  | none =>
    rw [pending] at loaded
    cases loaded
  | some binding =>
    rw [pending] at loaded
    simp only at loaded
    by_cases adjacent : s.lastSequence = some binding.boundSequence
    · exact ⟨binding, rfl, adjacent⟩
    · rw [if_pos adjacent] at loaded
      cases loaded

variable {pass after : RecoveryPass S M}

theorem session_eq_ok (found : pass.engine.inner.session sessionId = some s) :
    pass.session sessionId = .ok s := by
  simp [RecoveryPass.session, found]

theorem settleAttempt_cases {a : AttemptProjection} (live : Live pass.engine.inner)
    (found : pass.engine.inner.session sessionId = some s) (unsettled : a.status.isSettled = false)
    (h : RecoveryPass.settleAttempt reads ids sessionId pass a = .ok after) :
    (after = pass ∧ LeftWaiting reads sessionId s a) ∨
      (Advances sessionId (AttemptSettled a.attemptId) pass.engine.inner after.engine.inner ∧
        ¬ LeftWaiting reads sessionId s a) := by
  have failed : pass.failBeforeDispatch ids sessionId a.attemptId = .ok after →
      Advances sessionId (AttemptSettled a.attemptId) pass.engine.inner after.engine.inner := by
    intro executed
    have kind : (CommandPayload.failAttempt sessionId a.attemptId
      interruptedBeforeDispatch).settlement = some (.attemptFailed a.attemptId _) := rfl
    unfold RecoveryPass.failBeforeDispatch at executed
    have moved := RecoveryPass.execute_advances (by exact live) kind executed
    exact moved
  have unknown : pass.markUnknown ids sessionId a.attemptId = .ok after →
      Advances sessionId (AttemptSettled a.attemptId) pass.engine.inner after.engine.inner := by
    intro executed
    have kind : (CommandPayload.markAttemptUnknown sessionId a.attemptId).settlement =
      some (.attemptMarkedUnknown a.attemptId) := rfl
    unfold RecoveryPass.markUnknown at executed
    have moved := RecoveryPass.execute_advances (by exact live) kind executed
    exact moved
  unfold RecoveryPass.settleAttempt at h
  obtain ⟨isExact, checked, h⟩ := bind_eq_ok_iff.mp h
  have meaning : isExact = true ↔ ExactPending reads sessionId s a := by
    unfold RecoveryPass.exactPendingContext at checked
    by_cases ready : a.isProviderDispatchReady = true
    · rw [if_pos ready, session_eq_ok found] at checked
      obtain ⟨_, same, checked⟩ := bind_eq_ok_iff.mp checked
      cases same
      obtain ⟨turn, loaded, checked⟩ := bind_eq_ok_iff.mp checked
      cases checked
      unfold ExactPending
      rw [loaded]
      cases turn with
      | none => simp
      | some turn => simp [ready]
    · rw [if_neg ready] at checked
      cases checked
      simp [ExactPending, ready]
  cases current : a.status with
  | prepared =>
    rw [current] at h
    refine .inr ⟨failed h, ?_⟩
    rintro (waiting | ⟨ready, -⟩)
    · simp [current] at waiting
    · simp [AttemptProjection.isProviderDispatchReady, current] at ready
  | inFlight =>
    rw [current] at h
    simp only at h
    by_cases preserved : isExact = true
    · rw [if_pos preserved] at h
      cases h
      exact .inl ⟨rfl, .inr (meaning.mp preserved)⟩
    · rw [if_neg preserved] at h
      have due : ¬ LeftWaiting reads sessionId s a := by
        rintro (waiting | pending)
        · simp [current] at waiting
        · exact preserved (meaning.mpr pending)
      split at h
      · exact .inr ⟨failed h, due⟩
      · exact .inr ⟨unknown h, due⟩
  | cancellationRequested =>
    rw [current] at h
    simp only at h
    have due : ¬ LeftWaiting reads sessionId s a := by
      rintro (waiting | ⟨ready, -⟩)
      · simp [current] at waiting
      · simp [AttemptProjection.isProviderDispatchReady, current] at ready
    split at h
    · exact .inr ⟨failed h, due⟩
    · exact .inr ⟨unknown h, due⟩
  | awaitingTools =>
    rw [current] at h
    cases h
    exact .inl ⟨rfl, .inl current⟩
  | completed | failed | cancelled | unknown =>
    rw [current] at unsettled
    cases unsettled

/-- The listed attempts have been settled, but for those that await their tools. -/
structure AttemptsSettled (entries : List AttemptProjection) (s t : SessionAggregate) : Prop where
  grown : s.lastSequenceValue < t.lastSequenceValue
  toolCalls : t.toolCalls = s.toolCalls
  settled : ∀ b ∈ t.attempts, b.status.isSettled = true ∨
    (b ∈ s.attempts ∧ (b ∈ entries → b.status = .awaitingTools))
  kept : ∀ a ∈ s.attempts, a ∈ t.attempts ∨ (a.attemptId ∈ entries.map AttemptProjection.attemptId ∧
    ∃ b ∈ t.attempts, b.attemptId = a.attemptId ∧ b.status.isSettled = true)

theorem AttemptSettled.then {a : AttemptProjection} {entries : List AttemptProjection}
    {m : SessionAggregate} (indexes : IndexesExact s) (first : AttemptSettled a.attemptId s m)
    (grown : m.lastSequenceValue ≤ t.lastSequenceValue) (toolCalls : t.toolCalls = m.toolCalls)
    (rest : ∀ b ∈ t.attempts, b.status.isSettled = true ∨
      (b ∈ m.attempts ∧ (b ∈ entries → b.status = .awaitingTools)))
    (kept : ∀ b ∈ m.attempts, b ∈ t.attempts ∨
      (b.attemptId ∈ entries.map AttemptProjection.attemptId ∧
        ∃ c ∈ t.attempts, c.attemptId = b.attemptId ∧ c.status.isSettled = true)) :
    AttemptsSettled (a :: entries) s t := by
  obtain ⟨i, old, new, here, owner, named, done, set⟩ := first.attempts
  have moved := first.moved
  have present : new ∈ m.attempts := by
    rw [set]
    exact List.mem_set (List.getElem?_eq_some_iff.mp here).1 new
  refine ⟨by omega, toolCalls.trans first.toolCalls, fun b member => ?_, fun b member => ?_⟩
  · rcases rest b member with settled | ⟨there, waiting⟩
    · exact .inl settled
    · rw [set] at there
      rcases mem_set_cases there with rfl | ⟨j, apart, there⟩
      · exact .inl done
      · refine .inr ⟨List.mem_of_getElem? there, fun listed => ?_⟩
        rcases List.mem_cons.mp listed with rfl | later
        · exact absurd (indexes.attempts.position_unique there here owner.symm) apart
        · exact waiting later
  · obtain ⟨j, there⟩ := List.mem_iff_getElem?.mp member
    by_cases same : j = i
    · subst same
      cases Option.some.inj (here.symm.trans there)
      refine .inr ⟨by simp [owner], ?_⟩
      rcases kept new present with final | ⟨-, c, final, name, settled⟩
      · exact ⟨new, final, named.trans owner.symm, done⟩
      · exact ⟨c, final, name.trans (named.trans owner.symm), settled⟩
    · have still : b ∈ m.attempts := by
        rw [set]
        apply List.mem_of_getElem?
        rw [List.getElem?_set_ne (Ne.symm same)]
        exact there
      rcases kept b still with final | ⟨listed, c, final, name, settled⟩
      · exact .inl final
      · exact .inr ⟨List.mem_cons_of_mem _ listed, c, final, name, settled⟩

/-- The log has moved on since the turn of the attempt was bound. -/
def Stale (s : SessionAggregate) (a : AttemptProjection) : Prop :=
  ∀ binding, a.pendingContextTurn = some binding →
    binding.boundSequence.get < s.lastSequenceValue

theorem Stale.not_exact {a : AttemptProjection} (indexes : IndexesExact s)
    (member : a ∈ s.attempts) (h : Stale s a) : ¬ ExactPending reads sessionId s a := by
  intro pending
  obtain ⟨-, binding, found, adjacent⟩ := pending.adjacent indexes member
  have behind := h binding found
  simp [SessionAggregate.lastSequenceValue, adjacent] at behind

theorem AttemptSettled.mem_of_ne {id : AttemptId} {a : AttemptProjection}
    (first : AttemptSettled id s t) (member : a ∈ s.attempts) (apart : a.attemptId ≠ id) :
    a ∈ t.attempts := by
  obtain ⟨i, old, new, here, owner, -, -, set⟩ := first.attempts
  obtain ⟨j, there⟩ := List.mem_iff_getElem?.mp member
  rw [set]
  apply List.mem_of_getElem?
  rw [List.getElem?_set_ne]
  · exact there
  · rintro rfl
    cases Option.some.inj (here.symm.trans there)
    exact apart owner

/-- The first attempt has been settled, and then the rest of the list. -/
theorem Advances.attempts_then {a : AttemptProjection} {entries : List AttemptProjection}
    {middle : RecoveryPass S M} (live : Live pass.engine.inner)
    (first : Advances sessionId (AttemptSettled a.attemptId) pass.engine.inner
      middle.engine.inner)
    (rest : (after = middle ∧ ∀ b ∈ entries, b.status = .awaitingTools) ∨
      Advances sessionId (AttemptsSettled entries) middle.engine.inner after.engine.inner) :
    Advances sessionId (AttemptsSettled (a :: entries)) pass.engine.inner after.engine.inner := by
  have indexes : ∀ s, pass.engine.inner.session sessionId = some s → IndexesExact s :=
    fun s found => (rehydrate_represented (live.rehydrate found)).indexes
  rcases rest with ⟨rfl, all⟩ | behind
  · refine ⟨first.live, first.others, fun s found => ?_⟩
    obtain ⟨t, final, settled⟩ := first.changed s found
    exact ⟨t, final, settled.then (indexes s found) le_rfl rfl
      (fun b member => .inr ⟨member, all b⟩) fun b member => .inl member⟩
  · refine first.trans behind fun s m t found _ settled rest => ?_
    exact settled.then (indexes s found) rest.grown.le rest.toolCalls rest.settled rest.kept

/-- Once the log has moved past the bindings, the pass settles whatever does not await tools. -/
theorem attempts_stale {entries : List AttemptProjection} (live : Live pass.engine.inner)
    (found : pass.engine.inner.session sessionId = some s)
    (members : ∀ a ∈ entries, a ∈ s.attempts)
    (unsettled : ∀ a ∈ entries, a.status.isSettled = false)
    (distinct : (entries.map AttemptProjection.attemptId).Nodup)
    (behind : ∀ a ∈ entries, Stale s a)
    (h : run (RecoveryPass.settleAttempt reads ids sessionId) pass entries = .ok after) :
    (after = pass ∧ ∀ a ∈ entries, a.status = .awaitingTools) ∨
      Advances sessionId (AttemptsSettled entries) pass.engine.inner after.engine.inner := by
  induction entries generalizing pass s with
  | nil =>
    cases h
    exact .inl ⟨rfl, by simp⟩
  | cons a entries ih =>
    rw [run_cons] at h
    obtain ⟨middle, first, later⟩ := bind_eq_ok_iff.mp h
    have indexes := (rehydrate_represented (live.rehydrate found)).indexes
    have apart : ∀ b ∈ entries, b.attemptId ≠ a.attemptId := by
      intro b member same
      exact (List.nodup_cons.mp distinct).1 (List.mem_map.mpr ⟨b, member, same⟩)
    have stale : ¬ ExactPending reads sessionId s a :=
      (behind a List.mem_cons_self).not_exact indexes (members a List.mem_cons_self)
    have restDistinct := (List.nodup_cons.mp distinct).2
    have restUnsettled : ∀ b ∈ entries, b.status.isSettled = false := fun b member =>
      unsettled b (List.mem_cons_of_mem _ member)
    rcases settleAttempt_cases live found (unsettled a List.mem_cons_self) first with
      ⟨rfl, waiting | pending⟩ | ⟨advanced, -⟩
    · rcases ih live found (fun b member => members b (List.mem_cons_of_mem _ member))
        restUnsettled restDistinct (fun b member => behind b (List.mem_cons_of_mem _ member))
        later with ⟨same, all⟩ | advanced
      · refine .inl ⟨same, fun b member => ?_⟩
        rcases List.mem_cons.mp member with rfl | listed
        · exact waiting
        · exact all b listed
      · refine .inr ⟨advanced.live, advanced.others, fun s found => ?_⟩
        obtain ⟨t, final, settled⟩ := advanced.changed s found
        refine ⟨t, final, settled.grown, settled.toolCalls, fun b member => ?_, fun b member => ?_⟩
        · rcases settled.settled b member with done | ⟨kept, awaiting⟩
          · exact .inl done
          · refine .inr ⟨kept, fun listed => ?_⟩
            rcases List.mem_cons.mp listed with rfl | listed
            · exact waiting
            · exact awaiting listed
        · rcases settled.kept b member with kept | ⟨listed, replaced⟩
          · exact .inl kept
          · exact .inr ⟨List.mem_cons_of_mem _ listed, replaced⟩
    · exact absurd pending stale
    · obtain ⟨m, middleFound, settled⟩ := advanced.changed s found
      have moved := settled.moved
      have restMembers : ∀ b ∈ entries, b ∈ m.attempts := fun b member =>
        settled.mem_of_ne (members b (List.mem_cons_of_mem _ member)) (apart b member)
      have restBehind : ∀ b ∈ entries, Stale m b := by
        intro b member binding pending
        have before := behind b (List.mem_cons_of_mem _ member) binding pending
        omega
      exact .inr (advanced.attempts_then live
        (ih advanced.live middleFound restMembers restUnsettled restDistinct restBehind later))

/-- Attempts are left alone up to the first one that has to be settled; from there on all are. -/
theorem attempts_outcome {entries : List AttemptProjection} (live : Live pass.engine.inner)
    (found : pass.engine.inner.session sessionId = some s)
    (members : ∀ a ∈ entries, a ∈ s.attempts)
    (unsettled : ∀ a ∈ entries, a.status.isSettled = false)
    (distinct : (entries.map AttemptProjection.attemptId).Nodup)
    (bounded : ∀ a ∈ entries, ∀ binding, a.pendingContextTurn = some binding →
      binding.boundSequence.get ≤ s.lastSequenceValue)
    (h : run (RecoveryPass.settleAttempt reads ids sessionId) pass entries = .ok after) :
    (after = pass ∧ ∀ a ∈ entries, LeftWaiting reads sessionId s a) ∨
      ∃ before due rest, entries = before ++ due :: rest ∧
        (∀ a ∈ before, LeftWaiting reads sessionId s a) ∧ ¬ LeftWaiting reads sessionId s due ∧
        Advances sessionId (AttemptsSettled (due :: rest)) pass.engine.inner
          after.engine.inner := by
  induction entries generalizing pass with
  | nil =>
    cases h
    exact .inl ⟨rfl, by simp⟩
  | cons a entries ih =>
    rw [run_cons] at h
    obtain ⟨middle, first, later⟩ := bind_eq_ok_iff.mp h
    have restDistinct := (List.nodup_cons.mp distinct).2
    have restUnsettled : ∀ b ∈ entries, b.status.isSettled = false := fun b member =>
      unsettled b (List.mem_cons_of_mem _ member)
    rcases settleAttempt_cases live found (unsettled a List.mem_cons_self) first with
      ⟨rfl, left⟩ | ⟨advanced, due⟩
    · rcases ih live found (fun b member => members b (List.mem_cons_of_mem _ member))
        restUnsettled restDistinct (fun b member => bounded b (List.mem_cons_of_mem _ member))
        later with ⟨same, all⟩ | ⟨before, due, rest, split, all, due', advanced⟩
      · refine .inl ⟨same, fun b member => ?_⟩
        rcases List.mem_cons.mp member with rfl | listed
        · exact left
        · exact all b listed
      · refine .inr ⟨a :: before, due, rest, by rw [split]; rfl, fun b member => ?_, due',
          advanced⟩
        rcases List.mem_cons.mp member with rfl | listed
        · exact left
        · exact all b listed
    · refine .inr ⟨[], a, entries, rfl, by simp, due, ?_⟩
      have apart : ∀ b ∈ entries, b.attemptId ≠ a.attemptId := by
        intro b member same
        exact (List.nodup_cons.mp distinct).1 (List.mem_map.mpr ⟨b, member, same⟩)
      obtain ⟨m, middleFound, settled⟩ := advanced.changed s found
      have moved := settled.moved
      have restMembers : ∀ b ∈ entries, b ∈ m.attempts := fun b member =>
        settled.mem_of_ne (members b (List.mem_cons_of_mem _ member)) (apart b member)
      have restBehind : ∀ b ∈ entries, Stale m b := by
        intro b member binding pending
        have before := bounded b (List.mem_cons_of_mem _ member) binding pending
        omega
      exact advanced.attempts_then live (attempts_stale advanced.live middleFound restMembers
        restUnsettled restDistinct restBehind later)

end Attempts

end AutoHarness
