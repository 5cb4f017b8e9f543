import AutoHarness.AggregateRepresentation

namespace AutoHarness

open IndexedList

variable {s t : SessionAggregate} {event : EventEnvelope}

theorem attemptStatus_unsettled_of_mem {status : AttemptStatus} {allowed : List AttemptStatus}
    (h : status ∈ allowed) (all : allowed.all fun x => !x.isSettled) :
    status.isSettled = false := by
  simpa using List.all_eq_true.mp all status h

theorem toolCallStatus_unsettled_of_mem {status : ToolCallStatus} {allowed : List ToolCallStatus}
    (h : status ∈ allowed) (all : allowed.all fun x => !x.isSettled) :
    status.isSettled = false := by
  simpa using List.all_eq_true.mp all status h

/-- No event is accepted for a settled attempt. -/
theorem AttemptChange.unsettled {id : AttemptId} {a b : AttemptProjection}
    (h : AttemptChange s event id a b) : a.status.isSettled = false := by
  cases h with
  | started _ hs | textAppended _ hs | usageRecorded _ hs | cancellationRequested _ hs
  | completed _ _ hs | failed _ _ hs | cancelled _ _ hs | markedUnknown _ _ hs
  | budgetConfigured _ _ hs | contextBound _ _ _ hs | turnStarted _ hs | paused _ hs
  | resumed _ _ hs => exact attemptStatus_unsettled_of_mem hs rfl

/-- No event is accepted for a settled tool call. -/
theorem ToolCallChange.unsettled {id : ToolCallId} {c d : ToolCallProjection}
    (h : ToolCallChange s event id c d) : c.status.isSettled = false := by
  cases h with
  | recorded _ hs | answered _ hs | started _ hs | completed _ hs | failed _ hs | denied _ hs
  | cancelled _ hs | markedUnknown _ hs => exact toolCallStatus_unsettled_of_mem hs rfl

/-- The events that settle an attempt demand that its calls are settled. -/
theorem AttemptChange.settled_calls {id : AttemptId} {a b : AttemptProjection}
    (h : AttemptChange s event id a b) (settled : b.status.isSettled = true) :
    s.hasUnsettledToolCall id = false := by
  have before := h.unsettled
  cases h with
  | completed _ hu | failed _ hu | cancelled _ hu | markedUnknown _ hu => exact hu
  | started | cancellationRequested | paused | resumed => cases settled
  | textAppended | usageRecorded | budgetConfigured | contextBound | turnStarted =>
    cases before.symm.trans settled

/-- Calls of a settled attempt are settled. -/
def SettledQuiet (s : SessionAggregate) : Prop :=
  ∀ a ∈ s.attempts, a.status.isSettled = true →
    ∀ c ∈ s.toolCalls, c.attemptId = a.attemptId → c.status.isSettled = true

theorem settledQuiet_step (hi : IndexesExact s) (h : SettledQuiet s)
    (step : SessionStep s event t) : SettledQuiet t := by
  cases step with
  | header change => cases change <;> exact h
  | inputAdmitted => exact h
  | attemptPrepared | retryPrepared =>
    intro a ha settled
    rcases List.mem_append.mp ha with ha | ha
    · exact h a ha settled
    · cases List.mem_singleton.mp ha
      cases settled
  | @attemptChanged id i old new _ hid hold change ht =>
    subst ht
    intro a ha settled
    rcases mem_set_cases ha with rfl | ⟨j, -, hj⟩
    · have key : a.attemptId = id :=
        (congrArg AttemptOrigin.attemptId change.origin_eq).trans
          (hi.attempts.find?_key (attempt_of_lookup hid hold))
      rw [key]
      exact hasUnsettledToolCall_eq_false_iff.mp (change.settled_calls settled)
    · exact h a (List.mem_of_getElem? hj) settled
  | @toolCallProposed attemptId call b _ _ _ hb inFlight =>
    intro a ha settled c hc owner
    rcases List.mem_append.mp hc with hc | hc
    · exact h a ha settled c hc owner
    · -- the only attempt with this identity is the one in flight
      cases List.mem_singleton.mp hc
      have found := hi.attempts.find?_eq_some_iff.mpr ⟨ha, owner.symm⟩
      cases Option.some.inj (found.symm.trans hb)
      rw [inFlight] at settled
      cases settled
  | @toolCallChanged id i old new _ hold change =>
    intro a ha settled c hc owner
    rcases mem_set_cases hc with rfl | ⟨j, -, hj⟩
    · have quiet := h a ha settled old (List.mem_of_getElem? hold)
        (change.identity_eq.1.symm.trans owner)
      cases change.unsettled.symm.trans quiet
    · exact h a ha settled c (List.mem_of_getElem? hj) owner

/-- Exactly the completed attempts carry the sequence of their completion. -/
def CompletedStamped (s : SessionAggregate) : Prop :=
  ∀ a ∈ s.attempts, a.completedSequence.isSome = true ↔ a.status = .completed

theorem AttemptChange.stamped {id : AttemptId} {a b : AttemptProjection}
    (h : AttemptChange s event id a b)
    (stamped : a.completedSequence.isSome = true ↔ a.status = .completed) :
    b.completedSequence.isSome = true ↔ b.status = .completed := by
  have open_ : a.completedSequence.isSome = false := by
    have unsettled := h.unsettled
    rw [← Bool.not_eq_true, stamped]
    intro hc
    rw [hc] at unsettled
    cases unsettled
  cases h with
  | completed => simp
  | textAppended | usageRecorded | budgetConfigured | contextBound | turnStarted => exact stamped
  | started | cancellationRequested | failed | cancelled | markedUnknown | paused | resumed =>
    simp [open_]

theorem completedStamped_step (h : CompletedStamped s) (step : SessionStep s event t) :
    CompletedStamped t := by
  cases step with
  | header change => cases change <;> exact h
  | inputAdmitted | toolCallProposed | toolCallChanged => exact h
  | attemptPrepared | retryPrepared =>
    intro a ha
    rcases List.mem_append.mp ha with ha | ha
    · exact h a ha
    · cases List.mem_singleton.mp ha
      simp [AttemptProjection.prepared]
  | attemptChanged _ hold change ht =>
    subst ht
    intro a ha
    rcases mem_set_cases ha with rfl | ⟨j, -, hj⟩
    · exact change.stamped (h _ (List.mem_of_getElem? hold))
    · exact h a (List.mem_of_getElem? hj)

/-- Nothing of a settled attempt or a settled call differs between the two states. -/
structure SettledKept (s t : SessionAggregate) : Prop where
  attempts : ∀ (i : Nat) (a : AttemptProjection), s.attempts[i]? = some a →
    a.status.isSettled = true → t.attempts[i]? = some a
  toolCalls : ∀ (i : Nat) (c : ToolCallProjection), s.toolCalls[i]? = some c →
    c.status.isSettled = true → t.toolCalls[i]? = some c
  owned : ∀ (i : Nat) (a : AttemptProjection), s.attempts[i]? = some a →
    a.status.isSettled = true →
    t.toolCalls.filter (fun c => c.attemptId == a.attemptId) =
      s.toolCalls.filter (fun c => c.attemptId == a.attemptId)

theorem settledKept_of_eq (attempts : t.attempts = s.attempts)
    (toolCalls : t.toolCalls = s.toolCalls) : SettledKept s t := by
  refine ⟨fun i a ha _ => ?_, fun i c hc _ => ?_, fun _ _ _ _ => ?_⟩
  · rw [attempts]; exact ha
  · rw [toolCalls]; exact hc
  · rw [toolCalls]

theorem SettledKept.trans {r : SessionAggregate} (hrs : SettledKept r s)
    (hst : SettledKept s t) : SettledKept r t where
  attempts i a ha settled := hst.attempts i a (hrs.attempts i a ha settled) settled
  toolCalls i c hc settled := hst.toolCalls i c (hrs.toolCalls i c hc settled) settled
  owned i a ha settled :=
    (hst.owned i a (hrs.attempts i a ha settled) settled).trans (hrs.owned i a ha settled)

theorem settledKept_step (hi : IndexesExact s) (hq : SettledQuiet s)
    (step : SessionStep s event t) : SettledKept s t := by
  cases step with
  | header change => cases change <;> exact settledKept_of_eq rfl rfl
  | inputAdmitted => exact settledKept_of_eq rfl rfl
  | attemptPrepared | retryPrepared =>
    exact ⟨fun _ _ ha _ => getElem?_concat_of_some ha, fun _ _ h _ => h, fun _ _ _ _ => rfl⟩
  | @attemptChanged id i old new _ hid hold change ht =>
    subst ht
    refine ⟨fun j a ha settled => ?_, fun _ _ h _ => h, fun _ _ _ _ => rfl⟩
    have different : i ≠ j := by
      rintro rfl
      cases Option.some.inj (hold.symm.trans ha)
      cases change.unsettled.symm.trans settled
    exact (List.getElem?_set_ne different).trans ha
  | @toolCallProposed attemptId call b _ _ fresh hb inFlight =>
    refine ⟨fun _ _ h _ => h, fun _ _ hc _ => getElem?_concat_of_some hc, fun j a ha settled => ?_⟩
    have different : attemptId ≠ a.attemptId := by
      intro same
      have found := hi.attempts.find?_eq_some_iff.mpr ⟨List.mem_of_getElem? ha, same.symm⟩
      cases Option.some.inj (found.symm.trans hb)
      rw [inFlight] at settled
      cases settled
    simp [ToolCallProjection.proposed, different]
  | @toolCallChanged id i old new hid hold change =>
    refine ⟨fun _ _ h _ => h, fun j c hc settled => ?_, fun j a ha settled => ?_⟩
    · have different : i ≠ j := by
        rintro rfl
        cases Option.some.inj (hold.symm.trans hc)
        cases change.unsettled.symm.trans settled
      exact (List.getElem?_set_ne different).trans hc
    · -- the changed call is open, so a settled attempt cannot own it
      have foreign : old.attemptId ≠ a.attemptId := by
        intro owner
        have quiet := hq a (List.mem_of_getElem? ha) settled old (List.mem_of_getElem? hold) owner
        cases change.unsettled.symm.trans quiet
      refine filter_set_of_false hold (by simpa using foreign) ?_
      simpa [change.identity_eq.1] using foreign

/-- The settlement invariants of one session state. -/
structure Settlement (s : SessionAggregate) : Prop where
  indexes : IndexesExact s
  quiet : SettledQuiet s
  stamped : CompletedStamped s

theorem settlement_empty (sessionId : SessionId) : Settlement (.empty sessionId) where
  indexes := (represented_empty sessionId).indexes
  quiet := by intro a ha; simp [SessionAggregate.empty] at ha
  stamped := by intro a ha; simp [SessionAggregate.empty] at ha

theorem settlement_applyOne (h : Settlement s) (step : s.applyOne event = .ok t) :
    Settlement t ∧ SettledKept s t := by
  obtain ⟨-, u, hu, rfl⟩ := applyOne_eq_ok_iff.mp step
  have indexes := indexesExact_step h.indexes hu
  have quiet := settledQuiet_step h.indexes h.quiet hu
  have stamped := completedStamped_step h.stamped hu
  have kept := settledKept_step h.indexes h.quiet hu
  exact ⟨⟨⟨indexes.attempts, indexes.toolCalls⟩, quiet, stamped⟩,
    ⟨kept.attempts, kept.toolCalls, kept.owned⟩⟩

theorem settlement_run {events : List EventEnvelope} (h : Settlement s)
    (accepted : s.applyUncommittedBatch events = .ok t) : Settlement t ∧ SettledKept s t := by
  refine FallibleRun.run_invariant (P := fun m => Settlement m ∧ SettledKept s m)
    ⟨h, settledKept_of_eq rfl rfl⟩ (fun m event u hm step => ?_) accepted
  obtain ⟨after, kept⟩ := settlement_applyOne hm.1 step
  exact ⟨after, hm.2.trans kept⟩

/-- Every prefix of an accepted log leaves settled attempts without open calls, and the rest of
the log changes neither a settled attempt, nor its calls, nor any settled call. -/
theorem rehydrate_settlement_final {sessionId : SessionId} {before after : List EventEnvelope}
    (h : SessionAggregate.rehydrate sessionId (before ++ after) = .ok t) :
    ∃ s, SessionAggregate.rehydrate sessionId before = .ok s ∧
      (∀ a ∈ s.attempts, a.status.isSettled = true →
        ∀ c ∈ s.toolCalls, c.attemptId = a.attemptId → c.status.isSettled = true) ∧
      (∀ (i : Nat) (a : AttemptProjection), s.attempts[i]? = some a →
        a.status.isSettled = true → t.attempts[i]? = some a ∧
          t.toolCalls.filter (fun c => c.attemptId == a.attemptId) =
            s.toolCalls.filter (fun c => c.attemptId == a.attemptId)) ∧
      (∀ (i : Nat) (c : ToolCallProjection), s.toolCalls[i]? = some c →
        c.status.isSettled = true → t.toolCalls[i]? = some c) ∧
      (∀ a ∈ s.attempts, (∃ sequence, a.completedSequence = some sequence) ↔
        a.status = .completed) := by
  obtain ⟨s, hs, ht⟩ := FallibleRun.run_append_ok_iff.mp h
  have settlement := (settlement_run (settlement_empty sessionId) hs).1
  have kept := (settlement_run settlement ht).2
  refine ⟨s, hs, settlement.quiet, fun i a ha settled => ?_, kept.toolCalls, fun a ha => ?_⟩
  · exact ⟨kept.attempts i a ha settled, kept.owned i a ha settled⟩
  · rw [← settlement.stamped a ha, Option.isSome_iff_exists]

def settledPayloads : List EventPayload :=
  samplePayloads ++ [.toolCallCancelled sampleCall.toolCallId, .attemptMarkedUnknown sampleAttempt]

def settledLog : List EventEnvelope := sampleEvents .first settledPayloads

/-- The settled sample attempt is followed by a further selection of the model. -/
def settledThenSelected : List EventEnvelope :=
  sampleEvents .first (settledPayloads ++ [.modelSelected sampleModel])

theorem settledThenSelected_accepted : ∃ t, SessionAggregate.rehydrate sampleSession
    (settledLog ++ settledThenSelected.drop 8) = .ok t :=
  ⟨_, rfl⟩

theorem rehydrate_settlement_final_sample :
    ∃ s t, SessionAggregate.rehydrate sampleSession settledLog = .ok s ∧
      SessionAggregate.rehydrate sampleSession (settledLog ++ settledThenSelected.drop 8) = .ok t ∧
      ∀ (i : Nat) (a : AttemptProjection), s.attempts[i]? = some a →
        a.status.isSettled = true → t.attempts[i]? = some a := by
  obtain ⟨t, ht⟩ := settledThenSelected_accepted
  obtain ⟨s, hs, -, kept, -⟩ := rehydrate_settlement_final ht
  exact ⟨s, t, hs, ht, fun i a ha settled => (kept i a ha settled).1⟩

end AutoHarness
