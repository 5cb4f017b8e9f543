import AutoHarness.ListStore
import AutoHarness.RecoveryOutcome

namespace AutoHarness

open FallibleRun IndexedList Interleaving

variable {A S M : Type} [DecidableEq A] [SessionStore S] [EventMetadataSource M]
  {reads : RecoveryReads A} {parseUrl : String → Option Url} {ids : CommandIds}
  {s t : SessionAggregate} {sessionId : SessionId} {pass after : RecoveryPass S M}

/-- The pass settles the call. -/
def DueCall (s : SessionAggregate) (c : ToolCallProjection) : Prop :=
  c.status.isSettled = false ∧ ∃ a, s.attempt c.attemptId = some a ∧ ¬ LeftPending (c, a.status)

/-- The pass settles the attempt, if it meets the session as it is. -/
def DueAttempt (reads : RecoveryReads A) (sessionId : SessionId) (s : SessionAggregate)
    (a : AttemptProjection) : Prop :=
  a.status.isSettled = false ∧ ¬ LeftWaiting reads sessionId s a

/-- No tool call is due, and before the first attempt that is due there is one with an exact
pending turn. -/
def PreservedTooEarly (reads : RecoveryReads A) (sessionId : SessionId)
    (s : SessionAggregate) : Prop :=
  (∀ c ∈ s.toolCalls, ¬ DueCall s c) ∧
    ∃ before due rest, s.attempts = before ++ due :: rest ∧
      (∀ a ∈ before, ¬ DueAttempt reads sessionId s a) ∧ DueAttempt reads sessionId s due ∧
      ∃ a ∈ before, ExactPending reads sessionId s a

/-- There is nothing to settle in the session. -/
structure QuietSession (reads : RecoveryReads A) (sessionId : SessionId)
    (s : SessionAggregate) : Prop where
  calls : ∀ c ∈ s.toolCalls, c.status.isSettled = true ∨
    ∃ a, s.attempt c.attemptId = some a ∧ LeftPending (c, a.status)
  attempts : ∀ a ∈ s.attempts, a.status.isSettled = true ∨ LeftWaiting reads sessionId s a

theorem interruptedTools_mem {tools : List (ToolCallProjection × AttemptStatus)}
    (h : RecoveryPass.interruptedTools s = .ok tools) :
    (∀ c status, (c, status) ∈ tools → c ∈ s.toolCalls ∧ c.status.isSettled = false ∧
      ∃ a, s.attempt c.attemptId = some a ∧ a.status = status) ∧
    ∀ c ∈ s.toolCalls, c.status.isSettled = false →
      ∃ a, s.attempt c.attemptId = some a ∧ (c, a.status) ∈ tools := by
  obtain ⟨back, forth⟩ := mapM_mem h
  constructor
  · intro c status member
    obtain ⟨x, listed, mapped⟩ := back _ member
    simp only [List.mem_filter, Bool.not_eq_true'] at listed
    cases found : s.attempt x.attemptId with
    | none => simp [found] at mapped
    | some a =>
      simp only [found, Except.ok.injEq, Prod.mk.injEq] at mapped
      obtain ⟨rfl, rfl⟩ := mapped
      exact ⟨listed.1, listed.2, a, found, rfl⟩
  · intro c member unsettled
    obtain ⟨y, listed, mapped⟩ := forth c (by simp [member, unsettled])
    cases found : s.attempt c.attemptId with
    | none => simp [found] at mapped
    | some a =>
      simp only [found, Except.ok.injEq] at mapped
      subst mapped
      exact ⟨a, rfl, listed⟩

/-- A session with nothing to settle is left as it is. -/
theorem reconcileSession_quiet (live : Live pass.engine.inner)
    (found : pass.engine.inner.session sessionId = some s)
    (quiet : QuietSession reads sessionId s) :
    RecoveryPass.reconcileSession reads parseUrl ids pass sessionId = .ok pass := by
  have indexes := (rehydrate_represented (live.rehydrate found)).indexes
  have known := session_eq_ok found
  have listed : ∃ tools, RecoveryPass.interruptedTools s = .ok tools := by
    unfold RecoveryPass.interruptedTools
    refine (mapM_ok ?_).imp fun tools mapped => mapped.1
    intro c member
    simp only [List.mem_filter, Bool.not_eq_true'] at member
    rcases quiet.calls c member.1 with settled | ⟨a, owner, -⟩
    · cases member.2.symm.trans settled
    · exact ⟨_, by rw [owner]⟩
  obtain ⟨tools, listed⟩ := listed
  have unsettled := (interruptedTools_mem listed).1
  have toolsKept : run (RecoveryPass.settleToolCall reads parseUrl ids sessionId) pass tools =
      .ok pass := by
    apply run_unchanged
    rintro ⟨c, status⟩ member
    obtain ⟨present, open_, a, owner, rfl⟩ := unsettled c status member
    rcases quiet.calls c present with settled | ⟨b, owner', pending, flight, cancelling⟩
    · cases open_.symm.trans settled
    · cases Option.some.inj (owner.symm.trans owner')
      have idle : ¬ (a.status = .inFlight ∨ a.status = .cancellationRequested) := by
        rintro (e | e)
        · exact flight e
        · exact cancelling e
      simp only at pending
      simp [RecoveryPass.settleToolCall, pending, idle]
  have attemptsKept : run (RecoveryPass.settleAttempt reads ids sessionId) pass
      (s.attempts.filter fun attempt => !attempt.status.isSettled) = .ok pass := by
    apply run_unchanged
    intro a member
    simp only [List.mem_filter, Bool.not_eq_true'] at member
    rcases quiet.attempts a member.1 with settled | waiting | pending
    · cases member.2.symm.trans settled
    · simp [RecoveryPass.settleAttempt, RecoveryPass.exactPendingContext, waiting,
        AttemptProjection.isProviderDispatchReady]
    · obtain ⟨flight, -⟩ := pending.adjacent indexes member.1
      obtain ⟨ready, turn, loaded⟩ := pending
      simp [RecoveryPass.settleAttempt, RecoveryPass.exactPendingContext, ready, known, loaded,
        flight]
  unfold RecoveryPass.reconcileSession
  rw [known, ok_bind, listed, ok_bind, toolsKept, ok_bind, known, ok_bind]
  exact attemptsKept

omit [SessionStore S] [EventMetadataSource M] in
theorem pending_bounded (live : Live pass.engine.inner)
    (found : pass.engine.inner.session sessionId = some s) :
    ∀ a ∈ s.attempts, ∀ binding, a.pendingContextTurn = some binding →
      binding.boundSequence.get ≤ s.lastSequenceValue := by
  intro a member binding pending
  have replayed := live.rehydrate found
  have logged := rehydrate_logged replayed
  have last := (pendingContextTurn_eq_some_iff.mp pending).1
  obtain ⟨i, event, there, sequence, -⟩ := (rehydrate_contextTurnDiscipline replayed).bindings a
    member binding (List.mem_of_getLast? last)
  have place := logged.sequences i event there
  have inside := (List.getElem?_eq_some_iff.mp there).1
  rw [logged.length, ← sequence, place]
  omega

/-- The attempt was in flight when its binding was passed by. -/
def StrandedAttempt (s : SessionAggregate) (a : AttemptProjection) : Prop :=
  a.status = .inFlight ∧
    ∀ binding, a.pendingContextTurn = some binding → s.lastSequence ≠ some binding.boundSequence

/-- How one session comes out of the pass. -/
structure SessionReconciled (reads : RecoveryReads A) (sessionId : SessionId)
    (s t : SessionAggregate) : Prop where
  quiet : ¬ PreservedTooEarly reads sessionId s → QuietSession reads sessionId t
  stranded : PreservedTooEarly reads sessionId s → ∃ a ∈ t.attempts, StrandedAttempt t a

theorem calls_quiet {entries : List AttemptProjection} (before : IndexesExact s)
    (behind : IndexesExact t) (settled : AttemptsSettled entries s t)
    (calls : ∀ c ∈ s.toolCalls, c.status.isSettled = true ∨
      ∃ a, s.attempt c.attemptId = some a ∧ LeftPending (c, a.status)) :
    ∀ c ∈ t.toolCalls, c.status.isSettled = true ∨
      ∃ a, t.attempt c.attemptId = some a ∧ LeftPending (c, a.status) := by
  intro c member
  rw [settled.toolCalls] at member
  rcases calls c member with done | ⟨a, owner, pending, flight, cancelling⟩
  · exact .inl done
  · right
    obtain ⟨present, named⟩ := before.attempts.find?_eq_some_iff.mp owner
    rcases settled.kept a present with kept | ⟨-, b, replaced, same, done⟩
    · exact ⟨a, behind.attempts.find?_eq_some_iff.mpr ⟨kept, named⟩, pending, flight, cancelling⟩
    · refine ⟨b, behind.attempts.find?_eq_some_iff.mpr ⟨replaced, same.trans named⟩, pending, ?_, ?_⟩
      · intro e
        simp only at e
        rw [e] at done
        cases done
      · intro e
        simp only at e
        rw [e] at done
        cases done

/-- Two splits of a list at the first element with a property are the same. -/
theorem first_split_unique {α : Type} {P : α → Prop} {xs ys us vs : List α} {x u : α}
    (h : xs ++ x :: ys = us ++ u :: vs) (hx : ∀ z ∈ xs, ¬ P z) (px : P x) (hu : ∀ z ∈ us, ¬ P z)
    (pu : P u) : xs = us ∧ x = u ∧ ys = vs := by
  rcases List.append_eq_append_iff.mp h with ⟨middle, rfl, tail⟩ | ⟨middle, rfl, tail⟩
  · cases middle with
    | nil =>
      simp only [List.nil_append, List.cons.injEq] at tail
      exact ⟨by simp, tail.1, tail.2⟩
    | cons z middle =>
      simp only [List.cons_append, List.cons.injEq] at tail
      exact absurd (tail.1 ▸ px) (hu z (by simp))
  · cases middle with
    | nil =>
      simp only [List.nil_append, List.cons.injEq] at tail
      exact ⟨by simp, tail.1.symm, tail.2.symm⟩
    | cons z middle =>
      simp only [List.cons_append, List.cons.injEq] at tail
      exact absurd (tail.1 ▸ pu) (hx z (by simp))

section Session

/-- The attempts of a session that the pass looks at. -/
abbrev SessionAggregate.interrupted (s : SessionAggregate) : List AttemptProjection :=
  s.attempts.filter fun attempt => !attempt.status.isSettled

theorem interrupted_mem {a : AttemptProjection} :
    a ∈ s.interrupted ↔ a ∈ s.attempts ∧ a.status.isSettled = false := by
  simp

theorem interrupted_distinct (indexes : IndexesExact s) :
    (s.interrupted.map AttemptProjection.attemptId).Nodup :=
  indexes.attempts.nodup_keys.sublist (List.Sublist.map _ List.filter_sublist)

/-- The split of the interrupted attempts at the first one that is due, in the whole list. -/
theorem interrupted_split {before rest : List AttemptProjection} {due : AttemptProjection}
    (split : s.interrupted = before ++ due :: rest)
    (left : ∀ a ∈ before, LeftWaiting reads sessionId s a)
    (missed : ¬ LeftWaiting reads sessionId s due) :
    ∃ front back, s.attempts = front ++ due :: back ∧
      (∀ a ∈ front, ¬ DueAttempt reads sessionId s a) ∧ DueAttempt reads sessionId s due ∧
      (∀ a ∈ before, a ∈ front) ∧ ∀ a ∈ rest, a ∈ back := by
  obtain ⟨front, tail, whole, first, second⟩ := List.filter_eq_append_iff.mp split
  obtain ⟨skipped, back, joined, settled, unsettled, third⟩ := List.filter_eq_cons_iff.mp second
  have placed : ∀ a ∈ front ++ skipped, a.status.isSettled = false → a ∈ before := by
    intro a member unsettled
    rcases List.mem_append.mp member with there | there
    · rw [← first]
      exact List.mem_filter.mpr ⟨there, by simp [unsettled]⟩
    · exact absurd (by simp [unsettled]) (settled a there)
  refine ⟨front ++ skipped, back, by rw [whole, joined, List.append_assoc], ?_, ?_, ?_, ?_⟩
  · rintro a member ⟨unsettled, stays⟩
    exact stays (left a (placed a member unsettled))
  · exact ⟨by simpa using unsettled, missed⟩
  · intro a member
    rw [← first] at member
    exact List.mem_append_left _ (List.mem_filter.mp member).1
  · intro a member
    rw [← third] at member
    exact (List.mem_filter.mp member).1

/-- Nothing was due before the pass met its first attempt to settle. -/
theorem reconciled_of_split {before rest : List AttemptProjection} {due : AttemptProjection}
    (earlier : IndexesExact s) (later : IndexesExact t)
    (split : s.interrupted = before ++ due :: rest)
    (left : ∀ a ∈ before, LeftWaiting reads sessionId s a)
    (missed : ¬ LeftWaiting reads sessionId s due)
    (calls : ∀ c ∈ s.toolCalls, c.status.isSettled = true ∨
      ∃ a, s.attempt c.attemptId = some a ∧ LeftPending (c, a.status))
    (settled : AttemptsSettled (due :: rest) s t) : SessionReconciled reads sessionId s t := by
  obtain ⟨front, back, whole, clear, first, placed, behind⟩ := interrupted_split split left missed
  have none : ∀ c ∈ s.toolCalls, ¬ DueCall s c := by
    rintro c member ⟨unsettled, a, owner, due⟩
    rcases calls c member with done | ⟨b, owner', pending⟩
    · cases unsettled.symm.trans done
    · cases Option.some.inj (owner.symm.trans owner')
      exact due pending
  constructor
  · intro fine
    refine ⟨calls_quiet earlier later settled calls, fun b member => ?_⟩
    rcases settled.settled b member with done | ⟨kept, waiting⟩
    · exact .inl done
    · by_cases done : b.status.isSettled = true
      · exact .inl done
      · right
        left
        have unsettled : b.status.isSettled = false := Bool.eq_false_iff.mpr done
        have listed : b ∈ s.interrupted := interrupted_mem.mpr ⟨kept, unsettled⟩
        rw [split] at listed
        rcases List.mem_append.mp listed with there | there
        · rcases left b there with awaiting | pending
          · exact awaiting
          · exact absurd ⟨none, front, due, back, whole, clear, first, b, placed b there, pending⟩ fine
        · exact waiting there
  · rintro ⟨-, front', due', back', whole', clear', first', a, early, pending⟩
    obtain ⟨rfl, rfl, rfl⟩ := first_split_unique (whole.symm.trans whole') clear first clear' first'
    have member : a ∈ s.attempts := by simp [whole, early]
    have apart : a.attemptId ∉ (due :: rest).map AttemptProjection.attemptId := by
      intro listed
      obtain ⟨b, there, same⟩ := List.mem_map.mp listed
      have beyond : b ∈ due :: back := by
        rcases List.mem_cons.mp there with rfl | there
        · exact List.mem_cons_self
        · exact List.mem_cons_of_mem _ (behind b there)
      have distinct := earlier.attempts.nodup_keys
      rw [whole, List.map_append, List.nodup_append'] at distinct
      exact distinct.2.2 (List.mem_map_of_mem early) (List.mem_map.mpr ⟨b, beyond, same⟩)
    obtain ⟨flight, binding, bound, adjacent⟩ := pending.adjacent earlier member
    rcases settled.kept a member with kept | ⟨listed, -⟩
    · refine ⟨a, kept, flight, fun other found last => ?_⟩
      cases Option.some.inj (bound.symm.trans found)
      have grown := settled.grown
      simp [SessionAggregate.lastSequenceValue, adjacent, last] at grown
    · exact absurd listed apart

/-- After the tool pass only pending questions of waiting attempts are left. -/
theorem calls_left {tools : List (ToolCallProjection × AttemptStatus)} (before : IndexesExact s)
    (behind : IndexesExact t)
    (complete : ∀ c ∈ s.toolCalls, c.status.isSettled = false →
      ∃ a, s.attempt c.attemptId = some a ∧ (c, a.status) ∈ tools)
    (moved : CallsSettled tools s t) :
    ∀ c ∈ t.toolCalls, c.status.isSettled = true ∨
      ∃ a, t.attempt c.attemptId = some a ∧ LeftPending (c, a.status) := by
  intro c member
  by_cases done : c.status.isSettled = true
  · exact .inl done
  · rcases moved.settled c member with settled | ⟨kept, left⟩
    · exact .inl settled
    · obtain ⟨a, owner, listed⟩ := complete c kept (Bool.eq_false_iff.mpr done)
      obtain ⟨present, named⟩ := before.attempts.find?_eq_some_iff.mp owner
      rw [← moved.attempts] at present
      exact .inr ⟨a, behind.attempts.find?_eq_some_iff.mpr ⟨present, named⟩, left _ listed⟩

omit [SessionStore S] [EventMetadataSource M] in
theorem session_of_ok (h : pass.session sessionId = .ok s) :
    pass.engine.inner.session sessionId = some s := by
  unfold RecoveryPass.session at h
  split at h
  next found =>
    cases h
    exact found
  next => cases h

theorem reconcileSession_outcome (live : Live pass.engine.inner)
    (h : RecoveryPass.reconcileSession reads parseUrl ids pass sessionId = .ok after) :
    (∃ s, pass.engine.inner.session sessionId = some s) ∧
      Advances sessionId (SessionReconciled reads sessionId) pass.engine.inner
        after.engine.inner := by
  unfold RecoveryPass.reconcileSession at h
  obtain ⟨s, known, h⟩ := bind_eq_ok_iff.mp h
  obtain ⟨tools, listed, h⟩ := bind_eq_ok_iff.mp h
  obtain ⟨middle, called, h⟩ := bind_eq_ok_iff.mp h
  obtain ⟨m, known', attempted⟩ := bind_eq_ok_iff.mp h
  have found := session_of_ok known
  have found' := session_of_ok known'
  have indexes := (rehydrate_represented (live.rehydrate found)).indexes
  have bounded := pending_bounded live found
  obtain ⟨entries, complete⟩ := interruptedTools_mem listed
  refine ⟨⟨s, found⟩, ?_⟩
  rcases tools_outcome live found (fun e member => (entries e.1 e.2 member).2.1) called with
    ⟨rfl, all⟩ | ⟨advanced, ⟨c, status⟩, member, due⟩
  · cases Option.some.inj (found.symm.trans found')
    have calls : ∀ c ∈ s.toolCalls, c.status.isSettled = true ∨
        ∃ a, s.attempt c.attemptId = some a ∧ LeftPending (c, a.status) := by
      intro c member
      by_cases done : c.status.isSettled = true
      · exact .inl done
      · obtain ⟨a, owner, listed⟩ := complete c member (Bool.eq_false_iff.mpr done)
        exact .inr ⟨a, owner, all _ listed⟩
    rcases attempts_outcome live found (fun a member => (interrupted_mem.mp member).1)
      (fun a member => (interrupted_mem.mp member).2) (interrupted_distinct indexes)
      (fun a member => bounded a (interrupted_mem.mp member).1) attempted with
      ⟨rfl, waiting⟩ | ⟨before, due, rest, split, left, missed, advanced⟩
    · refine Advances.rfl_of live fun s' again => ?_
      cases Option.some.inj (found.symm.trans again)
      refine ⟨fun _ => ⟨calls, fun a member => ?_⟩, ?_⟩
      · by_cases done : a.status.isSettled = true
        · exact .inl done
        · exact .inr (waiting a (interrupted_mem.mpr ⟨member, Bool.eq_false_iff.mpr done⟩))
      · rintro ⟨-, front, due, back, whole, -, ⟨unsettled, missed⟩, -⟩
        have present : due ∈ s.attempts := by simp [whole]
        exact absurd (waiting due (interrupted_mem.mpr ⟨present, unsettled⟩)) missed
    · refine ⟨advanced.live, advanced.others, fun s' again => ?_⟩
      cases Option.some.inj (found.symm.trans again)
      obtain ⟨t, final, settled⟩ := advanced.changed s found
      have later := (rehydrate_represented (advanced.live.rehydrate final)).indexes
      exact ⟨t, final, reconciled_of_split indexes later split left missed calls settled⟩
  · obtain ⟨_, final, moved⟩ := advanced.changed s found
    cases Option.some.inj (found'.symm.trans final)
    have between := (rehydrate_represented (advanced.live.rehydrate found')).indexes
    have calls := calls_left indexes between complete moved
    obtain ⟨present, unsettled, a, owner, rfl⟩ := entries c status member
    have fine : ¬ PreservedTooEarly reads sessionId s := fun early =>
      early.1 c present ⟨unsettled, a, owner, due⟩
    have behind : ∀ b ∈ m.interrupted, Stale m b := by
      intro b listed binding pending
      have inside : b ∈ s.attempts := by
        rw [← moved.attempts]
        exact (interrupted_mem.mp listed).1
      have before := bounded b inside binding pending
      have grown := moved.grown
      omega
    have rest := attempts_stale advanced.live found' (fun b member => (interrupted_mem.mp member).1)
      (fun b member => (interrupted_mem.mp member).2) (interrupted_distinct between) behind attempted
    have quiet : ∃ t, after.engine.inner.session sessionId = some t ∧
        QuietSession reads sessionId t := by
      rcases rest with ⟨rfl, waiting⟩ | advanced
      · refine ⟨m, found', calls, fun b member => ?_⟩
        by_cases done : b.status.isSettled = true
        · exact .inl done
        · exact .inr (.inl (waiting b (interrupted_mem.mpr ⟨member, Bool.eq_false_iff.mpr done⟩)))
      · obtain ⟨t, final, settled⟩ := advanced.changed m found'
        have later := (rehydrate_represented (advanced.live.rehydrate final)).indexes
        refine ⟨t, final, calls_quiet between later settled calls, fun b member => ?_⟩
        by_cases done : b.status.isSettled = true
        · exact .inl done
        · rcases settled.settled b member with settled | ⟨kept, waiting⟩
          · exact absurd settled done
          · exact .inr (.inl (waiting
              (interrupted_mem.mpr ⟨kept, Bool.eq_false_iff.mpr done⟩)))
    obtain ⟨t, final, quiet⟩ := quiet
    refine ⟨?_, ?_, fun s' again => ?_⟩
    · rcases rest with ⟨rfl, -⟩ | behind
      · exact advanced.live
      · exact behind.live
    · intro other apart
      rcases rest with ⟨rfl, -⟩ | behind
      · exact advanced.others other apart
      · rw [behind.others other apart, advanced.others other apart]
    · cases Option.some.inj (found.symm.trans again)
      exact ⟨t, final, fun _ => quiet, fun early => absurd early fine⟩

end Session

/-- Every listed session comes out of the pass as if it were the only one. -/
theorem reconcile_outcome {sessionIds : List SessionId} (live : Live pass.engine.inner)
    (distinct : sessionIds.Nodup)
    (h : RecoveryPass.reconcileInterruptedAttempts reads parseUrl ids pass sessionIds =
      .ok after) :
    Live after.engine.inner ∧
      (∀ sessionId ∉ sessionIds,
        after.engine.inner.session sessionId = pass.engine.inner.session sessionId) ∧
      ∀ sessionId ∈ sessionIds, ∃ s t, pass.engine.inner.session sessionId = some s ∧
        after.engine.inner.session sessionId = some t ∧
        SessionReconciled reads sessionId s t := by
  unfold RecoveryPass.reconcileInterruptedAttempts at h
  induction sessionIds generalizing pass with
  | nil =>
    cases h
    exact ⟨live, fun _ _ => rfl, by simp⟩
  | cons first rest ih =>
    rw [run_cons] at h
    obtain ⟨middle, reconciled, later⟩ := bind_eq_ok_iff.mp h
    obtain ⟨new, distinct⟩ := List.nodup_cons.mp distinct
    obtain ⟨⟨s, found⟩, advanced⟩ := reconcileSession_outcome live reconciled
    obtain ⟨final, others, all⟩ := ih advanced.live distinct later
    refine ⟨final, fun other absent => ?_, fun listed member => ?_⟩
    · simp only [List.mem_cons, not_or] at absent
      rw [others other absent.2, advanced.others other absent.1]
    · rcases List.mem_cons.mp member with rfl | member
      · obtain ⟨t, reached, outcome⟩ := advanced.changed s found
        exact ⟨s, t, found, (others _ new).trans reached, outcome⟩
      · have apart : listed ≠ first := fun same => new (same ▸ member)
        obtain ⟨s, t, found, reached, outcome⟩ := all listed member
        rw [advanced.others listed apart] at found
        exact ⟨s, t, found, reached, outcome⟩

/-- Settled, waiting on tools, or in flight with a turn bound at the end of the log. -/
def Reconciled (s : SessionAggregate) (a : AttemptProjection) : Prop :=
  a.status.isSettled = true ∨ a.status = .awaitingTools ∨
    (a.status = .inFlight ∧ ∃ binding, a.pendingContextTurn = some binding ∧
      s.lastSequence = some binding.boundSequence)

/-- Recovery is complete and a second run appends nothing, unless a session preserves a pending
turn and then settles an attempt behind it. -/
theorem recovery_complete_iff {fuel : Nat} {store : S} {source : M} {engine : DurableEngine S M}
    {sessionIds : List SessionId} {issued : Nat}
    (recovered : DurableEngine.recover fuel store source = some (.ok engine))
    (distinct : sessionIds.Nodup)
    (done : RecoveryPass.reconcileInterruptedAttempts reads parseUrl ids
      ⟨engine, issued, 0, 0⟩ sessionIds = .ok after) :
    ((∀ sessionId ∈ sessionIds, ∀ t, after.engine.inner.session sessionId = some t →
        ∀ a ∈ t.attempts, Reconciled t a) ∧
      ∃ again, RecoveryPass.reconcileInterruptedAttempts reads parseUrl ids
          ⟨after.engine, after.issued, 0, 0⟩ sessionIds = .ok again ∧
        again.engine.inner.events = after.engine.inner.events) ↔
      ∀ sessionId ∈ sessionIds, ∀ s, engine.inner.session sessionId = some s →
        ¬ PreservedTooEarly reads sessionId s := by
  have live : Live engine.inner := by
    unfold DurableEngine.recover at recovered
    split at recovered
    next => cases recovered
    next summaries _ =>
      obtain ⟨loaded, _, recovered⟩ := Option.map_eq_some_iff.mp recovered
      obtain ⟨events, _, recovered⟩ := bind_eq_ok_iff.mp recovered
      obtain ⟨inner, replayed, recovered⟩ := bind_eq_ok_iff.mp recovered
      cases recovered
      cases accepted : InMemoryEngine.replay source events with
      | error e => simp [accepted, Except.mapError] at replayed
      | ok found =>
        simp only [accepted, Except.mapError, Except.ok.injEq] at replayed
        exact replayed ▸ Live.of_replay accepted
  obtain ⟨final, -, all⟩ := reconcile_outcome (by exact live) distinct done
  constructor
  · rintro ⟨complete, -⟩ sessionId member s found early
    obtain ⟨s', t, found', reached, outcome⟩ := all sessionId member
    cases Option.some.inj (found.symm.trans found')
    obtain ⟨a, present, flight, passed⟩ := outcome.stranded early
    rcases complete sessionId member t reached a present with settled | waiting | ⟨-, b, bound, last⟩
    · rw [flight] at settled
      cases settled
    · rw [flight] at waiting
      cases waiting
    · exact passed b bound last
  · intro fine
    have quiet : ∀ sessionId ∈ sessionIds, ∃ t, after.engine.inner.session sessionId = some t ∧
        QuietSession reads sessionId t := by
      intro sessionId member
      obtain ⟨s, t, found, reached, outcome⟩ := all sessionId member
      exact ⟨t, reached, outcome.quiet (fine sessionId member s found)⟩
    refine ⟨fun sessionId member t reached a present => ?_, ?_⟩
    · obtain ⟨t', reached', still⟩ := quiet sessionId member
      cases Option.some.inj (reached.symm.trans reached')
      have indexes := (rehydrate_represented (final.rehydrate reached)).indexes
      rcases still.attempts a present with settled | waiting | pending
      · exact .inl settled
      · exact .inr (.inl waiting)
      · exact .inr (.inr (pending.adjacent indexes present))
    · refine ⟨⟨after.engine, after.issued, 0, 0⟩, ?_, rfl⟩
      apply run_unchanged
      intro sessionId member
      obtain ⟨t, reached, still⟩ := quiet sessionId member
      exact reconcileSession_quiet (by exact final) (by exact reached) still

section Sample

def laterInput : InputId := ⟨"input-2", rfl⟩

def laterAttempt : AttemptId := ⟨"attempt-2", rfl⟩

/-- One attempt has its turn bound at the end of the log, another one is only prepared. -/
def strandingPayloads : List EventPayload :=
  [.sessionCreated, .modelSelected sampleModel,
    .inputAdmitted sampleInput samplePrompt .nextTurn,
    .attemptPrepared sampleAttempt sampleInput sampleModel none, .attemptStarted sampleAttempt,
    .inputAdmitted laterInput samplePrompt .nextTurn,
    .attemptPrepared laterAttempt laterInput sampleModel none,
    .contextTurnBound sampleAttempt 1 sampleContextTurn sampleHash]

def strandingStore : ListStore := ⟨sampleEvents .first strandingPayloads, []⟩

def strandingTurn : ContextTurnRecord Unit where
  key := ⟨sampleSession, sampleAttempt, 1, sampleContextTurn, sampleHash⟩
  expectedSessionSequence := ⟨7, by decide, by decide⟩
  admissions := []

def strandingReads : RecoveryReads Unit where
  loadContextTurn _ := .ok (some strandingTurn)
  verifyContextManifestHash _ := .ok true
  loadContextAdmissions _ := .ok []
  hasContextTurnContent _ := .ok false
  hasContextAdmissionContent _ := .ok false
  loadAttemptContextTurn _ _ := .ok none
  proposalCommitted _ _ _ _ := .ok false

def sampleIds : CommandIds := ⟨fun n => sampleId _ n, fun _ => sampleCorrelation⟩

/-- The prepared attempt is failed behind the preserved one. -/
theorem stranding_stranded : ∃ (engine : DurableEngine ListStore SampleSource)
    (after : RecoveryPass ListStore SampleSource) (t : SessionAggregate) (a : AttemptProjection),
    DurableEngine.recover 20 strandingStore ⟨9⟩ = some (.ok engine) ∧
      RecoveryPass.reconcileInterruptedAttempts strandingReads (fun _ => none) sampleIds
        ⟨engine, 9, 0, 0⟩ [sampleSession] = .ok after ∧
      after.engine.inner.session sampleSession = some t ∧ a ∈ t.attempts ∧
      ¬ Reconciled t a := by
  refine ⟨_, _, _, _, rfl, rfl, rfl, List.mem_cons_self, ?_⟩
  rintro (settled | waiting | ⟨-, binding, bound, last⟩)
  · cases settled
  · cases waiting
  · cases bound
    have sequences := congrArg (Option.map SessionSequence.get) last
    cases sequences

theorem recovery_strands_pending_turn :
    ¬ ∀ (engine : DurableEngine ListStore SampleSource) (sessionIds : List SessionId)
        (issued : Nat) (after : RecoveryPass ListStore SampleSource),
      DurableEngine.recover 20 strandingStore ⟨9⟩ = some (.ok engine) → sessionIds.Nodup →
      RecoveryPass.reconcileInterruptedAttempts strandingReads (fun _ => none) sampleIds
        ⟨engine, issued, 0, 0⟩ sessionIds = .ok after →
      ∀ sessionId ∈ sessionIds, ∀ t, after.engine.inner.session sessionId = some t →
        ∀ a ∈ t.attempts, Reconciled t a := by
  intro complete
  obtain ⟨engine, after, t, a, recovered, done, reached, present, stranded⟩ := stranding_stranded
  exact stranded (complete engine [sampleSession] 9 after recovered (by simp) done sampleSession
    (by simp) t reached a present)

theorem recovery_complete_iff_stranded :
    ∃ (engine : DurableEngine ListStore SampleSource) (s : SessionAggregate),
      DurableEngine.recover 20 strandingStore ⟨9⟩ = some (.ok engine) ∧
      engine.inner.session sampleSession = some s ∧
      PreservedTooEarly strandingReads sampleSession s := by
  obtain ⟨engine, after, t, a, recovered, done, reached, present, stranded⟩ := stranding_stranded
  have exact_ := recovery_complete_iff recovered (by simp) done
  by_contra none
  refine stranded ((exact_.mpr ?_).1 sampleSession (by simp) t reached a present)
  intro sessionId member s found early
  cases List.mem_singleton.mp member
  exact none ⟨engine, s, recovered, found, early⟩

end Sample

end AutoHarness
