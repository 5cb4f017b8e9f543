import AutoHarness.AggregateRepresentation

namespace AutoHarness

open IndexedList

variable {s t : SessionAggregate} {event : EventEnvelope}

theorem pendingContextTurn_eq_some_iff {a : AttemptProjection} {binding : ContextTurnBinding} :
    a.pendingContextTurn = some binding ↔
      a.contextTurnBindings.getLast? = some binding ∧
        binding.runTurn.toNat = a.turnsStarted.toNat + 1 := by
  unfold AttemptProjection.pendingContextTurn
  rw [← checkedSucc_eq_some_iff]
  cases checkedSucc a.turnsStarted with
  | none => simp
  | some expected =>
    simp only [Option.bind_eq_bind, Option.bind_some, Option.filter_eq_some_iff, beq_iff_eq,
      Option.some.injEq]
    rw [eq_comm (a := binding.runTurn)]

/-- The bindings of an attempt number its provider turns from one on, at most one of them is
not started yet, and started turns respect the run limits. -/
structure TurnsOrdered (a : AttemptProjection) : Prop where
  numbered : a.contextTurnBindings.map (fun binding => binding.runTurn.toNat) =
    List.range' 1 a.contextTurnBindings.length
  count : a.contextTurnBindings.length = a.turnsStarted.toNat ∨
    a.contextTurnBindings.length = a.turnsStarted.toNat + 1
  limited : ∀ limits, a.runLimits = some limits → a.turnsStarted ≤ limits.maxTurns
  unstarted : a.status = .prepared → a.turnsStarted = 0

theorem turnsOrdered_prepared (attemptId : AttemptId) (inputId : InputId) (model : ModelRef)
    (retryOf : Option AttemptId) :
    TurnsOrdered (.prepared attemptId inputId model retryOf) where
  numbered := rfl
  count := .inl rfl
  limited := nofun
  unstarted _ := rfl

theorem TurnsOrdered.last_number {a : AttemptProjection} (h : TurnsOrdered a)
    {binding : ContextTurnBinding} (last : a.contextTurnBindings.getLast? = some binding) :
    binding.runTurn.toNat = a.contextTurnBindings.length := by
  rw [List.getLast?_eq_getElem?] at last
  have position := (List.getElem?_eq_some_iff.mp last).1
  have number := congrArg (fun numbers => numbers[a.contextTurnBindings.length - 1]?) h.numbered
  simp only [List.getElem?_map, last, Option.map_some] at number
  rw [List.getElem?_range' (by omega), Option.some.injEq] at number
  omega

/-- Without a pending binding every bound turn has started. -/
theorem TurnsOrdered.length_of_idle {a : AttemptProjection} (h : TurnsOrdered a)
    (idle : a.pendingContextTurn = none) :
    a.contextTurnBindings.length = a.turnsStarted.toNat := by
  rcases h.count with count | count
  · exact count
  · have nonempty : a.contextTurnBindings ≠ [] := by
      rintro empty
      simp [empty] at count
    have last := List.getLast?_eq_some_getLast nonempty
    have pending := pendingContextTurn_eq_some_iff.mpr
      ⟨last, (h.last_number last).trans count⟩
    cases idle.symm.trans pending

theorem exceedsTurns_eq_false_iff {a : AttemptProjection} {turn : UInt32} :
    a.exceedsTurns turn = false ↔ ∀ limits, a.runLimits = some limits → turn ≤ limits.maxTurns := by
  unfold AttemptProjection.exceedsTurns
  cases a.runLimits with
  | none => simp
  | some limits => simp

theorem AttemptChange.turnsOrdered {id : AttemptId} {a b : AttemptProjection}
    (change : AttemptChange s event id a b) (h : TurnsOrdered a) : TurnsOrdered b := by
  cases change with
  | started | cancellationRequested | completed | failed | cancelled | markedUnknown | paused
  | resumed => exact ⟨h.numbered, h.count, h.limited, nofun⟩
  | textAppended | usageRecorded => exact ⟨h.numbered, h.count, h.limited, h.unstarted⟩
  | budgetConfigured _ _ hs =>
    have zero := h.unstarted (by simpa using hs)
    refine ⟨h.numbered, h.count, fun limits _ => ?_, h.unstarted⟩
    rw [zero]
    exact UInt32.zero_le
  | contextBound _ _ _ _ _ expected idle =>
    have length := h.length_of_idle idle
    have number := checkedSucc_eq_some_iff.mp expected
    refine ⟨?_, ?_, h.limited, h.unstarted⟩
    · simp only [List.map_append, List.map_cons, List.map_nil, List.length_append,
        List.length_singleton, h.numbered, List.range'_1_concat]
      rw [number, length, Nat.add_comm]
    · right
      simp [length]
  | turnStarted _ hs _ pending number _ expected within =>
    obtain ⟨last, -⟩ := pendingContextTurn_eq_some_iff.mp pending
    have length := h.last_number last
    rw [number] at length
    have inFlight : a.status = .inFlight := by simpa using hs
    refine ⟨h.numbered, .inl length.symm, exceedsTurns_eq_false_iff.mp within, ?_⟩
    intro prepared
    cases inFlight.symm.trans prepared

/-- All context-turn identities bound by the attempts, in their order. -/
def boundTurnIds (attempts : List AttemptProjection) : List ContextTurnId :=
  attempts.flatMap fun a => a.contextTurnBindings.map ContextTurnBinding.contextTurnId

theorem boundTurnIds_prepared (attempts : List AttemptProjection) (attemptId : AttemptId)
    (inputId : InputId) (model : ModelRef) (retryOf : Option AttemptId) :
    boundTurnIds (attempts ++ [.prepared attemptId inputId model retryOf]) =
      boundTurnIds attempts := by
  simp [boundTurnIds, AttemptProjection.prepared]

/-- Numbering, limits and identities of the context turns bound in one session. -/
structure TurnsDisciplined (s : SessionAggregate) : Prop where
  ordered : ∀ a ∈ s.attempts, TurnsOrdered a
  distinct : (boundTurnIds s.attempts).Nodup
  bound : s.contextTurnIds = (boundTurnIds s.attempts).toFinset

/-- What a change does to the bindings of its attempt. -/
theorem AttemptChange.bindings {id : AttemptId} {a b : AttemptProjection}
    (change : AttemptChange s event id a b) :
    (b.contextTurnBindings = a.contextTurnBindings ∧ event.payload.boundContextTurns = ∅) ∨
      ∃ binding, b.contextTurnBindings = a.contextTurnBindings ++ [binding] ∧
        binding.contextTurnId ∉ s.contextTurnIds ∧ binding.boundSequence = event.sequence ∧
        event.payload = .contextTurnBound id binding.runTurn binding.contextTurnId
          binding.manifestHash := by
  cases change with
  | contextBound payload _ fresh => exact .inr ⟨_, rfl, fresh, rfl, payload⟩
  | started payload | textAppended payload | usageRecorded payload | cancellationRequested payload
  | completed payload | failed payload | cancelled payload | markedUnknown payload
  | budgetConfigured payload | turnStarted payload | paused payload | resumed payload =>
    exact .inl ⟨rfl, by rw [payload]; rfl⟩

theorem turnsDisciplined_empty (sessionId : SessionId) : TurnsDisciplined (.empty sessionId) where
  ordered := by simp [SessionAggregate.empty]
  distinct := List.nodup_nil
  bound := rfl

theorem turnsDisciplined_step (h : TurnsDisciplined s) (step : SessionStep s event t) :
    TurnsDisciplined t := by
  cases step with
  | header change => cases change <;> exact ⟨h.ordered, h.distinct, h.bound⟩
  | inputAdmitted | toolCallProposed | toolCallChanged => exact ⟨h.ordered, h.distinct, h.bound⟩
  | attemptPrepared | retryPrepared =>
    refine ⟨fun a ha => ?_, ?_, ?_⟩
    · rcases List.mem_append.mp ha with ha | ha
      · exact h.ordered a ha
      · cases List.mem_singleton.mp ha
        exact turnsOrdered_prepared ..
    · rw [boundTurnIds_prepared]; exact h.distinct
    · rw [boundTurnIds_prepared]; exact h.bound
  | @attemptChanged id i old new _ hid hold change ht =>
    subst ht
    have ordered : ∀ a ∈ s.attempts.set i new, TurnsOrdered a := by
      intro a ha
      rcases mem_set_cases ha with rfl | ⟨j, -, hj⟩
      · exact change.turnsOrdered (h.ordered old (List.mem_of_getElem? hold))
      · exact h.ordered a (List.mem_of_getElem? hj)
    rcases change.bindings with ⟨same, unbound⟩ | ⟨binding, grown, fresh, -, payload⟩
    · have ids : boundTurnIds (s.attempts.set i new) = boundTurnIds s.attempts := by
        unfold boundTurnIds
        rw [List.flatMap_def, List.flatMap_def, map_set_of_eq hold (by rw [same])]
      refine ⟨ordered, ?_, ?_⟩
      · rw [ids]; exact h.distinct
      · rw [ids, unbound, Finset.empty_union]; exact h.bound
    · have ids : (boundTurnIds (s.attempts.set i new)).Perm
          (binding.contextTurnId :: boundTurnIds s.attempts) :=
        flatMap_set_perm hold (by simp [grown])
      rw [h.bound, List.mem_toFinset] at fresh
      refine ⟨ordered, ids.nodup_iff.mpr (List.nodup_cons.mpr ⟨fresh, h.distinct⟩), ?_⟩
      rw [payload, List.toFinset_eq_of_perm _ _ ids, List.toFinset_cons, ← h.bound]
      rfl

/-- The log holds the event of every binding, at the place the binding names. -/
def BindingsLogged (log : List EventEnvelope) (s : SessionAggregate) : Prop :=
  ∀ a ∈ s.attempts, ∀ binding ∈ a.contextTurnBindings,
    ∃ (i : Nat) (event : EventEnvelope), log[i]? = some event ∧ event.sequence = binding.boundSequence ∧
      event.payload = .contextTurnBound a.attemptId binding.runTurn binding.contextTurnId
        binding.manifestHash

/-- A turn starts only right after the event that bound its context. -/
def StartsAdjacent (log : List EventEnvelope) : Prop :=
  ∀ (i : Nat) (event : EventEnvelope) (attemptId : AttemptId) (turn : UInt32),
    log[i]? = some event → event.payload = .runTurnStarted attemptId turn →
    ∃ (j : Nat) (prior : EventEnvelope) (contextTurnId : ContextTurnId)
      (manifestHash : Sha256Digest), i = j + 1 ∧ log[j]? = some prior ∧
      prior.sequence.checkedNext = some event.sequence ∧
      prior.payload = .contextTurnBound attemptId turn contextTurnId manifestHash

theorem BindingsLogged.mono {log : List EventEnvelope} (h : BindingsLogged log s)
    (event : EventEnvelope) : BindingsLogged (log ++ [event]) s := by
  intro a ha binding hb
  obtain ⟨i, e, he, rest⟩ := h a ha binding hb
  exact ⟨i, e, getElem?_concat_of_some he, rest⟩

theorem bindingsLogged_step {log : List EventEnvelope} (hi : IndexesExact s)
    (h : BindingsLogged log s) (step : SessionStep s event t) :
    BindingsLogged (log ++ [event]) t := by
  have kept := h.mono event
  cases step with
  | header change => cases change <;> exact kept
  | inputAdmitted | toolCallProposed | toolCallChanged => exact kept
  | attemptPrepared | retryPrepared =>
    intro a ha binding hb
    rcases List.mem_append.mp ha with ha | ha
    · exact kept a ha binding hb
    · cases List.mem_singleton.mp ha
      cases hb
  | @attemptChanged id i old new _ hid hold change ht =>
    subst ht
    intro a ha binding hb
    rcases mem_set_cases ha with rfl | ⟨j, -, hj⟩
    · have origin : a.attemptId = old.attemptId :=
        congrArg AttemptOrigin.attemptId change.origin_eq
      have key : old.attemptId = id := hi.attempts.find?_key (attempt_of_lookup hid hold)
      rcases change.bindings with ⟨same, -⟩ | ⟨new, grown, -, sequence, payload⟩
      · rw [same] at hb
        rw [origin]
        exact kept old (List.mem_of_getElem? hold) binding hb
      · rw [grown] at hb
        rcases List.mem_append.mp hb with hb | hb
        · rw [origin]
          exact kept old (List.mem_of_getElem? hold) binding hb
        · cases List.mem_singleton.mp hb
          exact ⟨log.length, event, by simp, sequence.symm, by rw [origin, key, payload]⟩
    · exact kept a (List.mem_of_getElem? hj) binding hb

theorem SessionStep.turnStarted {id : AttemptId} {turn : UInt32} (step : SessionStep s event t)
    (payload : event.payload = .runTurnStarted id turn) :
    ∃ a binding, s.attempt id = some a ∧ a.pendingContextTurn = some binding ∧
      binding.runTurn = turn ∧ binding.boundSequence.checkedNext = some event.sequence := by
  cases step with
  | header change =>
    cases change with
    | created hp | renamed hp | archived hp | unarchived hp | modelSelected hp =>
      cases hp.symm.trans payload
  | inputAdmitted hp | attemptPrepared hp | retryPrepared hp | toolCallProposed hp =>
    cases hp.symm.trans payload
  | attemptChanged hid hold change _ =>
    cases change with
    | turnStarted hp _ _ pending number adjacent =>
      cases hp.symm.trans payload
      exact ⟨_, _, attempt_of_lookup hid hold, pending, number, adjacent⟩
    | started hp | textAppended hp | usageRecorded hp | cancellationRequested hp | completed hp
    | failed hp | cancelled hp | markedUnknown hp | budgetConfigured hp | contextBound hp
    | paused hp | resumed hp => cases hp.symm.trans payload
  | toolCallChanged _ _ change =>
    cases change with
    | recorded hp | answered hp | started hp | completed hp | failed hp | denied hp | cancelled hp
    | markedUnknown hp => cases hp.symm.trans payload

theorem startsAdjacent_step {log : List EventEnvelope} {sessionId : SessionId}
    (hi : IndexesExact s) (logged : Logged sessionId log s) (bindings : BindingsLogged log s)
    (fits : EnvelopeFits s event) (h : StartsAdjacent log) (step : SessionStep s event t) :
    StartsAdjacent (log ++ [event]) := by
  intro i e attemptId turn he payload
  rcases getElem?_concat_cases he with ⟨rfl, rfl⟩ | he
  · obtain ⟨a, binding, ha, pending, number, adjacent⟩ := step.turnStarted payload
    obtain ⟨hm, key⟩ := hi.attempts.find?_eq_some_iff.mp ha
    obtain ⟨last, -⟩ := pendingContextTurn_eq_some_iff.mp pending
    obtain ⟨j, prior, hj, sequence, bound⟩ := bindings a hm binding (List.mem_of_getLast? last)
    rw [← sequence] at adjacent
    have place := logged.sequences j prior hj
    have next := expectedSequence_eq_ok_iff.mp fits.sequence
    have successor := SessionSequence.checkedNext_eq_some_iff.mp adjacent
    rw [logged.length] at next
    rw [key, number] at bound
    exact ⟨j, prior, binding.contextTurnId, binding.manifestHash, by omega,
      getElem?_concat_of_some hj, adjacent, bound⟩
  · obtain ⟨j, prior, contextTurnId, manifestHash, hij, hj, rest⟩ := h i e attemptId turn he payload
    exact ⟨j, prior, contextTurnId, manifestHash, hij, getElem?_concat_of_some hj, rest⟩

/-- The context-turn discipline of a session and the log it was built from. -/
structure ContextTurnDiscipline (log : List EventEnvelope) (s : SessionAggregate) : Prop where
  turns : TurnsDisciplined s
  bindings : BindingsLogged log s
  adjacent : StartsAdjacent log

theorem rehydrate_contextTurnDiscipline {sessionId : SessionId} {log : List EventEnvelope}
    (h : SessionAggregate.rehydrate sessionId log = .ok s) : ContextTurnDiscipline log s := by
  refine FallibleRun.run_history (P := ContextTurnDiscipline)
    ⟨turnsDisciplined_empty sessionId, by simp [BindingsLogged, SessionAggregate.empty],
      by simp [StartsAdjacent]⟩ (fun xs m event t hm inv step => ?_) h
  obtain ⟨fits, u, hu, rfl⟩ := applyOne_eq_ok_iff.mp step
  have indexes := (rehydrate_represented hm).indexes
  have turns := turnsDisciplined_step inv.turns hu
  have bindings := bindingsLogged_step indexes inv.bindings hu
  exact ⟨⟨turns.ordered, turns.distinct, turns.bound⟩, bindings,
    startsAdjacent_step indexes (rehydrate_logged hm) inv.bindings fits inv.adjacent hu⟩

end AutoHarness
