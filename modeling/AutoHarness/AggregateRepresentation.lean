import AutoHarness.AggregateLog

namespace AutoHarness

open IndexedList

variable {s t : SessionAggregate} {event : EventEnvelope}

/-- The part of an attempt that is fixed when it is prepared. -/
structure AttemptOrigin where
  attemptId : AttemptId
  inputId : InputId
  model : ModelRef
  retryOf : Option AttemptId

def AttemptProjection.origin (a : AttemptProjection) : AttemptOrigin :=
  ⟨a.attemptId, a.inputId, a.model, a.retryOf⟩

def SessionAggregate.origins (s : SessionAggregate) : List AttemptOrigin :=
  s.attempts.map AttemptProjection.origin

theorem AttemptChange.origin_eq {id : AttemptId} {a b : AttemptProjection}
    (h : AttemptChange s event id a b) : b.origin = a.origin := by
  cases h <;> rfl

theorem ToolCallChange.identity_eq {id : ToolCallId} {c d : ToolCallProjection}
    (h : ToolCallChange s event id c d) : d.attemptId = c.attemptId ∧ d.call = c.call := by
  cases h <;> exact ⟨rfl, rfl⟩

/-- What a step adds to the identities of inputs, attempts and calls. -/
inductive Growth (s t : SessionAggregate) : Prop
  | none : t.admittedInputs = s.admittedInputs → t.admittedInputIds = s.admittedInputIds →
      t.origins = s.origins → t.isCreated = s.isCreated ∨ t.isCreated = true → Growth s t
  | input (input : AdmittedInput) : input.inputId ∉ s.admittedInputIds →
      input.promotedBy = .none → t.admittedInputs = s.admittedInputs ++ [input] →
      t.admittedInputIds = insert input.inputId s.admittedInputIds → t.origins = s.origins →
      t.isCreated = true → Growth s t
  | attempt (o : AttemptOrigin) (i : Nat) (input : AdmittedInput) : o.attemptId ∉ s.attemptIndexes →
      s.admittedInputs[i]? = some input → input.inputId = o.inputId →
      input.promotedBy = .none → o.retryOf = .none →
      t.admittedInputs = s.admittedInputs.set i { input with promotedBy := some o.attemptId } →
      t.admittedInputIds = s.admittedInputIds → t.origins = s.origins ++ [o] →
      t.isCreated = true → Growth s t
  | retry (o prior : AttemptOrigin) : o.attemptId ∉ s.attemptIndexes → prior ∈ s.origins →
      o.retryOf = some prior.attemptId → o.inputId = prior.inputId → o.model = prior.model →
      t.admittedInputs = s.admittedInputs → t.admittedInputIds = s.admittedInputIds →
      t.origins = s.origins ++ [o] → t.isCreated = true → Growth s t

/-- Both position caches are exact. -/
structure IndexesExact (s : SessionAggregate) : Prop where
  attempts : Indexes AttemptProjection.attemptId s.attempts s.attemptIndexes
  toolCalls : Indexes ToolCallProjection.toolCallId s.toolCalls s.toolCallIndexes

theorem indexesExact_step (h : IndexesExact s) (step : SessionStep s event t) :
    IndexesExact t := by
  cases step with
  | header change => cases change <;> exact ⟨h.attempts, h.toolCalls⟩
  | inputAdmitted => exact ⟨h.attempts, h.toolCalls⟩
  | attemptPrepared _ _ fresh => exact ⟨h.attempts.concat (x := .prepared ..) fresh, h.toolCalls⟩
  | retryPrepared _ _ fresh => exact ⟨h.attempts.concat (x := .prepared ..) fresh, h.toolCalls⟩
  | attemptChanged _ ha change ht =>
    rw [ht]
    have key := congrArg AttemptOrigin.attemptId change.origin_eq
    exact ⟨h.attempts.set ha key, h.toolCalls⟩
  | toolCallProposed _ _ fresh =>
    exact ⟨h.attempts, h.toolCalls.concat (x := .proposed ..) fresh⟩
  | toolCallChanged _ hc change =>
    have key := congrArg ToolCallSpec.toolCallId change.identity_eq.2
    exact ⟨h.attempts, h.toolCalls.set hc key⟩

theorem input_of_findIdx? {i : Nat} {inputId : InputId} {input : AdmittedInput}
    (hi : s.admittedInputs.findIdx? (fun input => input.inputId == inputId) = some i)
    (hin : s.admittedInputs[i]? = some input) : input.inputId = inputId := by
  obtain ⟨hlt, hp, -⟩ := List.findIdx?_eq_some_iff_getElem.mp hi
  rw [List.getElem?_eq_getElem hlt] at hin
  cases Option.some.inj hin
  simpa using hp

theorem step_growth (h : IndexesExact s) (step : SessionStep s event t) : Growth s t := by
  cases step with
  | header change =>
    cases change with
    | created => exact .none rfl rfl rfl (.inr rfl)
    | _ => exact .none rfl rfl rfl (.inl rfl)
  | inputAdmitted _ created fresh =>
    exact .input ⟨_, _, _, none⟩ fresh rfl rfl rfl rfl created
  | @attemptPrepared attemptId inputId model i input _ created fresh hi hin unpromoted =>
    exact .attempt ⟨attemptId, inputId, model, none⟩ i input fresh hin (input_of_findIdx? hi hin)
      unpromoted rfl rfl rfl List.map_append created
  | @retryPrepared attemptId inputId model priorId prior _ _ created fresh _ hprior _ hinput hmodel =>
    obtain ⟨hm, hid⟩ := h.attempts.find?_eq_some_iff.mp hprior
    refine .retry ⟨attemptId, inputId, model, some priorId⟩ prior.origin fresh
      (List.mem_map_of_mem hm) ?_ hinput.symm hmodel.symm rfl rfl
      List.map_append created
    exact congrArg some hid.symm
  | attemptChanged _ ha change ht =>
    subst ht
    exact .none rfl rfl (map_set_of_eq ha change.origin_eq) (.inl rfl)
  | toolCallProposed => exact .none rfl rfl rfl (.inl rfl)
  | toolCallChanged => exact .none rfl rfl rfl (.inl rfl)

/-- The identifiers of the admitted inputs are distinct and exactly the cached set. -/
structure InputsExact (s : SessionAggregate) : Prop where
  ids : s.admittedInputIds = (s.admittedInputs.map AdmittedInput.inputId).toFinset
  distinct : (s.admittedInputs.map AdmittedInput.inputId).Nodup
  admitted : ∀ o ∈ s.origins, o.inputId ∈ s.admittedInputIds

theorem inputsExact_growth (h : InputsExact s) (growth : Growth s t) : InputsExact t := by
  cases growth with
  | none inputs ids origins _ =>
    exact ⟨by rw [inputs, ids, h.ids], by rw [inputs]; exact h.distinct,
      by rw [origins, ids]; exact h.admitted⟩
  | input input fresh _ inputs ids origins _ =>
    refine ⟨?_, ?_, ?_⟩
    · simp [inputs, ids, h.ids, List.toFinset_append]
    · rw [h.ids, List.mem_toFinset] at fresh
      rw [inputs, List.map_append, List.nodup_append']
      exact ⟨h.distinct, by simp, by simpa using fresh⟩
    · intro o ho
      rw [origins] at ho
      rw [ids]
      exact Finset.mem_insert_of_mem (h.admitted o ho)
  | attempt o i input _ hin hid _ _ inputs ids origins _ =>
    have same : t.admittedInputs.map AdmittedInput.inputId =
        s.admittedInputs.map AdmittedInput.inputId := by
      rw [inputs]
      exact map_set_of_eq hin rfl
    refine ⟨by rw [ids, same, h.ids], by rw [same]; exact h.distinct, ?_⟩
    intro p hp
    rw [origins] at hp
    rw [ids]
    rcases List.mem_append.mp hp with hp | hp
    · exact h.admitted p hp
    · rw [List.mem_singleton.mp hp, ← hid, h.ids, List.mem_toFinset]
      exact List.mem_map_of_mem (List.mem_of_getElem? hin)
  | retry o prior _ hprior _ hinput _ inputs ids origins _ =>
    refine ⟨by rw [inputs, ids, h.ids], by rw [inputs]; exact h.distinct, ?_⟩
    intro p hp
    rw [origins] at hp
    rw [ids]
    rcases List.mem_append.mp hp with hp | hp
    · exact h.admitted p hp
    · rw [List.mem_singleton.mp hp, hinput]
      exact h.admitted prior hprior

/-- Every retry points to an earlier attempt with the same input and model. -/
def RetriesEarlier (origins : List AttemptOrigin) : Prop :=
  ∀ (i : Nat) (o : AttemptOrigin) (priorId : AttemptId),
    origins[i]? = some o → o.retryOf = some priorId →
    ∃ (j : Nat) (prior : AttemptOrigin), j < i ∧ origins[j]? = some prior ∧
      prior.attemptId = priorId ∧ prior.inputId = o.inputId ∧ prior.model = o.model

theorem RetriesEarlier.concat {origins : List AttemptOrigin} {o : AttemptOrigin}
    (h : RetriesEarlier origins)
    (new : ∀ priorId, o.retryOf = some priorId → ∃ prior ∈ origins,
      prior.attemptId = priorId ∧ prior.inputId = o.inputId ∧ prior.model = o.model) :
    RetriesEarlier (origins ++ [o]) := by
  intro i p priorId hp hretry
  rcases getElem?_concat_cases hp with ⟨rfl, rfl⟩ | hold
  · obtain ⟨prior, hm, hid, hinput, hmodel⟩ := new priorId hretry
    obtain ⟨j, hj⟩ := List.mem_iff_getElem?.mp hm
    have hlt := (List.getElem?_eq_some_iff.mp hj).1
    exact ⟨j, prior, hlt, getElem?_concat_of_some hj, hid, hinput, hmodel⟩
  · obtain ⟨j, prior, hlt, hj, rest⟩ := h i p priorId hold hretry
    exact ⟨j, prior, hlt, getElem?_concat_of_some hj, rest⟩

theorem retriesEarlier_growth (h : RetriesEarlier s.origins) (growth : Growth s t) :
    RetriesEarlier t.origins := by
  cases growth with
  | none _ _ origins _ => rw [origins]; exact h
  | input _ _ _ _ _ origins _ => rw [origins]; exact h
  | attempt o _ _ _ _ _ _ first _ _ origins _ =>
    rw [origins]
    exact h.concat fun priorId hretry => by rw [first] at hretry; cases hretry
  | retry o prior _ hprior hretry hinput hmodel _ _ origins _ =>
    rw [origins]
    refine h.concat fun priorId hp => ⟨prior, hprior, ?_, hinput.symm, hmodel.symm⟩
    exact Option.some.inj (hretry.symm.trans hp)

/-- An input was promoted by exactly the attempts that are no retry and use it. -/
def PromotionsExact (inputs : List AdmittedInput) (origins : List AttemptOrigin) : Prop :=
  ∀ input ∈ inputs, ∀ id, input.promotedBy = some id ↔
    ∃ o ∈ origins, o.attemptId = id ∧ o.inputId = input.inputId ∧ o.retryOf = none

theorem input_unique (h : InputsExact s) {i j : Nat} {a b : AdmittedInput}
    (ha : s.admittedInputs[i]? = some a) (hb : s.admittedInputs[j]? = some b)
    (hid : a.inputId = b.inputId) : i = j := by
  have hi := (List.getElem?_eq_some_iff.mp ha).1
  refine (List.getElem?_inj (by simpa using hi) h.distinct).mp ?_
  simp [ha, hb, hid]

theorem promotionsExact_growth (hi : InputsExact s)
    (h : PromotionsExact s.admittedInputs s.origins) (growth : Growth s t) :
    PromotionsExact t.admittedInputs t.origins := by
  cases growth with
  | none inputs _ origins _ => rw [inputs, origins]; exact h
  | input new fresh unpromoted inputs _ origins _ =>
    rw [inputs, origins]
    intro input hm id
    rcases List.mem_append.mp hm with hm | hm
    · exact h input hm id
    · -- no attempt can use an input that was not admitted before
      cases List.mem_singleton.mp hm
      constructor
      · intro hp
        rw [unpromoted] at hp
        cases hp
      · rintro ⟨o, ho, -, hinput, -⟩
        exact absurd (hinput ▸ hi.admitted o ho) fresh
  | attempt o i promoted _ hin hid unpromoted first inputs _ origins _ =>
    rw [inputs, origins]
    intro input hm id
    rcases mem_set_cases hm with rfl | ⟨j, hne, hj⟩
    · constructor
      · intro hp
        exact ⟨o, by simp, Option.some.inj hp, hid.symm, first⟩
      · rintro ⟨p, hp, hpid, hpinput, hpfirst⟩
        rcases List.mem_append.mp hp with hp | hp
        · have old := (h promoted (List.mem_of_getElem? hin) id).mpr ⟨p, hp, hpid, hpinput, hpfirst⟩
          rw [unpromoted] at old
          cases old
        · cases List.mem_singleton.mp hp
          exact congrArg some hpid
    · rw [h input (List.mem_of_getElem? hj) id]
      constructor
      · rintro ⟨p, hp, rest⟩
        exact ⟨p, List.mem_append_left _ hp, rest⟩
      · rintro ⟨p, hp, hpid, hpinput, hpfirst⟩
        rcases List.mem_append.mp hp with hp | hp
        · exact ⟨p, hp, hpid, hpinput, hpfirst⟩
        · cases List.mem_singleton.mp hp
          exact absurd (input_unique hi hj hin (hpinput.symm.trans hid.symm)) hne
  | retry o prior _ _ hretry _ _ inputs _ origins _ =>
    rw [inputs, origins]
    intro input hm id
    rw [h input hm id]
    constructor
    · rintro ⟨p, hp, rest⟩
      exact ⟨p, List.mem_append_left _ hp, rest⟩
    · rintro ⟨p, hp, hpid, hpinput, hpfirst⟩
      rcases List.mem_append.mp hp with hp | hp
      · exact ⟨p, hp, hpid, hpinput, hpfirst⟩
      · cases List.mem_singleton.mp hp
        rw [hretry] at hpfirst
        cases hpfirst

theorem origin_at {i : Nat} {o : AttemptOrigin} (h : s.origins[i]? = some o) :
    ∃ a, s.attempts[i]? = some a ∧ a.origin = o := by
  simpa [SessionAggregate.origins] using h

/-- The cached fields of the aggregate agree with the vectors they summarize. -/
structure Represented (s : SessionAggregate) : Prop where
  indexes : IndexesExact s
  inputs : InputsExact s
  retries : RetriesEarlier s.origins
  promotions : PromotionsExact s.admittedInputs s.origins

theorem represented_empty (sessionId : SessionId) : Represented (.empty sessionId) where
  indexes := ⟨indexes_nil, indexes_nil⟩
  inputs := ⟨rfl, by simp [SessionAggregate.empty], by simp [SessionAggregate.empty,
    SessionAggregate.origins]⟩
  retries := by intro i o priorId h; simp [SessionAggregate.origins, SessionAggregate.empty] at h
  promotions := by intro input h; simp [SessionAggregate.empty] at h

theorem represented_step (h : Represented s) (step : SessionStep s event t) :
    Represented t := by
  have growth := step_growth h.indexes step
  exact ⟨indexesExact_step h.indexes step, inputsExact_growth h.inputs growth,
    retriesEarlier_growth h.retries growth, promotionsExact_growth h.inputs h.promotions growth⟩

theorem represented_record (h : Represented s) (event : EventEnvelope) :
    Represented (s.recordApplied event) :=
  ⟨⟨h.indexes.attempts, h.indexes.toolCalls⟩, ⟨h.inputs.ids, h.inputs.distinct, h.inputs.admitted⟩,
    h.retries, h.promotions⟩

theorem rehydrate_represented {sessionId : SessionId} {log : List EventEnvelope}
    (h : SessionAggregate.rehydrate sessionId log = .ok s) : Represented s :=
  rehydrate_invariant (represented_empty sessionId) (fun _ _ _ hs step => represented_step hs step)
    (fun _ event hs => represented_record hs event) h

/-- Caches, sequence counter, retry links and promotions of every rehydrated session. -/
theorem rehydrate_representation_exact {sessionId : SessionId} {log : List EventEnvelope}
    (h : SessionAggregate.rehydrate sessionId log = .ok s) :
    (∀ id i, s.attemptIndexes.lookup id = some i ↔
      ∃ a, s.attempts[i]? = some a ∧ a.attemptId = id) ∧
    (∀ id i, s.toolCallIndexes.lookup id = some i ↔
      ∃ c, s.toolCalls[i]? = some c ∧ c.call.toolCallId = id) ∧
    (∀ id, id ∈ s.admittedInputIds ↔ ∃ input ∈ s.admittedInputs, input.inputId = id) ∧
    (s.lastSequence.map SessionSequence.get = if log = [] then none else some log.length) ∧
    (∀ (i : Nat) (a : AttemptProjection) (priorId : AttemptId), s.attempts[i]? = some a →
      a.retryOf = some priorId →
      ∃ (j : Nat) (prior : AttemptProjection), j < i ∧ s.attempts[j]? = some prior ∧
        prior.attemptId = priorId ∧ prior.inputId = a.inputId ∧ prior.model = a.model) ∧
    (∀ input ∈ s.admittedInputs, ∀ id, input.promotedBy = some id →
      ∃ (i : Nat) (a : AttemptProjection), s.attempts[i]? = some a ∧ a.attemptId = id ∧
        a.inputId = input.inputId ∧ a.retryOf = none ∧
        ∀ (j : Nat) (b : AttemptProjection), s.attempts[j]? = some b →
          b.inputId = input.inputId → b.retryOf = none → j = i) := by
  have represented := rehydrate_represented h
  refine ⟨represented.indexes.attempts, represented.indexes.toolCalls, ?_,
    (rehydrate_logged h).lastSequence_eq, ?_, ?_⟩
  · intro id
    rw [represented.inputs.ids, List.mem_toFinset, List.mem_map]
  · intro i a priorId ha hretry
    obtain ⟨j, o, hlt, ho, hid, hinput, hmodel⟩ :=
      represented.retries i a.origin priorId (by simp [SessionAggregate.origins, ha]) hretry
    obtain ⟨prior, hprior, rfl⟩ := origin_at ho
    exact ⟨j, prior, hlt, hprior, hid, hinput, hmodel⟩
  · intro input hm id hp
    obtain ⟨o, ho, hid, hinput, hfirst⟩ := (represented.promotions input hm id).mp hp
    obtain ⟨i, hi⟩ := List.mem_iff_getElem?.mp ho
    obtain ⟨a, ha, rfl⟩ := origin_at hi
    refine ⟨i, a, ha, hid, hinput, hfirst, ?_⟩
    intro j b hb hbinput hbfirst
    -- a second ordinary attempt on the input would have promoted it too
    have same := (represented.promotions input hm b.attemptId).mpr
      ⟨b.origin, List.mem_map_of_mem (List.mem_of_getElem? hb), rfl, hbinput, hbfirst⟩
    have hba : b.attemptId = a.attemptId := by
      rw [hp] at same
      exact (Option.some.inj same).symm.trans hid.symm
    exact represented.indexes.attempts.position_unique hb ha hba

theorem rehydrate_representation_exact_sample :
    ∃ s, SessionAggregate.rehydrate sampleSession sampleLog = .ok s ∧
      ∀ input ∈ s.admittedInputs, ∀ id, input.promotedBy = some id →
        ∃ (i : Nat) (a : AttemptProjection), s.attempts[i]? = some a ∧ a.attemptId = id := by
  obtain ⟨s, hs⟩ := sampleLog_accepted
  refine ⟨s, hs, fun input hm id hp => ?_⟩
  obtain ⟨i, a, ha, hid, -⟩ := (rehydrate_representation_exact hs).2.2.2.2.2 input hm id hp
  exact ⟨i, a, ha, hid⟩

end AutoHarness
