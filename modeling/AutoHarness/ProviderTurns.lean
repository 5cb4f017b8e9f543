import AutoHarness.ConversationHistory

namespace AutoHarness

open IndexedList

variable {s t : SessionAggregate} {event : EventEnvelope}

/-- What the provider said in an attempt, with the provider turn it was said in. -/
inductive Utterance where
  | text (turn : UInt32) (delta : ResponseText)
  | toolCall (turn : UInt32) (toolCallId : ToolCallId)
deriving DecidableEq

def Utterance.text? : Utterance → Option ResponseText
  | .text _ delta => some delta
  | .toolCall _ _ => none

def Utterance.toolCallId? : Utterance → Option ToolCallId
  | .text _ _ => none
  | .toolCall _ toolCallId => some toolCallId

/-- The current turn of an attempt, and what was said in it so far. -/
structure ProviderTurns where
  turn : UInt32
  said : List Utterance

def ProviderTurns.hear (attemptId : AttemptId) (heard : ProviderTurns) :
    EventPayload → ProviderTurns
  | .runTurnStarted other turn => if other = attemptId then ⟨turn, heard.said⟩ else heard
  | .attemptTextAppended other delta =>
    if other = attemptId then ⟨heard.turn, heard.said ++ [.text heard.turn delta]⟩ else heard
  | .toolCallProposed other call =>
    if other = attemptId then ⟨heard.turn, heard.said ++ [.toolCall heard.turn call.toolCallId]⟩
    else heard
  | _ => heard

/-- The provider turns of an attempt as the log tells them. -/
def providerTurns (attemptId : AttemptId) (log : List EventEnvelope) : ProviderTurns :=
  log.foldl (fun heard event => heard.hear attemptId event.payload) ⟨0, []⟩

theorem providerTurns_concat (attemptId : AttemptId) (log : List EventEnvelope)
    (event : EventEnvelope) :
    providerTurns attemptId (log ++ [event]) =
      (providerTurns attemptId log).hear attemptId event.payload := by
  rw [providerTurns, List.foldl_append]
  rfl

/-- The attempt whose provider an event quotes. -/
def EventPayload.speaker? : EventPayload → Option AttemptId
  | .runTurnStarted attemptId _ | .attemptTextAppended attemptId _
  | .toolCallProposed attemptId _ => some attemptId
  | _ => none

theorem hear_other {attemptId : AttemptId} {heard : ProviderTurns} {payload : EventPayload}
    (other : payload.speaker? ≠ some attemptId) : heard.hear attemptId payload = heard := by
  cases payload with
  | runTurnStarted id turn | attemptTextAppended id delta | toolCallProposed id call =>
    have apart : id ≠ attemptId := fun same => other (congrArg some same)
    exact if_neg apart
  | _ => rfl

/-- The attempt holds what was said in it. -/
structure Recounts (heard : ProviderTurns) (a : AttemptProjection) : Prop where
  turn : a.turnsStarted = heard.turn
  text : a.text = heard.said.filterMap Utterance.text?

theorem AttemptChange.recounts {id : AttemptId} {a b : AttemptProjection} {heard : ProviderTurns}
    (h : AttemptChange s event id a b) (before : Recounts heard a) :
    Recounts (heard.hear id event.payload) b := by
  cases h with
  | textAppended hp =>
    rw [hp, ProviderTurns.hear, if_pos rfl]
    refine ⟨before.turn, ?_⟩
    rw [List.filterMap_append, ← before.text]
    rfl
  | turnStarted hp =>
    rw [hp, ProviderTurns.hear, if_pos rfl]
    exact ⟨rfl, before.text⟩
  | started hp | usageRecorded hp | cancellationRequested hp | completed hp | failed hp
  | cancelled hp | markedUnknown hp | budgetConfigured hp | contextBound hp | paused hp
  | resumed hp =>
    rw [hp]
    exact ⟨before.turn, before.text⟩

theorem AttemptChange.speaker {id other : AttemptId} {a b : AttemptProjection}
    (h : AttemptChange s event id a b) (apart : other ≠ id) :
    event.payload.speaker? ≠ some other := by
  cases h with
  | textAppended hp | turnStarted hp =>
    rw [hp]
    exact fun same => apart (Option.some.inj same).symm
  | started hp | usageRecorded hp | cancellationRequested hp | completed hp | failed hp
  | cancelled hp | markedUnknown hp | budgetConfigured hp | contextBound hp | paused hp
  | resumed hp =>
    rw [hp]
    exact (Option.some_ne_none other).symm

theorem AttemptChange.no_call {id other : AttemptId} {a b : AttemptProjection}
    {heard : ProviderTurns} (h : AttemptChange s event id a b) :
    (heard.hear other event.payload).said.filterMap Utterance.toolCallId? =
      heard.said.filterMap Utterance.toolCallId? := by
  cases h with
  | textAppended hp =>
    rw [hp, ProviderTurns.hear]
    split
    · simp [Utterance.toolCallId?]
    · rfl
  | turnStarted hp =>
    rw [hp, ProviderTurns.hear]
    split <;> rfl
  | started hp | usageRecorded hp | cancellationRequested hp | completed hp | failed hp
  | cancelled hp | markedUnknown hp | budgetConfigured hp | contextBound hp | paused hp
  | resumed hp => rw [hp]; rfl

/-- The identities of the calls that an attempt proposed. -/
def SessionAggregate.callsOf (s : SessionAggregate) (attemptId : AttemptId) : List ToolCallId :=
  (s.toolCalls.filter fun call => call.attemptId == attemptId).map fun call => call.call.toolCallId

/-- Every attempt holds what the log tells of its provider, and only prepared attempts are heard. -/
structure TurnsRecounted (log : List EventEnvelope) (s : SessionAggregate) : Prop where
  attempts : ∀ id a, s.attempt id = some a → Recounts (providerTurns id log) a
  silent : ∀ id, s.attempt id = none → providerTurns id log = ⟨0, []⟩
  calls : ∀ id, s.callsOf id = (providerTurns id log).said.filterMap Utterance.toolCallId?

theorem turnsRecounted_of_silent {log : List EventEnvelope} (h : TurnsRecounted log s)
    (silent : event.payload.speaker? = none) (attempts : ∀ id, t.attempt id = s.attempt id)
    (calls : ∀ id, t.callsOf id = s.callsOf id) : TurnsRecounted (log ++ [event]) t := by
  have same : ∀ id, providerTurns id (log ++ [event]) = providerTurns id log := by
    intro id
    rw [providerTurns_concat]
    exact hear_other (by rw [silent]; exact (Option.some_ne_none id).symm)
  refine ⟨fun id a found => ?_, fun id absent => ?_, fun id => ?_⟩
  · rw [same]
    exact h.attempts id a ((attempts id).symm.trans found)
  · rw [same]
    exact h.silent id ((attempts id).symm.trans absent)
  · rw [same, calls]
    exact h.calls id

theorem turnsRecounted_prepared {log : List EventEnvelope} (h : TurnsRecounted log s)
    (hi : IndexesExact s) {attemptId : AttemptId} {inputId : InputId} {model : ModelRef}
    {retryOf : Option AttemptId} (hp : event.payload = .attemptPrepared attemptId inputId model retryOf)
    (fresh : attemptId ∉ s.attemptIndexes) (inputs : List AdmittedInput) :
    TurnsRecounted (log ++ [event]) { s with
      admittedInputs := inputs
      attempts := s.attempts ++ [.prepared attemptId inputId model retryOf]
      attemptIndexes := s.attemptIndexes.insert attemptId s.attempts.length } := by
  have same : ∀ id, providerTurns id (log ++ [event]) = providerTurns id log := by
    intro id
    rw [providerTurns_concat, hp]
    rfl
  have unknown : s.attempt attemptId = none := by
    simp [SessionAggregate.attempt, find?, Finmap.lookup_eq_none.mpr fresh]
  refine ⟨fun id a found => ?_, fun id absent => ?_, fun id => ?_⟩
  · rw [same]
    by_cases new : id = attemptId
    · rw [new] at found ⊢
      cases Option.some.inj ((find?_concat_self ..).symm.trans found)
      rw [h.silent _ unknown]
      exact ⟨rfl, rfl⟩
    · exact h.attempts id a ((hi.attempts.find?_concat_ne _ new).symm.trans found)
  · rw [same]
    by_cases new : id = attemptId
    · rw [new]
      exact h.silent _ unknown
    · exact h.silent id ((hi.attempts.find?_concat_ne _ new).symm.trans absent)
  · rw [same]
    exact h.calls id

theorem callsOf_set {i : Nat} {c d : ToolCallProjection} (hc : s.toolCalls[i]? = some c)
    (same : d.attemptId = c.attemptId ∧ d.call = c.call) (id : AttemptId) :
    SessionAggregate.callsOf { s with toolCalls := s.toolCalls.set i d } id = s.callsOf id := by
  have pairs : ∀ calls : List ToolCallProjection,
      (calls.filter fun call => call.attemptId == id).map (fun call => call.call.toolCallId) =
        ((calls.map fun call => (call.attemptId, call.call.toolCallId)).filter
          fun pair => pair.1 == id).map Prod.snd := by
    intro calls
    rw [List.filter_map, List.map_map]
    rfl
  unfold SessionAggregate.callsOf
  rw [pairs, pairs, map_set_of_eq hc (by rw [same.1, same.2])]

theorem turnsRecounted_step {log : List EventEnvelope} (hi : IndexesExact s)
    (h : TurnsRecounted log s) (step : SessionStep s event t) :
    TurnsRecounted (log ++ [event]) t := by
  cases step with
  | header change =>
    cases change with
    | created hp | renamed hp | archived hp | unarchived hp | modelSelected hp =>
      exact turnsRecounted_of_silent h (by rw [hp]; rfl) (fun _ => rfl) fun _ => rfl
  | inputAdmitted hp =>
    exact turnsRecounted_of_silent h (by rw [hp]; rfl) (fun _ => rfl) fun _ => rfl
  | attemptPrepared hp _ fresh | retryPrepared hp _ fresh =>
    exact turnsRecounted_prepared h hi hp fresh _
  | @attemptChanged id i a b _ hid ha change ht =>
    subst ht
    refine ⟨fun other c found => ?_, fun other absent => ?_, fun other => ?_⟩
    · rw [providerTurns_concat]
      by_cases own : other = id
      · rw [own] at found ⊢
        cases Option.some.inj ((find?_set_self hid ha).symm.trans found)
        exact change.recounts (h.attempts id a (attempt_of_lookup hid ha))
      · rw [hear_other (change.speaker own)]
        exact h.attempts other c ((hi.attempts.find?_set_ne hid own).symm.trans found)
    · have own : other ≠ id := by
        rintro rfl
        cases (find?_set_self hid ha).symm.trans absent
      rw [providerTurns_concat, hear_other (change.speaker own)]
      exact h.silent other ((hi.attempts.find?_set_ne hid own).symm.trans absent)
    · rw [providerTurns_concat, change.no_call]
      exact h.calls other
  | @toolCallProposed attemptId call a hp _ _ found =>
    refine ⟨fun other c known => ?_, fun other absent => ?_, fun other => ?_⟩
    · rw [providerTurns_concat, hp, ProviderTurns.hear]
      have before := h.attempts other c known
      split
      · refine ⟨before.turn, ?_⟩
        rw [List.filterMap_append, ← before.text]
        simp [Utterance.text?]
      · exact before
    · have own : other ≠ attemptId := by
        rintro rfl
        cases found.symm.trans absent
      rw [providerTurns_concat, hp, ProviderTurns.hear, if_neg (Ne.symm own)]
      exact h.silent other absent
    · rw [providerTurns_concat, hp, ProviderTurns.hear]
      have before := h.calls other
      unfold SessionAggregate.callsOf at before ⊢
      by_cases own : attemptId = other
      · simp [own, ToolCallProjection.proposed, before, Utterance.toolCallId?]
      · simp [own, ToolCallProjection.proposed, before]
  | toolCallChanged hid hold change =>
    refine turnsRecounted_of_silent h ?_ (fun _ => rfl) (callsOf_set hold change.identity_eq)
    cases change with
    | recorded hp | answered hp | started hp | completed hp | failed hp | denied hp
    | cancelled hp | markedUnknown hp => rw [hp]; rfl

theorem rehydrate_turnsRecounted {sessionId : SessionId} {log : List EventEnvelope}
    (h : SessionAggregate.rehydrate sessionId log = .ok s) : TurnsRecounted log s := by
  refine FallibleRun.run_history (P := TurnsRecounted) ⟨?_, fun _ _ => rfl, fun _ => rfl⟩
    (fun xs m event t hm inv step => ?_) h
  · simp [SessionAggregate.attempt, SessionAggregate.empty, find?]
  · obtain ⟨-, u, hu, rfl⟩ := applyOne_eq_ok_iff.mp step
    have next := turnsRecounted_step (rehydrate_represented hm).indexes inv hu
    exact ⟨next.attempts, next.silent, next.calls⟩

/-- The message holds text that was recorded in the turn. -/
def HistoryItem.SpokenIn (said : List Utterance) (turn : UInt32) (item : HistoryItem) : Prop :=
  (∃ attempt, item = .text attempt) ∧ ∃ delta, .text turn delta ∈ said

/-- The message belongs to the exchange of a call that was proposed in the turn. -/
def HistoryItem.ExchangedIn (said : List Utterance) (turn : UInt32) (item : HistoryItem) : Prop :=
  ∃ call, (item = .toolCall call ∨ item = .toolResult call) ∧
    .toolCall turn call.call.toolCallId ∈ said

/-- The first message may stand before the second. -/
def MayPrecede (said : List Utterance) (first second : HistoryItem) : Prop :=
  ∀ spoken called,
    (first.SpokenIn said spoken → second.ExchangedIn said called → spoken ≤ called) ∧
      (first.ExchangedIn said called → second.SpokenIn said spoken → called ≤ spoken)

/-- Text recorded in a turn after all the calls of the attempt. -/
def FinalAnswer (said : List Utterance) : Prop :=
  ∃ spoken delta, .text spoken delta ∈ said ∧
    ∀ called toolCallId, .toolCall called toolCallId ∈ said → called < spoken

/-- The messages of an attempt keep the order of its provider turns, and a final answer is last. -/
structure InTurnOrder (said : List Utterance) (x : AttemptProjection) (items : List HistoryItem) :
    Prop where
  ordered : items.Pairwise (MayPrecede said)
  answered : x.status = .completed → (∃ called toolCallId, .toolCall called toolCallId ∈ said) →
    FinalAnswer said → isBlank x.responseText = false → items.getLast? = some (.text x)

/-- No text was recorded in a turn after that of some call. -/
def SpeaksBeforeCalls (said : List Utterance) : Prop :=
  ∀ spoken delta called toolCallId, .text spoken delta ∈ said →
    .toolCall called toolCallId ∈ said → spoken ≤ called

theorem exchangeItems_not_spoken {said : List Utterance} {turn : UInt32} {item : HistoryItem}
    {call : ToolCallProjection} (member : item ∈ exchangeItems call) :
    ¬ item.SpokenIn said turn := by
  rintro ⟨⟨attempt, rfl⟩, -⟩
  unfold exchangeItems at member
  split at member <;> simp at member

theorem exchanges_mayPrecede (said : List Utterance) (calls : List ToolCallProjection) :
    (calls.flatMap exchangeItems).Pairwise (MayPrecede said) := by
  refine List.pairwise_of_forall_mem_list ?_
  intro first member second member' spoken called
  obtain ⟨call, -, member⟩ := List.mem_flatMap.mp member
  obtain ⟨call', -, member'⟩ := List.mem_flatMap.mp member'
  exact ⟨fun speaks => absurd speaks (exchangeItems_not_spoken member),
    fun _ speaks => absurd speaks (exchangeItems_not_spoken member')⟩

section Recounted

variable {log : List EventEnvelope} {x : AttemptProjection}

/-- Every call that the log tells of stands among the messages of its attempt. -/
theorem TurnsRecounted.exchanged (h : TurnsRecounted log s) {called : UInt32}
    {toolCallId : ToolCallId}
    (said : .toolCall called toolCallId ∈ (providerTurns x.attemptId log).said) :
    ∃ item ∈ (s.toolCalls.filter fun call => call.attemptId == x.attemptId).flatMap exchangeItems,
      item.ExchangedIn (providerTurns x.attemptId log).said called := by
  have listed : toolCallId ∈ s.callsOf x.attemptId := by
    rw [h.calls]
    exact List.mem_filterMap.mpr ⟨_, said, rfl⟩
  obtain ⟨call, owned, rfl⟩ := List.mem_map.mp listed
  exact ⟨.toolCall call, List.mem_flatMap.mpr ⟨call, owned, List.mem_cons_self⟩, call, .inl rfl, said⟩

theorem inTurnOrder_of_blank {said : List Utterance} (blank : isBlank x.responseText = true) :
    InTurnOrder said x (outputItems s x) := by
  refine ⟨?_, fun _ _ _ visible => absurd (visible.symm.trans blank) (by simp)⟩
  unfold outputItems
  rw [if_pos blank]
  exact exchanges_mayPrecede said _

theorem outputItems_of_visible (visible : isBlank x.responseText = false) :
    outputItems s x = .text x ::
      (s.toolCalls.filter fun call => call.attemptId == x.attemptId).flatMap exchangeItems := by
  unfold outputItems
  rw [if_neg (by simp [visible])]
  rfl

/-- The messages of one attempt are in turn order exactly when no visible text was recorded after
the turn of a call. -/
theorem TurnsRecounted.inTurnOrder_iff (h : TurnsRecounted log s) :
    InTurnOrder (providerTurns x.attemptId log).said x (outputItems s x) ↔
      isBlank x.responseText = true ∨ SpeaksBeforeCalls (providerTurns x.attemptId log).said := by
  constructor
  · intro order
    refine or_iff_not_imp_left.mpr fun visible => ?_
    rw [Bool.not_eq_true] at visible
    intro spoken delta called toolCallId text proposed
    obtain ⟨item, member, exchanged⟩ := h.exchanged proposed
    have ordered := order.ordered
    rw [outputItems_of_visible visible, List.pairwise_cons] at ordered
    exact (ordered.1 item member spoken called).1 ⟨⟨x, rfl⟩, delta, text⟩ exchanged
  · rintro (blank | before)
    · exact inTurnOrder_of_blank blank
    · by_cases blank : isBlank x.responseText = true
      · exact inTurnOrder_of_blank blank
      · rw [Bool.not_eq_true] at blank
        rw [outputItems_of_visible blank]
        refine ⟨?_, ?_⟩
        · rw [List.pairwise_cons]
          refine ⟨?_, exchanges_mayPrecede _ _⟩
          intro item member spoken called
          refine ⟨?_, ?_⟩
          · rintro ⟨-, delta, text⟩ ⟨call, -, proposed⟩
            exact before _ _ _ _ text proposed
          · obtain ⟨call, -, member⟩ := List.mem_flatMap.mp member
            exact fun _ speaks => absurd speaks (exchangeItems_not_spoken member)
        · rintro - ⟨called, toolCallId, proposed⟩ ⟨spoken, delta, text, later⟩ -
          have early := before _ _ _ _ text proposed
          have late := later _ _ proposed
          exact absurd early (UInt32.not_le.mpr late)

end Recounted

/-- The slice of a list that one element expands to. -/
theorem flatMap_slice {α β : Type} (expand : α → List β) {xs : List α} {x : α} (member : x ∈ xs) :
    ∃ before after, xs.flatMap expand = before ++ expand x ++ after := by
  obtain ⟨front, back, rfl⟩ := List.append_of_mem member
  refine ⟨front.flatMap expand, back.flatMap expand, ?_⟩
  rw [List.flatMap_append, List.flatMap_cons, List.append_assoc]

theorem output_attempt (represented : Represented s) {a x : AttemptProjection}
    {compactedThrough : Option SessionSequence}
    (part : .output x ∈ requestParts s a compactedThrough) : s.attempt x.attemptId = some x := by
  obtain ⟨input, -, answers⟩ := output_mem_requestParts.mp part
  have member := (mem_requestResponses.mp answers).1
  exact represented.indexes.attempts.find?_eq_some_iff.mpr ⟨member, rfl⟩

/-- A request repeats an attempt in the order of its provider turns exactly when none of its text
was recorded after the turn of one of its calls. -/
theorem request_turn_order_iff {sessionId : SessionId} {log : List EventEnvelope}
    (h : SessionAggregate.rehydrate sessionId log = .ok s) {floatBytes : UInt64 → Nat}
    {attemptId : AttemptId} {a x : AttemptProjection} {advertiseTools : Bool}
    {compactedThrough : Option SessionSequence} {request : ChatRequest}
    (found : s.attempt attemptId = some a)
    (built : buildRequestAfterCutoff floatBytes s attemptId advertiseTools compactedThrough =
      .ok request) (part : .output x ∈ requestParts s a compactedThrough) :
    x.text = (providerTurns x.attemptId log).said.filterMap Utterance.text? ∧
    ((∃ before own after, request.messages = before ++ own ++ after ∧
        (outputItems s x).mapM HistoryItem.message = .ok own ∧
        InTurnOrder (providerTurns x.attemptId log).said x (outputItems s x)) ↔
      isBlank x.responseText = true ∨
        SpeaksBeforeCalls (providerTurns x.attemptId log).said) := by
  have recounted := rehydrate_turnsRecounted h
  have known := output_attempt (rehydrate_represented h) part
  refine ⟨(recounted.attempts _ _ known).text, ?_⟩
  rw [← recounted.inTurnOrder_iff]
  constructor
  · rintro ⟨-, -, -, -, -, order⟩
    exact order
  · intro order
    obtain ⟨messages, tools, rendered, -, -, rfl⟩ :=
      (buildRequestAfterCutoff_eq_ok_iff found).mp built
    obtain ⟨front, back, split⟩ := flatMap_slice (HistoryPart.items s) part
    rw [requestParts_items] at split
    rw [split, List.mapM_append, List.mapM_append] at rendered
    obtain ⟨joined, joins, rendered⟩ := FallibleRun.bind_eq_ok_iff.mp rendered
    obtain ⟨before, -, joins⟩ := FallibleRun.bind_eq_ok_iff.mp joins
    obtain ⟨own, own_rendered, joins⟩ := FallibleRun.bind_eq_ok_iff.mp joins
    obtain ⟨after, -, rendered⟩ := FallibleRun.bind_eq_ok_iff.mp rendered
    cases Except.ok.inj joins
    cases Except.ok.inj rendered
    exact ⟨before, own, after, rfl, own_rendered, order⟩

section Sample

def spokenText : ResponseText := ⟨"The notes say so.", rfl⟩

/-- The provider speaks and then calls a tool, all in its first turn. -/
def spokenPayloads : List EventPayload :=
  [.sessionCreated, .modelSelected sampleModel,
    .inputAdmitted sampleInput samplePrompt .nextTurn,
    .attemptPrepared sampleAttempt sampleInput sampleModel none, .attemptStarted sampleAttempt,
    .contextTurnBound sampleAttempt 1 sampleContextTurn sampleHash,
    .runTurnStarted sampleAttempt 1, .attemptTextAppended sampleAttempt spokenText,
    .toolCallProposed sampleAttempt sampleCall]

theorem spokenPayloads_accepted :
    ∃ s a, SessionAggregate.rehydrate sampleSession (sampleEvents .first spokenPayloads) = .ok s ∧
      s.attempt sampleAttempt = some a ∧ a.attemptId = sampleAttempt ∧
      requestParts s a none = [.prompt ⟨sampleInput, samplePrompt, .nextTurn, some sampleAttempt⟩,
        .output a] ∧
      s.toolCalls.map blankOutput = [false] ∧
      (providerTurns sampleAttempt (sampleEvents .first spokenPayloads)).said =
        [.text 1 spokenText, .toolCall 1 sampleCall.toolCallId] :=
  ⟨_, _, rfl, rfl, rfl, rfl, rfl, rfl⟩

theorem request_turn_order_iff_spoken :
    ∃ s a request, SessionAggregate.rehydrate sampleSession
        (sampleEvents .first spokenPayloads) = .ok s ∧
      buildRequestAfterCutoff (fun _ => 0) s sampleAttempt true none = .ok request ∧
      ∃ before own after, request.messages = before ++ own ++ after ∧
        (outputItems s a).mapM HistoryItem.message = .ok own ∧
        InTurnOrder (providerTurns sampleAttempt (sampleEvents .first spokenPayloads)).said a
          (outputItems s a) := by
  obtain ⟨s, a, replayed, found, key, parts, blanks, said⟩ := spokenPayloads_accepted
  have visible : ∀ call ∈ s.toolCalls, Contributes s a none call.attemptId → blankOutput call = false := by
    intro call listed _
    have listed := List.mem_map_of_mem (f := blankOutput) listed
    rw [blanks] at listed
    exact List.mem_singleton.mp listed
  obtain ⟨request, built⟩ :=
    (request_built_iff replayed found (fun _ => 0) true none).mpr visible
  have part : .output a ∈ requestParts s a none := by
    rw [parts]
    exact List.mem_cons_of_mem _ List.mem_cons_self
  have early : SpeaksBeforeCalls
      (providerTurns a.attemptId (sampleEvents .first spokenPayloads)).said := by
    rw [key, said]
    intro spoken delta called toolCallId text proposed
    simp only [List.mem_cons, Utterance.text.injEq, Utterance.toolCall.injEq, reduceCtorEq,
      List.not_mem_nil, or_false, false_or] at text proposed
    rw [text.1, proposed.1]
    exact UInt32.le_refl 1
  have order := (request_turn_order_iff replayed found built part).2.mpr (.inr early)
  rw [key] at order
  exact ⟨s, a, request, replayed, built, order⟩

def longId (kind : IdentifierKind) : Nat → Identifier kind
  | 10 => ⟨"id-10", rfl⟩
  | 11 => ⟨"id-11", rfl⟩
  | 12 => ⟨"id-12", rfl⟩
  | 13 => ⟨"id-13", rfl⟩
  | 14 => ⟨"id-14", rfl⟩
  | 15 => ⟨"id-15", rfl⟩
  | 16 => ⟨"id-16", rfl⟩
  | 17 => ⟨"id-17", rfl⟩
  | n => sampleId kind n

/-- A log of the sample session with up to seventeen events. -/
def longEvents (sequence : SessionSequence) : List EventPayload → List EventEnvelope
  | [] => []
  | payload :: rest =>
    .newV1 (longId _ sequence.get) sampleSession sequence ⟨0⟩
        (.command (longId _ sequence.get)) sampleCorrelation payload ::
      longEvents (sequence.checkedNext.getD sequence) rest

/-- The provider calls a tool in its first turn and answers in its second. -/
def twoTurnPayloads : List EventPayload :=
  [.sessionCreated, .modelSelected sampleModel,
    .inputAdmitted sampleInput samplePrompt .nextTurn,
    .attemptPrepared sampleAttempt sampleInput sampleModel none, .attemptStarted sampleAttempt,
    .contextTurnBound sampleAttempt 1 sampleContextTurn sampleHash,
    .runTurnStarted sampleAttempt 1, .toolCallProposed sampleAttempt sampleCall,
    .toolCallCancelled sampleCall.toolCallId, .attemptPausedForTools sampleAttempt,
    .attemptResumedAfterTools sampleAttempt,
    .contextTurnBound sampleAttempt 2 ⟨"context-2", rfl⟩ sampleHash,
    .runTurnStarted sampleAttempt 2, .attemptTextAppended sampleAttempt spokenText,
    .attemptCompleted sampleAttempt, .inputAdmitted secondInput secondPrompt .nextTurn,
    .attemptPrepared secondAttempt secondInput sampleModel none]

def twoTurnMessages : List ChatMessage :=
  [.text .user ⟨samplePrompt.value, samplePrompt.nonblank⟩,
    .text .assistant ⟨spokenText.value, by decide⟩,
    .toolCall ⟨sampleCall.providerCallId, sampleCall.toolName, sampleCall.arguments⟩,
    .toolResult sampleCall.providerCallId sampleCall.toolName
      ⟨"Tool execution was cancelled", by decide⟩,
    .text .user ⟨secondPrompt.value, secondPrompt.nonblank⟩]

theorem twoTurnPayloads_accepted :
    ∃ s a x call, SessionAggregate.rehydrate sampleSession
        (longEvents .first twoTurnPayloads) = .ok s ∧
      s.attempt secondAttempt = some a ∧
      requestParts s a none =
        [.prompt ⟨sampleInput, samplePrompt, .nextTurn, some sampleAttempt⟩, .output x,
          .prompt ⟨secondInput, secondPrompt, .nextTurn, some secondAttempt⟩] ∧
      (s.toolCalls.filter fun call => call.attemptId == x.attemptId).flatMap exchangeItems =
        [.toolCall call, .toolResult call] ∧
      a.model = sampleModel ∧ x.attemptId = sampleAttempt ∧ x.status = .completed ∧
      x.text = [spokenText] ∧ call.call = sampleCall ∧ call.status = .cancelled ∧
      (providerTurns sampleAttempt (longEvents .first twoTurnPayloads)).said =
        [.toolCall 1 sampleCall.toolCallId, .text 2 spokenText] := by
  refine ⟨_, _, _, _, rfl, rfl, rfl, rfl, ?_⟩
  exact ⟨rfl, rfl, rfl, rfl, rfl, rfl, rfl⟩

/-- The final answer of the attempt stands before the exchange it answers. -/
theorem final_answer_before_exchange :
    ∃ s a x request, SessionAggregate.rehydrate sampleSession
        (longEvents .first twoTurnPayloads) = .ok s ∧ s.attempt secondAttempt = some a ∧
      buildRequestAfterCutoff (fun _ => 0) s secondAttempt false none = .ok request ∧
      request.messages = twoTurnMessages ∧ .output x ∈ requestParts s a none ∧
      x.status = .completed ∧
      ¬ InTurnOrder (providerTurns x.attemptId (longEvents .first twoTurnPayloads)).said x
        (outputItems s x) := by
  obtain ⟨tools, advertised⟩ := definitions_advertised fun _ => 0
  obtain ⟨s, a, x, call, replayed, found, parts, exchanged, model, key, completed, text, spec,
    status, said⟩ := twoTurnPayloads_accepted
  have spoken : x.responseText = spokenText.value := by
    rw [AttemptProjection.responseText, text]
    exact String.empty_append
  have visible : isBlank x.responseText = false := by
    rw [spoken]
    decide
  have items := outputItems_of_visible (s := s) visible
  rw [exchanged] at items
  have rendered : (requestItems s a none).mapM HistoryItem.message = .ok twoTurnMessages := by
    rw [← requestParts_items, parts]
    simp only [List.flatMap_cons, List.flatMap_nil, HistoryPart.items, items, List.cons_append,
      List.nil_append, List.append_nil]
    simp only [List.mapM_cons, List.mapM_nil, HistoryItem.message, spoken, spec, toolResultContent,
      status]
    rfl
  refine ⟨s, a, x, ⟨sampleModel.modelId, twoTurnMessages, none, []⟩, replayed, found, ?_, rfl, ?_,
    completed, ?_⟩
  · rw [buildRequestAfterCutoff_eq_ok_iff found]
    exact ⟨_, tools, rendered, advertised, by simp [twoTurnMessages], by rw [model]; rfl⟩
  · rw [parts]
    exact List.mem_cons_of_mem _ List.mem_cons_self
  · rw [key, said, items]
    intro order
    have final : FinalAnswer
        [.toolCall 1 sampleCall.toolCallId, .text 2 spokenText] := by
      refine ⟨2, spokenText, by simp, ?_⟩
      intro called toolCallId proposed
      simp only [List.mem_cons, Utterance.toolCall.injEq, reduceCtorEq, List.not_mem_nil,
        or_false] at proposed
      rw [proposed.1]
      decide
    have last := order.answered completed ⟨1, _, List.mem_cons_self⟩ final visible
    cases last

end Sample

end AutoHarness
