import AutoHarness.CompactionAgreement
import AutoHarness.KeyedRows
import AutoHarness.ProjectionReads
import AutoHarness.RequestContinuation
import AutoHarness.SqliteEngine

namespace AutoHarness

open FallibleRun (bind_eq_ok_iff run)
open IndexedList
open KeyedRows
open KeyedTable (alter RowMap)

/-- The state under which the store keeps an attempt. -/
def AttemptStatus.stored : AttemptStatus → AttemptState
  | .prepared => .prepared
  | .inFlight | .awaitingTools | .cancellationRequested => .inFlight
  | .completed => .completed
  | .failed => .failed
  | .cancelled => .cancelled
  | .unknown => .unknown

structure SessionRow.Shows (row : SessionRow) (s : SessionAggregate) : Prop where
  status : row.status = if s.isArchived then .archived else .active
  title : row.title = s.title
  selectedModel : row.selectedModel = s.selectedModel
  lastSequence : row.lastSequence = s.lastSequenceValue

structure InputRow.Shows (k : SessionId) (row : InputRow) (input : AdmittedInput) : Prop where
  session : row.sessionId = k
  inputId : row.inputId = input.inputId
  prompt : row.prompt = input.prompt
  deliveryMode : row.deliveryMode = input.deliveryMode
  state : row.state = if input.promotedBy.isSome then .promoted else .admitted

/-- A row holds what the session knows of an attempt. A request of cancellation is a column of its
own until the attempt is settled. -/
structure AttemptRow.Shows (k : SessionId) (row : AttemptRow) (a : AttemptProjection) : Prop where
  session : row.sessionId = k
  attemptId : row.attemptId = a.attemptId
  inputId : row.inputId = a.inputId
  model : row.model = a.model
  retryOf : row.retryOf = a.retryOf
  state : row.state = a.status.stored
  startedAt : row.startedAt = a.startedAt
  usage : row.usage = a.usage
  failure : row.failure = a.failure
  cancellation : a.status.isSettled = false →
    row.cancellationRequestedAt.isSome = decide (a.status = .cancellationRequested)
  unsettled : a.status.isSettled = false → a.failure = none

variable {s t : SessionAggregate} {event : EventEnvelope} {k : SessionId}

section Attempts

variable {row : AttemptRow} {a b : AttemptProjection} {id : AttemptId}

/-- A row that an event does not name stays. -/
theorem AttemptRow.step_of_ne
    (apart : ∀ column, event.payload.attemptColumn? ≠ some (column, row.attemptId)) :
    row.step event = row := by
  have miss {attemptId : AttemptId} {p : AttemptRow → Bool} {f : RowMap AttemptRow.attemptId}
      {column : AttemptColumn} (names : event.payload.attemptColumn? = some (column, attemptId)) :
      alter (AttemptRow.isAt event attemptId p) f row = row := by
    refine if_neg fun here => apart column ?_
    simp only [AttemptRow.isAt, Bool.and_eq_true, decide_eq_true_eq] at here
    rw [here.1.2]
    exact names
  unfold AttemptRow.step AttemptRow.settleStep
  split
  case h_8 => rfl
  all_goals
    rename_i payload
    rw [payload] at miss
    exact miss rfl

theorem EventEnvelope.attemptRow?_of_ne
    (new : ∀ attemptId, event.payload.attemptColumn? ≠ some (.prepared, attemptId)) :
    event.attemptRow? = none := by
  unfold EventEnvelope.attemptRow?
  split
  next attemptId _ _ _ payload => exact absurd (by rw [payload]; rfl) (new attemptId)
  next => rfl

/-- The row of the attempt that an event settles. -/
theorem AttemptRow.Shows.settled {state : AttemptState} {failure : Option AttemptFailure}
    {status : AttemptStatus} (h : row.Shows k a) (own : event.sessionId = k)
    (hit : state.settles row = true) (same : status.stored = state)
    (ends : status.isSettled = true) (fails : failure = b.failure)
    (b_eq : b = { a with
      status := status, failure := b.failure, completedSequence := b.completedSequence }) :
    (row.settleStep event a.attemptId state failure).Shows k b := by
  have here : AttemptRow.isAt event a.attemptId state.settles row = true := by
    simp [AttemptRow.isAt, h.session, own, h.attemptId, hit]
  unfold AttemptRow.settleStep alter
  rw [if_pos here, b_eq]
  refine { h with state := same.symm, failure := fails, cancellation := ?_, unsettled := ?_ }
  all_goals
    intro going
    rw [ends] at going
    cases going

/-- The row of an attempt follows what happens to it. -/
theorem AttemptChange.shown (change : AttemptChange s event id a b) (own : event.sessionId = k)
    (h : row.Shows k a) (here : a.attemptId = id) : (row.step event).Shows k b := by
  subst here
  have at_ {p : AttemptRow → Bool} (hit : p row = true) :
      AttemptRow.isAt event a.attemptId p row = true := by
    simp [AttemptRow.isAt, h.session, own, h.attemptId, hit]
  have state := h.state
  have cancellation := h.cancellation
  have unsettled := h.unsettled
  cases change with
  | started hp hs =>
    rw [List.mem_singleton.mp hs] at state cancellation unsettled
    have same : row.step event = (AttemptRow.start event).apply row := by
      simp only [AttemptRow.step, hp, alter]
      exact if_pos (at_ (decide_eq_true state))
    rw [same]
    exact { h with
      state := rfl, startedAt := rfl, cancellation := fun _ => cancellation rfl
      unsettled := fun _ => unsettled rfl }
  | textAppended hp hs | budgetConfigured hp hl hs | contextBound hp hc hf hs
  | turnStarted hp hs =>
    have same : row.step event = row := by simp only [AttemptRow.step, hp]
    rw [same]
    exact { h with }
  | paused hp hs =>
    have same : row.step event = row := by simp only [AttemptRow.step, hp]
    rw [List.mem_singleton.mp hs] at state cancellation unsettled
    rw [same]
    exact { h with
      state := state, cancellation := fun _ => cancellation rfl, unsettled := fun _ => unsettled rfl }
  | resumed hp _ hs =>
    have same : row.step event = row := by simp only [AttemptRow.step, hp]
    rw [List.mem_singleton.mp hs] at state cancellation unsettled
    rw [same]
    exact { h with
      state := state, cancellation := fun _ => cancellation rfl, unsettled := fun _ => unsettled rfl }
  | @usageRecorded usage hp hs =>
    have flying : row.state = .inFlight := by
      rw [state]
      rcases List.mem_cons.mp hs with hs | hs
      · rw [hs]
        rfl
      · rw [List.mem_singleton.mp hs]
        rfl
    have same : row.step event = (AttemptRow.recordUsage event usage).apply row := by
      simp only [AttemptRow.step, hp, alter]
      exact if_pos (at_ (decide_eq_true flying))
    rw [same]
    exact { h with usage := rfl }
  | cancellationRequested hp hs =>
    have open_ : a.status.stored = .inFlight ∧ a.status.isSettled = false ∧
        a.status ≠ .cancellationRequested := by
      rcases List.mem_cons.mp hs with hs | hs
      · rw [hs]
        exact ⟨rfl, rfl, by decide⟩
      · rw [List.mem_singleton.mp hs]
        exact ⟨rfl, rfl, by decide⟩
    have flying : row.state = .inFlight := state.trans open_.1
    have fresh : row.cancellationRequestedAt.isNone = true := by
      have none := cancellation open_.2.1
      rw [decide_eq_false open_.2.2] at none
      simpa using none
    have same : row.step event = (AttemptRow.requestCancellation event).apply row := by
      simp only [AttemptRow.step, hp, alter]
      exact if_pos (at_ (by simp [flying, fresh]))
    rw [same]
    exact { h with
      state := flying, cancellation := fun _ => rfl, unsettled := fun _ => unsettled open_.2.1 }
  | completed hp _ hs =>
    have open_ : a.status.stored = .inFlight ∧ a.status.isSettled = false := by
      simp only [List.mem_cons, List.not_mem_nil, or_false] at hs
      rcases hs with hs | hs | hs <;> rw [hs] <;> exact ⟨rfl, rfl⟩
    simp only [AttemptRow.step, hp]
    exact h.settled own (by simp [AttemptState.settles, state.trans open_.1]) rfl rfl
      (unsettled open_.2).symm rfl
  | failed hp _ hs =>
    have open_ : a.status.stored = .inFlight ∨ a.status.stored = .prepared := by
      simp only [List.mem_cons, List.not_mem_nil, or_false] at hs
      rcases hs with hs | hs | hs | hs <;> rw [hs]
      · exact .inr rfl
      all_goals exact .inl rfl
    simp only [AttemptRow.step, hp]
    refine h.settled own ?_ rfl rfl rfl rfl
    rcases open_ with open_ | open_ <;> simp [AttemptState.settles, state.trans open_]
  | cancelled hp _ hs =>
    rw [List.mem_singleton.mp hs] at state unsettled
    simp only [AttemptRow.step, hp]
    exact h.settled own (by simp [AttemptState.settles, state, AttemptStatus.stored]) rfl rfl
      (unsettled rfl).symm rfl
  | markedUnknown hp _ hs =>
    have open_ : a.status.stored = .inFlight ∧ a.status.isSettled = false := by
      simp only [List.mem_cons, List.not_mem_nil, or_false] at hs
      rcases hs with hs | hs <;> rw [hs] <;> exact ⟨rfl, rfl⟩
    simp only [AttemptRow.step, hp]
    exact h.settled own (by simp [AttemptState.settles, state.trans open_.1]) rfl rfl
      (unsettled open_.2).symm rfl

theorem AttemptChange.column (change : AttemptChange s event id a b) {column : AttemptColumn}
    {other : AttemptId} (names : event.payload.attemptColumn? = some (column, other)) :
    other = id ∧ column ≠ .prepared := by
  cases change <;> simp_all [EventPayload.attemptColumn?] <;>
    (obtain ⟨rfl, rfl⟩ := names; simp)

end Attempts

namespace SessionView

variable {v : SessionView}

theorem attempts_kept (silent : event.payload.attemptColumn? = none) :
    (v.step event).attempts = v.attempts := by
  have same : v.attempts.map (AttemptRow.step event) = v.attempts := by
    refine List.map_id'' (fun row => AttemptRow.step_of_ne fun column names => ?_) _
    rw [silent] at names
    cases names
  have none : event.attemptRow? = none :=
    EventEnvelope.attemptRow?_of_ne fun _ names => by rw [silent] at names; cases names
  rw [attempts_step, same, none, Option.toList_none, List.append_nil]

/-- The attempts of the view follow those of the session. -/
theorem attempts_shown (indexes : IndexesExact s) (own : event.sessionId = k)
    (h : List.Forall₂ (AttemptRow.Shows k) v.attempts s.attempts) (step : SessionStep s event t) :
    List.Forall₂ (AttemptRow.Shows k) (v.step event).attempts t.attempts := by
  have prepared {attemptId : AttemptId} {inputId : InputId} {model : ModelRef}
      {retryOf : Option AttemptId}
      (hp : event.payload = .attemptPrepared attemptId inputId model retryOf) :
      List.Forall₂ (AttemptRow.Shows k) (v.step event).attempts
        (s.attempts ++ [.prepared attemptId inputId model retryOf]) := by
    have kept : v.attempts.map (AttemptRow.step event) = v.attempts :=
      List.map_id'' (fun row => by simp only [AttemptRow.step, hp]) _
    have new : event.attemptRow? = some (.prepared event attemptId inputId model retryOf) := by
      simp only [EventEnvelope.attemptRow?, hp]
    rw [attempts_step, kept, new]
    exact forall₂_concat h ⟨own, rfl, rfl, rfl, rfl, rfl, rfl, rfl, rfl, fun _ => rfl, fun _ => rfl⟩
  cases step with
  | header change =>
    cases change with
    | created hp | renamed hp | archived hp | unarchived hp | modelSelected hp =>
      rw [attempts_kept (by rw [hp]; rfl)]
      exact h
  | inputAdmitted hp =>
    rw [attempts_kept (by rw [hp]; rfl)]
    exact h
  | attemptPrepared hp => exact prepared hp
  | retryPrepared hp => exact prepared hp
  | @attemptChanged id i a b _ hid ha change ht =>
    subst ht
    have none : event.attemptRow? = none :=
      EventEnvelope.attemptRow?_of_ne fun _ names => (change.column names).2 rfl
    have key := indexes.attempts.find?_key (attempt_of_lookup hid ha)
    rw [attempts_step, none, Option.toList_none, List.append_nil]
    refine forall₂_map_set h (fun row r found shows => ?_) fun j row r apart found shows => ?_
    · cases Option.some.inj (ha.symm.trans found)
      exact change.shown own shows key
    · have other : row.attemptId ≠ id := by
        intro same
        have position := indexes.attempts.position_unique ha found ?_
        · exact apart position.symm
        · rw [key, ← same, shows.attemptId]
      rw [AttemptRow.step_of_ne fun column names => other (change.column names).1]
      exact shows
  | toolCallProposed hp =>
    rw [attempts_kept (by rw [hp]; rfl)]
    exact h
  | toolCallChanged _ _ change =>
    have silent : event.payload.attemptColumn? = none := by
      cases change <;> simp_all [EventPayload.attemptColumn?]
    rw [attempts_kept silent]
    exact h

end SessionView

section Inputs

theorem InputRow.step_of_ne {row : InputRow} (apart : ∀ attemptId model retryOf,
    event.payload ≠ .attemptPrepared attemptId row.inputId model retryOf) : row.step event = row := by
  unfold InputRow.step
  split
  next attemptId inputId model retryOf payload =>
    refine if_neg fun here => apart attemptId model retryOf ?_
    have key := of_decide_eq_true here
    rw [show row.inputId = inputId from congrArg Prod.snd key]
    exact payload
  next => rfl

theorem InputRow.step_promoted {row : InputRow} {attemptId : AttemptId} {model : ModelRef}
    {retryOf : Option AttemptId} (own : row.sessionId = event.sessionId)
    (hp : event.payload = .attemptPrepared attemptId row.inputId model retryOf) :
    row.step event = (InputRow.promote event).apply row := by
  have key : row.key = (event.sessionId, row.inputId) := Prod.ext own rfl
  simp only [InputRow.step, hp, alter]
  exact if_pos (decide_eq_true key)

end Inputs

namespace SessionView

variable {v : SessionView}

/-- The inputs of the view follow those of the session. -/
theorem inputs_shown (represented : Represented s) (own : event.sessionId = k)
    (h : List.Forall₂ (InputRow.Shows k) v.inputs s.admittedInputs) (step : SessionStep s event t) :
    List.Forall₂ (InputRow.Shows k) (v.step event).inputs t.admittedInputs := by
  have kept (new : event.inputRow? = none) (silent : ∀ attemptId inputId model retryOf,
      event.payload ≠ .attemptPrepared attemptId inputId model retryOf) :
      (v.step event).inputs = v.inputs := by
    have same : v.inputs.map (InputRow.step event) = v.inputs :=
      List.map_id'' (fun row => InputRow.step_of_ne fun attemptId model retryOf =>
        silent attemptId row.inputId model retryOf) _
    rw [inputs_step, same, new, Option.toList_none, List.append_nil]
  cases step with
  | header change =>
    cases change with
    | created hp | renamed hp | archived hp | unarchived hp | modelSelected hp =>
      rw [kept (by simp only [EventEnvelope.inputRow?, hp]) (by simp [hp])]
      exact h
  | @inputAdmitted inputId prompt deliveryMode hp =>
    have same : v.inputs.map (InputRow.step event) = v.inputs :=
      List.map_id'' (fun row => InputRow.step_of_ne (by simp [hp])) _
    have new : event.inputRow? = some (.admitted event inputId prompt deliveryMode) := by
      simp only [EventEnvelope.inputRow?, hp]
    rw [inputs_step, same, new]
    exact forall₂_concat h ⟨own, rfl, rfl, rfl, rfl⟩
  | @attemptPrepared attemptId inputId model i input hp _ _ hi present =>
    have new : event.inputRow? = none := by simp only [EventEnvelope.inputRow?, hp]
    have id_eq : input.inputId = inputId := input_of_findIdx? hi present
    rw [inputs_step, new, Option.toList_none, List.append_nil]
    refine forall₂_map_set h (fun row r found shows => ?_) fun j row r apart found shows => ?_
    · cases Option.some.inj (present.symm.trans found)
      have named : row.inputId = inputId := shows.inputId.trans id_eq
      rw [InputRow.step_promoted (shows.session.trans own.symm) (by rw [named]; exact hp)]
      exact { shows with state := rfl }
    · have other : row.inputId ≠ inputId := by
        intro named
        have position := input_unique represented.inputs present found
          (id_eq.trans (named.symm.trans shows.inputId))
        exact apart position.symm
      rw [InputRow.step_of_ne (by simp [hp, other.symm])]
      exact shows
  | @retryPrepared attemptId inputId model priorId prior i hp _ _ _ hprior _ hinput =>
    have new : event.inputRow? = none := by simp only [EventEnvelope.inputRow?, hp]
    have listed : prior ∈ s.attempts :=
      (represented.indexes.attempts.find?_eq_some_iff.mp hprior).1
    rw [inputs_step, new, Option.toList_none, List.append_nil]
    refine List.forall₂_map_left_iff.mpr ?_
    refine List.forall₂_iff_get.mpr ⟨h.length_eq, fun j hr hs => ?_⟩
    have shows := (List.forall₂_iff_get.mp h).2 j hr hs
    by_cases named : (v.inputs.get ⟨j, hr⟩).inputId = inputId
    · rw [InputRow.step_promoted (shows.session.trans own.symm) (by rw [named]; exact hp)]
      obtain ⟨input, present, uses, promoted⟩ := represented.promoted listed
      have same : input = s.admittedInputs.get ⟨j, hs⟩ :=
        List.inj_on_of_nodup_map represented.inputs.distinct present (List.get_mem _ _)
          (uses.trans (hinput.trans (named.symm.trans shows.inputId)))
      rw [same] at promoted
      exact { shows with state := by rw [promoted]; rfl }
    · rw [InputRow.step_of_ne fun _ _ _ same =>
        named (EventPayload.attemptPrepared.inj (hp.symm.trans same)).2.1.symm]
      exact shows
  | @attemptChanged id i a b _ _ _ change ht =>
    subst ht
    rw [kept (by cases change <;> simp_all [EventEnvelope.inputRow?])
      (by cases change <;> simp_all)]
    exact h
  | toolCallProposed hp =>
    rw [kept (by simp only [EventEnvelope.inputRow?, hp]) (by simp [hp])]
    exact h
  | toolCallChanged _ _ change =>
    rw [kept (by cases change <;> simp_all [EventEnvelope.inputRow?])
      (by cases change <;> simp_all)]
    exact h

end SessionView

/-- The texts that the session knows of a message. -/
def SessionAggregate.textsOf (s : SessionAggregate) : TranscriptSource → List String
  | .input inputId => (s.input inputId).toList.map fun input => input.prompt.value
  | .attempt attemptId =>
    ((s.attempt attemptId).map fun a => a.text.map ResponseText.value).getD []

section Texts

theorem AttemptChange.text {a b : AttemptProjection} {id : AttemptId}
    (change : AttemptChange s event id a b) : b.text.map ResponseText.value =
      a.text.map ResponseText.value ++ (event.payload.textFor (.attempt id)).toList := by
  cases change <;> simp_all [EventPayload.textFor]

/-- The texts of a session grow by the text of each event. -/
theorem textsOf_step (represented : Represented s) (step : SessionStep s event t)
    (source : TranscriptSource) :
    t.textsOf source = s.textsOf source ++ (event.payload.textFor source).toList := by
  have silent (none : event.payload.textFor source = none)
      (same : t.textsOf source = s.textsOf source) :
      t.textsOf source = s.textsOf source ++ (event.payload.textFor source).toList := by
    rw [none, same, Option.toList_none, List.append_nil]
  have prepared {attemptId : AttemptId} {a : AttemptProjection} {inputs : List AdmittedInput}
      (fresh : attemptId ∉ s.attemptIndexes) (blank : a.text = [])
      (same : ∀ inputId, (inputs.find? fun input => input.inputId == inputId).map
        (fun input => input.prompt.value) = (s.input inputId).map fun input => input.prompt.value) :
      SessionAggregate.textsOf { s with
        admittedInputs := inputs
        attempts := s.attempts ++ [a]
        attemptIndexes := s.attemptIndexes.insert attemptId s.attempts.length } source =
        s.textsOf source := by
    cases source with
    | input inputId =>
      have eq := congrArg Option.toList (same inputId)
      rw [Option.toList_map, Option.toList_map] at eq
      exact eq
    | attempt other =>
      by_cases here : other = attemptId
      · subst here
        have unknown : s.attempt other = none := by
          unfold SessionAggregate.attempt find?
          rw [Finmap.lookup_eq_none.mpr fresh]
          rfl
        simp only [SessionAggregate.textsOf, unknown]
        unfold SessionAggregate.attempt
        rw [find?_concat_self]
        simp [blank]
      · unfold SessionAggregate.textsOf SessionAggregate.attempt
        simp only
        rw [represented.indexes.attempts.find?_concat_ne _ here]
  cases step with
  | header change =>
    cases change with
    | created hp | renamed hp | archived hp | unarchived hp | modelSelected hp =>
      exact silent (by rw [hp]; cases source <;> rfl) (by cases source <;> rfl)
  | @inputAdmitted inputId prompt deliveryMode hp _ fresh =>
    cases source with
    | input other =>
      have unknown := input_eq_none represented.inputs fresh
      simp only [SessionAggregate.textsOf, SessionAggregate.input, hp, EventPayload.textFor,
        List.find?_append, List.find?_singleton, beq_iff_eq] at unknown ⊢
      by_cases here : inputId = other
      · subst here
        simp [unknown]
      · simp [here, Ne.symm here]
    | attempt other => exact silent (by rw [hp]; rfl) rfl
  | @attemptPrepared attemptId inputId model i input hp _ fresh hi present =>
    refine silent (by rw [hp]; cases source <;> rfl) (prepared fresh rfl fun other => ?_)
    have id_eq := input_of_findIdx? hi present
    have found := find?_set_of_findIdx? (y := { input with promotedBy := some attemptId }) hi
      id_eq other
    rw [found]
    split
    next here =>
      rw [here, input_eq_some hi present]
      rfl
    next => rfl
  | @retryPrepared attemptId inputId model priorId prior i hp _ fresh =>
    exact silent (by rw [hp]; cases source <;> rfl) (prepared fresh rfl fun _ => rfl)
  | @attemptChanged id i a b _ hid ha change ht =>
    subst ht
    cases source with
    | input other =>
      refine silent ?_ rfl
      cases change <;> simp_all [EventPayload.textFor]
    | attempt other =>
      by_cases here : other = id
      · subst here
        have text := change.text
        simp only [SessionAggregate.textsOf, attempt_of_lookup hid ha]
        unfold SessionAggregate.attempt
        rw [find?_set_self hid ha]
        exact text
      · refine silent (by cases change <;> simp_all [EventPayload.textFor]) ?_
        unfold SessionAggregate.textsOf SessionAggregate.attempt
        simp only
        rw [represented.indexes.attempts.find?_set_ne hid here]
  | toolCallProposed hp => exact silent (by rw [hp]; cases source <;> rfl) (by cases source <;> rfl)
  | toolCallChanged _ _ change =>
    refine silent ?_ (by cases source <;> rfl)
    cases change <;> cases source <;> simp_all [EventPayload.textFor]

end Texts

/-- A message holds the state of its input or attempt. -/
def MessageRow.Shows (s : SessionAggregate) (row : MessageRow) : Prop :=
  match row.source with
  | .input _ => row.role = .user ∧ row.state = .complete
  | .attempt attemptId => row.role = .assistant ∧
    ∃ a, s.attempt attemptId = some a ∧ row.state = a.status.stored.transcriptState

section Messages

variable {row changed : MessageRow} {id : AttemptId}

/-- A message of anything but the attempt that changes. -/
theorem MessageRow.Shows.other (h : row.Shows s) (apart : row.source ≠ .attempt id)
    (same : ∀ attemptId a, attemptId ≠ id → s.attempt attemptId = some a →
      ∃ b, t.attempt attemptId = some b ∧ b.status = a.status)
    (kept : changed.source = row.source ∧ changed.role = row.role ∧ changed.state = row.state) :
    changed.Shows t := by
  unfold MessageRow.Shows at h ⊢
  rw [kept.1, kept.2.1, kept.2.2]
  split at h
  next => exact h
  next attemptId source =>
    obtain ⟨role, a, known, state⟩ := h
    obtain ⟨b, found, status⟩ := same attemptId a (fun here => apart (source.trans (by rw [here])))
      known
    exact ⟨role, b, found, by rw [status]; exact state⟩

/-- The message of an attempt after its state has moved. -/
theorem MessageRow.Shows.moved {a b : AttemptProjection} (h : row.Shows s)
    (source : row.source = .attempt id) (known : s.attempt id = some a)
    (found : t.attempt id = some b) (same : changed.source = row.source)
    (role : changed.role = row.role)
    (state : row.state = a.status.stored.transcriptState →
      changed.state = b.status.stored.transcriptState) : changed.Shows t := by
  unfold MessageRow.Shows at h ⊢
  rw [same]
  simp only [source] at h ⊢
  obtain ⟨role', a', known', state'⟩ := h
  cases Option.some.inj (known.symm.trans known')
  exact ⟨role.trans role', b, found, state state'⟩

end Messages

namespace SessionView

variable {v : SessionView}

/-- What happens to an attempt, at its messages: they are closed, or get text, or stay. -/
theorem messages_changed {id : AttemptId} {a b : AttemptProjection}
    (change : AttemptChange s event id a b) :
    (∃ state failure, (v.step event).messages = (v.settleAttempt event id state failure).messages ∧
      b.status.stored = state) ∨
    (∃ text, event.payload = .attemptTextAppended id text ∧ b.status = a.status ∧
      a.status.stored = .inFlight) ∨
    ((v.step event).messages = v.messages ∧
      b.status.stored.transcriptState = a.status.stored.transcriptState) := by
  cases change with
  | textAppended hp hs =>
    refine .inr (.inl ⟨_, hp, rfl, ?_⟩)
    rcases List.mem_cons.mp hs with hs | hs
    · rw [hs]
      rfl
    · rw [List.mem_singleton.mp hs]
      rfl
  | completed hp =>
    exact .inl ⟨.completed, none, by simp only [SessionView.step, apply, hp]; rfl, rfl⟩
  | @failed failure hp =>
    exact .inl ⟨.failed, some failure, by simp only [SessionView.step, apply, hp]; rfl, rfl⟩
  | cancelled hp =>
    exact .inl ⟨.cancelled, none, by simp only [SessionView.step, apply, hp]; rfl, rfl⟩
  | markedUnknown hp =>
    exact .inl ⟨.unknown, none, by simp only [SessionView.step, apply, hp]; rfl, rfl⟩
  | started hp hs | paused hp hs | resumed hp _ hs =>
    refine .inr (.inr ⟨by simp only [SessionView.step, apply, hp]; rfl, ?_⟩)
    rw [List.mem_singleton.mp hs]
    rfl
  | cancellationRequested hp hs =>
    refine .inr (.inr ⟨by simp only [SessionView.step, apply, hp]; rfl, ?_⟩)
    rcases List.mem_cons.mp hs with hs | hs
    · rw [hs]
      rfl
    · rw [List.mem_singleton.mp hs]
      rfl
  | usageRecorded hp | budgetConfigured hp | contextBound hp | turnStarted hp =>
    exact .inr (.inr ⟨by simp only [SessionView.step, apply, hp]; rfl, rfl⟩)

/-- The messages of the view follow the inputs and attempts of the session. -/
theorem messages_shown (indexes : IndexesExact s) (own : event.sessionId = k)
    (session : ∀ row ∈ v.messages, row.sessionId = k) (h : ∀ row ∈ v.messages, row.Shows s)
    (step : SessionStep s event t) : ∀ row ∈ (v.step event).messages, row.Shows t := by
  have kept (messages : (v.step event).messages = v.messages)
      (same : ∀ row : MessageRow, row.Shows s → row.Shows t) :
      ∀ row ∈ (v.step event).messages, row.Shows t := by
    intro row hr
    rw [messages] at hr
    exact same row (h row hr)
  have joined {attemptId : AttemptId} (a : AttemptProjection)
      (fresh : attemptId ∉ s.attemptIndexes) (u : SessionAggregate)
      (attempts : u.attempts = s.attempts ++ [a])
      (index : u.attemptIndexes = s.attemptIndexes.insert attemptId s.attempts.length)
      (row : MessageRow) (shows : row.Shows s) : row.Shows u := by
    unfold MessageRow.Shows at shows ⊢
    split at shows
    next => exact shows
    next other source =>
      obtain ⟨role, b, known, state⟩ := shows
      have apart : other ≠ attemptId := by
        rintro rfl
        unfold SessionAggregate.attempt find? at known
        rw [Finmap.lookup_eq_none.mpr fresh] at known
        cases known
      refine ⟨role, b, ?_, state⟩
      unfold SessionAggregate.attempt
      rw [attempts, index, indexes.attempts.find?_concat_ne a apart]
      exact known
  cases step with
  | header change =>
    cases change with
    | created hp | renamed hp | archived hp | unarchived hp | modelSelected hp =>
      exact kept (by simp only [SessionView.step, apply, hp]; rfl) fun _ shows => shows
  | @inputAdmitted inputId prompt deliveryMode hp =>
    intro row hr
    have messages : (v.step event).messages =
        v.messages ++ [.first event (.input inputId) .user .complete] := by
      simp only [SessionView.step, apply, hp]
      rfl
    rw [messages] at hr
    rcases List.mem_append.mp hr with old | new
    · exact h row old
    · rw [List.mem_singleton.mp new]
      exact ⟨rfl, rfl⟩
  | attemptPrepared hp _ fresh =>
    exact kept (by simp only [SessionView.step, apply, hp]; rfl) fun row shows =>
      joined _ fresh _ rfl rfl row shows
  | retryPrepared hp _ fresh =>
    exact kept (by simp only [SessionView.step, apply, hp]; rfl) fun row shows =>
      joined _ fresh _ rfl rfl row shows
  | @attemptChanged id i a b _ hid ha change ht =>
    subst ht
    have known := attempt_of_lookup hid ha
    have found : find? (s.attempts.set i b) s.attemptIndexes id = some b := find?_set_self hid ha
    have others : ∀ attemptId c, attemptId ≠ id → s.attempt attemptId = some c →
        ∃ d, find? (s.attempts.set i b) s.attemptIndexes attemptId = some d ∧
          d.status = c.status := by
      intro attemptId c apart known
      exact ⟨c, (indexes.attempts.find?_set_ne hid apart).trans known, rfl⟩
    have unmoved (row : MessageRow) {changed : MessageRow} (shows : row.Shows s)
        (kept : changed.source = row.source ∧ changed.role = row.role ∧ changed.state = row.state)
        (same : b.status.stored.transcriptState = a.status.stored.transcriptState) :
        changed.Shows { s with
          attempts := s.attempts.set i b
          contextTurnIds := event.payload.boundContextTurns ∪ s.contextTurnIds } := by
      by_cases here : row.source = .attempt id
      · exact shows.moved here known found kept.1 kept.2.1 fun before => by
          rw [kept.2.2, before, same]
      · exact shows.other here others kept
    rcases messages_changed (v := v) change with
      ⟨state, failure, messages, ends⟩ | ⟨text, payload, status, flying⟩ | ⟨messages, same⟩
    · intro row hr
      rw [messages] at hr
      obtain ⟨old, ho, rfl⟩ := List.mem_map.mp hr
      by_cases here : old.source = .attempt id
      · have hit : MessageRow.isAt event id (fun _ => true) old = true := by
          have key : old.key = (event.sessionId, .attempt id) :=
            Prod.ext ((session old ho).trans own.symm) here
          simp [MessageRow.isAt, key]
        unfold alter
        rw [if_pos hit]
        exact (h old ho).moved here known found rfl rfl fun _ => by rw [ends]; rfl
      · have miss : ¬ MessageRow.isAt event id (fun _ => true) old = true := by
          intro hit
          simp only [MessageRow.isAt, Bool.and_true, decide_eq_true_eq] at hit
          exact here (congrArg Prod.snd hit)
        unfold alter
        rw [if_neg miss]
        exact (h old ho).other here others ⟨rfl, rfl, rfl⟩
    · have messages : (v.step event).messages = (v.writeMessage event id).messages := by
        simp only [SessionView.step, apply, payload]
        rfl
      intro row hr
      rw [messages, writeMessage] at hr
      split at hr
      next =>
        obtain ⟨old, ho, rfl⟩ := List.mem_map.mp hr
        refine unmoved old (h old ho) ⟨?_, ?_, ?_⟩ (congrArg _ (congrArg _ status))
        · exact KeyedTable.alter_congr (φ := MessageRow.source) (fun _ => rfl) old
        · exact KeyedTable.alter_congr (φ := MessageRow.role) (fun _ => rfl) old
        · exact KeyedTable.alter_congr (φ := MessageRow.state) (fun _ => rfl) old
      next =>
        rcases List.mem_append.mp hr with old | new
        · exact unmoved row (h row old) ⟨rfl, rfl, rfl⟩ (congrArg _ (congrArg _ status))
        · rw [List.mem_singleton.mp new]
          exact ⟨rfl, b, found, by rw [status, flying]; rfl⟩
    · exact kept messages fun row shows => unmoved row shows ⟨rfl, rfl, rfl⟩ same
  | toolCallProposed hp =>
    exact kept (by simp only [SessionView.step, apply, hp]; rfl) fun _ shows => shows
  | toolCallChanged _ _ change =>
    refine kept ?_ fun _ shows => shows
    cases change with
    | recorded hp | answered hp | started hp | completed hp | failed hp | denied hp | cancelled hp
    | markedUnknown hp =>
      simp only [SessionView.step, apply, hp]
      rfl

theorem messages_session (own : event.sessionId = k)
    (h : ∀ row ∈ v.messages, row.sessionId = k) :
    ∀ row ∈ (v.step event).messages, row.sessionId = k := by
  obtain ⟨g, new, messages, keeps, fresh⟩ :
      MessagesMove event v.messages (v.step event).messages := messages_step
  intro row hr
  rw [messages] at hr
  rcases List.mem_append.mp hr with old | added
  · obtain ⟨row, ho, rfl⟩ := List.mem_map.mp old
    exact (keeps row).2.trans (h row ho)
  · exact (fresh row (Option.mem_toList.mp added)).2.trans own

/-- The header of the view follows that of the session. -/
theorem header_shown (opened : s.isCreated = false → s.isArchived = false) (h : v.header.Shows s)
    (step : SessionStep s event t) : (v.step event).header.Shows (t.recordApplied event) := by
  have plain (header : (v.apply event).header = v.header) (archived : t.isArchived = s.isArchived)
      (title : t.title = s.title) (model : t.selectedModel = s.selectedModel) :
      (v.step event).header.Shows (t.recordApplied event) := by
    refine ⟨?_, ?_, ?_, rfl⟩
    · exact (congrArg SessionRow.status header).trans (h.status.trans (by rw [← archived]; rfl))
    · exact (congrArg SessionRow.title header).trans (h.title.trans title.symm)
    · exact (congrArg SessionRow.selectedModel header).trans (h.selectedModel.trans model.symm)
  cases step with
  | header change =>
    cases change with
    | created hp fresh =>
      simp only [SessionView.step, apply, hp]
      exact ⟨by rw [SessionAggregate.recordApplied]; simp [opened fresh]; rfl, h.title,
        h.selectedModel, rfl⟩
    | renamed hp =>
      simp only [SessionView.step, apply, hp]
      exact ⟨h.status, rfl, h.selectedModel, rfl⟩
    | archived hp | unarchived hp =>
      simp only [SessionView.step, apply, hp]
      exact ⟨rfl, h.title, h.selectedModel, rfl⟩
    | modelSelected hp =>
      simp only [SessionView.step, apply, hp]
      exact ⟨h.status, h.title, rfl, rfl⟩
  | inputAdmitted hp | attemptPrepared hp | retryPrepared hp =>
    exact plain (by simp only [apply, hp]; rfl) rfl rfl rfl
  | toolCallProposed hp => exact plain (by simp only [apply, hp]) rfl rfl rfl
  | attemptChanged _ _ change ht =>
    subst ht
    refine plain ?_ rfl rfl rfl
    cases change with
    | textAppended hp =>
      simp only [apply, hp, addText, writeMessage]
      split <;> rfl
    | started hp | usageRecorded hp | cancellationRequested hp | completed hp | failed hp
    | cancelled hp | markedUnknown hp | contextBound hp =>
      simp only [apply, hp]
      rfl
    | budgetConfigured hp | turnStarted hp | paused hp | resumed hp => simp only [apply, hp]
  | toolCallChanged _ _ change =>
    refine plain ?_ rfl rfl rfl
    cases change with
    | recorded hp | answered hp | started hp | completed hp | failed hp | denied hp | cancelled hp
    | markedUnknown hp => simp only [apply, hp]

end SessionView

/-- The rows of a session hold what the session itself holds after the same events. -/
structure SessionView.Shows (k : SessionId) (events : List EventEnvelope) (v : SessionView)
    (s : SessionAggregate) : Prop where
  header : v.header.Shows s
  inputs : List.Forall₂ (InputRow.Shows k) v.inputs s.admittedInputs
  attempts : List.Forall₂ (AttemptRow.Shows k) v.attempts s.attempts
  messages : ∀ row ∈ v.messages, row.Shows s
  texts : ∀ source, textsOf events source = s.textsOf source

theorem opened_step (h : s.isCreated = false → s.isArchived = false) (step : SessionStep s event t) :
    t.isCreated = false → t.isArchived = false := by
  cases step with
  | header change =>
    cases change with
    | created => exact fun created => nomatch created
    | renamed _ created | archived _ created | unarchived _ created | modelSelected _ created =>
      exact fun none => absurd (created.symm.trans none) (by decide)
  | attemptChanged _ _ _ ht =>
    subst ht
    exact h
  | inputAdmitted | attemptPrepared | retryPrepared | toolCallProposed | toolCallChanged => exact h

theorem rehydrate_shows {log : List EventEnvelope} (h : SessionAggregate.rehydrate k log = .ok s) :
    (SessionView.ofEvents k none log).Shows k log s := by
  have whole : (s.isCreated = false → s.isArchived = false) ∧
      (∀ row ∈ (SessionView.ofEvents k none log).messages, row.sessionId = k) ∧
      (SessionView.ofEvents k none log).Shows k log s := by
    refine FallibleRun.run_history (P := fun log s => (s.isCreated = false → s.isArchived = false) ∧
      (∀ row ∈ (SessionView.ofEvents k none log).messages, row.sessionId = k) ∧
      (SessionView.ofEvents k none log).Shows k log s) ?_ (fun xs m event t hm inv applied => ?_) h
    · refine ⟨fun _ => rfl, fun row hr => (by cases hr), ⟨rfl, rfl, rfl, rfl⟩, .nil, .nil,
        fun row hr => (by cases hr), fun source => ?_⟩
      cases source <;> rfl
    · obtain ⟨opened, session, shows⟩ := inv
      have represented := rehydrate_represented hm
      have logged := rehydrate_logged hm
      obtain ⟨fits, u, step, rfl⟩ := applyOne_eq_ok_iff.mp applied
      have own : event.sessionId = k := fits.session.trans logged.session
      have inputs := SessionView.inputs_shown represented own shows.inputs step
      have attempts := SessionView.attempts_shown represented.indexes own shows.attempts step
      have messages :=
        SessionView.messages_shown represented.indexes own session shows.messages step
      have still := opened_step opened step
      rw [SessionView.ofEvents_concat]
      refine ⟨still, SessionView.messages_session own session,
        SessionView.header_shown opened shows.header step, inputs, attempts, messages,
        fun source => ?_⟩
      · have grown : textsOf (xs ++ [event]) source =
            textsOf xs source ++ (event.payload.textFor source).toList := by
          unfold textsOf
          rw [List.filterMap_append]
          cases text : event.payload.textFor source <;> simp [text]
        rw [grown, shows.texts]
        exact (textsOf_step represented step source).symm
  exact whole.2.2

structure AdmittedInputRecord.Shows (record : AdmittedInputRecord) (input : AdmittedInput) :
    Prop where
  inputId : record.inputId = input.inputId
  prompt : record.prompt = input.prompt
  deliveryMode : record.deliveryMode = input.deliveryMode
  state : record.state = if input.promotedBy.isSome then .promoted else .admitted

structure AttemptRecord.Shows (record : AttemptRecord) (a : AttemptProjection) : Prop where
  attemptId : record.attemptId = a.attemptId
  inputId : record.inputId = a.inputId
  model : record.model = a.model
  retryOf : record.retryOf = a.retryOf
  state : record.state = a.status.stored
  startedAt : record.startedAt = a.startedAt
  usage : record.usage = a.usage
  failure : record.failure = a.failure
  cancellation : a.status.isSettled = false →
    record.cancellationRequestedAt.isSome = decide (a.status = .cancellationRequested)

/-- An entry has the whole text, and the state, of an input or an attempt. -/
def TranscriptEntry.Shows (s : SessionAggregate) (entry : TranscriptEntry) : Prop :=
  entry.content.value = String.join (s.textsOf entry.source) ∧
    match entry.source with
    | .input _ => entry.role = .user ∧ entry.state = .complete
    | .attempt attemptId => entry.role = .assistant ∧
      ∃ a, s.attempt attemptId = some a ∧ entry.state = a.status.stored.transcriptState

/-- What the store reads back of a session is what the session holds. -/
structure SessionTables.Presents (t : SessionTables) (k : SessionId) (s : SessionAggregate) :
    Prop where
  header : ∃ row, t.sessions.find? k = some row ∧ row.Shows s
  inputs : ∃ records, t.loadAdmittedInputs k = .ok records ∧
    List.Forall₂ AdmittedInputRecord.Shows records s.admittedInputs
  attempts : ∃ records, t.loadAttempts k = .ok records ∧
    List.Forall₂ AttemptRecord.Shows records s.attempts
  transcript : ∃ entries, t.loadTranscript k = .ok entries ∧
    (entries.map TranscriptEntry.source).Nodup ∧
    (∀ source, source ∈ entries.map TranscriptEntry.source ↔ s.textsOf source ≠ []) ∧
    ∀ entry ∈ entries, entry.Shows s

theorem SessionTables.Live.presents {tables : SessionTables} (live : tables.Live)
    (replayed : SessionAggregate.rehydrate k (tables.eventsOf k) = .ok s)
    (known : tables.eventsOf k ≠ []) : tables.Presents k s := by
  have shows := rehydrate_shows replayed
  have shown := live.shown k
  obtain ⟨workspaceId, mirrored⟩ := (live.sessions k).mirrored known
  have view := @SessionView.ofEvents_workspace k (tables.eventsOf k) workspaceId none
  refine ⟨⟨_, mirrored.header, ?_⟩, ⟨_, live.loadAdmittedInputs k, ?_⟩, ⟨_, live.loadAttempts k, ?_⟩,
    ?_⟩
  · rw [view]
    exact ⟨shows.header.status, shows.header.title, shows.header.selectedModel,
      shows.header.lastSequence⟩
  · rw [shown.inputs]
    exact List.forall₂_map_left_iff.mpr (shows.inputs.imp fun _ _ row => { row with })
  · rw [shown.attempts]
    exact List.forall₂_map_left_iff.mpr (shows.attempts.imp fun _ _ row => { row with })
  · obtain ⟨entries, loaded, sources, reads⟩ := live.loadTranscript k
    refine ⟨entries, loaded, ?_, fun source => ?_, fun entry he => ?_⟩
    · rw [sources]
      exact SessionTables.messages_distinct
    · rw [sources, SessionTables.mem_messages_iff live, shows.texts]
    · obtain ⟨content, row, hr, source, role, state⟩ := reads entry he
      rw [shown.messages] at hr
      have message := shows.messages row hr
      unfold MessageRow.Shows at message
      refine ⟨content.trans (by rw [shows.texts]), ?_⟩
      rw [source, role, state]
      exact message

section Engine

variable {C B M : Type} [EventMetadataSource M] [TurnColumns C]

/-- Along every run of calls, deletions, rebuilds and restarts, whatever fails in the store, the
store reads back without a fault, for every session that it has, what the running engine holds of
it. -/
theorem engine_projections (faults : List (Option StoreError)) (source : M)
    (steps : List (EngineStep C B M)) :
    ∃ engine, run DurableEngine.step (.new (.opened faults) source) steps = .ok engine ∧
      ∀ k, sessionEvents k engine.store.log ≠ [] →
        ∃ s, engine.inner.session k = some s ∧ engine.store.tables.Presents k s := by
  have start : Tracking (.new (.opened faults) source : DurableEngine SqliteStore M) :=
    ⟨live_new source, fun _ => .inl rfl⟩
  obtain ⟨engine, reached, h⟩ := tracking_run start steps
  refine ⟨engine, reached, fun k stored => ?_⟩
  have same := (h.streams k).resolve_right stored
  have current := h.live.replayed.sessions k
  have known := session_eq_some_current (mt (h.live.replayed.known k).mp (same ▸ stored))
  refine ⟨_, known, engine.store.live.presents ?_ stored⟩
  rw [← same] at current
  exact current

end Engine

end AutoHarness
