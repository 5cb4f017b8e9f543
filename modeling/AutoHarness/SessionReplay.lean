import AutoHarness.SessionWrites

namespace AutoHarness

open KeyedTable (alter RowMap)
open FallibleRun (bind_eq_ok_iff)

def EventPayload.preparedAttempt? : EventPayload → Option AttemptId
  | .attemptPrepared attemptId _ _ _ => some attemptId
  | _ => none

def EventEnvelope.preparedAttempt? (event : EventEnvelope) : Option AttemptId :=
  event.payload.preparedAttempt?

namespace SessionTables

/-- The rows that are still to be written for the events. Live there are none; a rebuild finds
the rows of the inputs and attempts in place. -/
def Waiting (mode : ProjectionMode) (events : List EventEnvelope) (restI : List InputRow)
    (restA : List AttemptRow) : Prop :=
  match mode with
  | .append => restI = [] ∧ restA = []
  | .rebuild => restI.map InputRow.inputId = events.filterMap StreamScan.admittedInput? ∧
      restA.map AttemptRow.attemptId = events.filterMap EventEnvelope.preparedAttempt?

/-- The keys that the event takes are free. -/
def NewKeys (t : SessionTables) (event : EventEnvelope) : Prop :=
  (∀ inputId, StreamScan.admittedInput? event = some inputId →
      ∀ row ∈ t.inputs, row.key ≠ (event.sessionId, inputId)) ∧
    ∀ attemptId, event.preparedAttempt? = some attemptId →
      ∀ row ∈ t.attempts, row.attemptId ≠ attemptId

/-- The place of an event in the stream of its session. -/
structure Placed (t : SessionTables) (past : List EventEnvelope) (event : EventEnvelope)
    (future : List EventEnvelope) : Prop where
  events : t.eventsOf event.sessionId = past ++ event :: future
  ordered : (past ++ event :: future).Pairwise fun a b => a.sequence.get < b.sequence.get

variable {t u : SessionTables} {v : SessionView} {mode : ProjectionMode} {event : EventEnvelope}
  {past future : List EventEnvelope} {restI : List InputRow} {restA : List AttemptRow}

theorem Placed.mem (h : Placed t past event future) : event ∈ t.events := by
  have mem : event ∈ t.eventsOf event.sessionId := by
    rw [h.events]
    simp
  exact (Interleaving.mem_project.mp mem).1

theorem Waiting.of_other (h : Waiting mode (event :: future) restI restA)
    (input : StreamScan.admittedInput? event = none) (attempt : event.preparedAttempt? = none) :
    Waiting mode future restI restA := by
  cases mode with
  | append => exact h
  | rebuild => simpa [Waiting, input, attempt] using h

section Input

/-- The input of an event is written, over the row that waits for it if there is one. -/
theorem writeInput_writes {row : InputRow} (s : t.Sourced)
    (m : Mirrors t v event.sessionId restI restA) (own : row.sessionId = event.sessionId)
    (sourced : t.InputSourced row)
    (admitted : StreamScan.admittedInput? event = some row.inputId)
    (prepared : event.preparedAttempt? = none)
    (waiting : Waiting mode (event :: future) restI restA)
    (fresh : mode = .append → t.NewKeys event) :
    ∃ restI', Writes t (t.writeInput mode row) { v with inputs := v.inputs ++ [row] }
      event.sessionId restI' restA ∧ Waiting mode future restI' restA := by
  cases mode with
  | append =>
    obtain ⟨rfl, rfl⟩ := waiting
    have absent : ∀ other ∈ t.inputs, other.key ≠ row.key := by
      intro other ho same
      exact (fresh rfl).1 row.inputId admitted other ho (same.trans (Prod.ext own rfl))
    obtain ⟨inputs, inserted⟩ := KeyedTable.insert?_of_fresh absent
    have rows := project_insert (φ := InputRow.sessionId) inserted
    rw [own] at rows
    have ext : Extends t { t with inputs } := by
      refine ⟨fun _ h => h, fun _ h => h, fun r h => ⟨r, ?_, rfl⟩, fun _ _ h => h, fun _ h => h⟩
      exact ((KeyedTable.insert?_eq_some inserted).1 r).mpr (.inl h)
    refine ⟨[], ⟨{ t with inputs }, ?_, ?_, ⟨m.header, ?_, m.attempts, m.messages, m.segments,
      m.bindings⟩, ⟨fun k hk => ⟨rfl, rows.2 k hk, rfl, rfl, rfl, rfl⟩, rfl, rfl⟩⟩, rfl, rfl⟩
    · simp [writeInput, KeyedTable.find?_eq_none_iff.mpr absent, insertInput, inserted,
        s.inputAllowed sourced]
    · refine s.extend ext rfl (fun r h => ?_) (fun _ h => .inl h) (fun _ h => .inl h)
        (fun _ h => .inl h) (fun _ h => .inl h)
      rcases mem_insert inserted h with old | rfl
      · exact .inl old
      · exact .inr (ext.inputSourced sourced)
    · have before := m.inputs
      rw [List.append_nil] at before
      rw [List.append_nil, ← before]
      exact rows.1
  | rebuild =>
    obtain ⟨inputIds, attemptIds⟩ := waiting
    rw [List.filterMap_cons_some admitted] at inputIds
    obtain ⟨stale, restI', rfl, head, tail⟩ := List.map_eq_cons_iff.mp inputIds
    have mem : stale ∈ t.inputsOf event.sessionId := by
      rw [m.inputs]
      simp
    obtain ⟨mem, session⟩ := Interleaving.mem_project.mp mem
    have key : stale.key = row.key := Prod.ext (session.trans own.symm) head
    have replaced : row.replace.apply stale = row := by
      simp [InputRow.replace, session, head, ← own]
    have distinct := m.inputs_nodup
    rw [List.map_append, List.nodup_append, List.map_cons, List.nodup_cons] at distinct
    have written := updateInput_writes .rebuild (v.inputs ++ [row]) restI'
      (p := fun other => other.key = row.key) (f := row.replace) s m mem
      session (decide_eq_true key)
      (fun other _ selected => (of_decide_eq_true selected).trans key.symm)
      (replaced ▸ sourced) ?_
    · refine ⟨restI', ?_, tail, ?_⟩
      · rw [writeInput, if_pos]
        · exact written
        · rw [← key, KeyedTable.find?_eq_some_iff.mpr ⟨mem, rfl⟩]
          rfl
      · simpa [prepared] using attemptIds
    · have front : v.inputs.map (alter (fun other => other.key = row.key) row.replace) =
          v.inputs := by
        refine map_alter_of_ne _ fun other ho => decide_eq_false fun same => ?_
        exact distinct.2.2 other.key (List.mem_map_of_mem ho) stale.key (by simp)
          (same.trans key.symm)
      have back : restI'.map (alter (fun other => other.key = row.key) row.replace) = restI' := by
        refine map_alter_of_ne _ fun other ho => decide_eq_false fun same => ?_
        refine distinct.2.1.1 ?_
        rw [key, ← same]
        exact List.mem_map_of_mem ho
      rw [List.map_append, List.map_cons, front, back, alter, if_pos (decide_eq_true key),
        replaced]
      simp

end Input

section Attempt

/-- The attempt of an event is written, over the row that waits for it if there is one. -/
theorem writeAttempt_writes {row : AttemptRow} {existing : Bool} (s : t.Sourced)
    (m : Mirrors t v event.sessionId restI restA) (own : row.sessionId = event.sessionId)
    (sourced : t.AttemptSourced row)
    (prepared : event.preparedAttempt? = some row.attemptId)
    (admitted : StreamScan.admittedInput? event = none)
    (known : existing = (t.attempts.find? row.attemptId).isSome)
    (waiting : Waiting mode (event :: future) restI restA)
    (fresh : mode = .append → t.NewKeys event) :
    ∃ restA', Writes t (t.writeAttempt mode row existing)
      { v with attempts := v.attempts ++ [row] } event.sessionId restI restA' ∧
        Waiting mode future restI restA' := by
  cases mode with
  | append =>
    obtain ⟨rfl, rfl⟩ := waiting
    have absent : ∀ other ∈ t.attempts, other.attemptId ≠ row.attemptId :=
      (fresh rfl).2 row.attemptId prepared
    rw [KeyedTable.find?_eq_none_iff.mpr absent] at known
    subst known
    obtain ⟨attempts, inserted⟩ := KeyedTable.insert?_of_fresh absent
    have rows := project_insert (φ := AttemptRow.sessionId) inserted
    rw [own] at rows
    have ext : Extends t { t with attempts } := by
      refine ⟨fun _ h => h, fun _ h => h, fun r h => ⟨r, h, rfl⟩, fun k a h => ?_, fun _ h => h⟩
      obtain ⟨r, hr, rest⟩ := hasAttempt_iff.mp h
      exact hasAttempt_iff.mpr
        ⟨r, ((KeyedTable.insert?_eq_some inserted).1 r).mpr (.inl hr), rest⟩
    refine ⟨[], ⟨{ t with attempts }, ?_, ?_, ⟨m.header, m.inputs, ?_, m.messages, m.segments,
      m.bindings⟩, ⟨fun k hk => ⟨rfl, rfl, rows.2 k hk, rfl, rfl, rfl⟩, rfl, rfl⟩⟩, rfl, rfl⟩
    · simp [writeAttempt, insertAttempt, inserted, s.attemptAllowed sourced]
    · refine s.extend ext rfl (fun _ h => .inl h) (fun r h => ?_) (fun _ h => .inl h)
        (fun _ h => .inl h) (fun _ h => .inl h)
      rcases mem_insert inserted h with old | rfl
      · exact .inl old
      · exact .inr (ext.attemptSourced sourced)
    · have before := m.attempts
      rw [List.append_nil] at before
      rw [List.append_nil, ← before]
      exact rows.1
  | rebuild =>
    obtain ⟨inputIds, attemptIds⟩ := waiting
    rw [List.filterMap_cons_some prepared] at attemptIds
    obtain ⟨stale, restA', rfl, head, tail⟩ := List.map_eq_cons_iff.mp attemptIds
    have mem : stale ∈ t.attemptsOf event.sessionId := by
      rw [m.attempts]
      simp
    obtain ⟨mem, session⟩ := Interleaving.mem_project.mp mem
    have replaced : row.replace.apply stale = row := by
      simp [AttemptRow.replace, head]
    have distinct := m.attempts_nodup
    rw [List.map_append, List.nodup_append, List.map_cons, List.nodup_cons] at distinct
    rw [KeyedTable.find?_eq_some_iff.mpr ⟨mem, head⟩] at known
    subst known
    refine ⟨restA', ?_, by simpa [admitted] using inputIds, tail⟩
    refine updateAttempt_writes .rebuild _ _ (p := fun other => other.attemptId = row.attemptId)
      s m mem session (replaced ▸ own) (decide_eq_true head)
      (fun other _ selected => (of_decide_eq_true selected).trans head.symm)
      (replaced ▸ sourced) ?_
    have front : v.attempts.map
        (alter (fun other => other.attemptId = row.attemptId) row.replace) = v.attempts := by
      refine map_alter_of_ne _ fun other ho => decide_eq_false fun same => ?_
      exact distinct.2.2 other.attemptId (List.mem_map_of_mem ho) stale.attemptId (by simp)
        (same.trans head.symm)
    have back : restA'.map
        (alter (fun other => other.attemptId = row.attemptId) row.replace) = restA' := by
      refine map_alter_of_ne _ fun other ho => decide_eq_false fun same => ?_
      refine distinct.2.1.1 ?_
      rw [head, ← same]
      exact List.mem_map_of_mem ho
    rw [List.map_append, List.map_cons, front, back, alter, if_pos (decide_eq_true head), replaced]
    simp

theorem promoteInput_writes (mode : ProjectionMode) {inputId : InputId} {row : InputRow} (s : t.Sourced)
    (m : Mirrors t v event.sessionId restI restA) (hr : row ∈ v.inputs)
    (own : row.inputId = inputId) :
    Writes t (t.promoteInput mode event inputId) (v.promoteInput event inputId) event.sessionId
      restI restA := by
  obtain ⟨mem, session⟩ := m.mem_input hr
  have key : row.key = (event.sessionId, inputId) := Prod.ext session own
  obtain ⟨-, known, origin⟩ := s.inputs row mem
  have distinct := m.inputs_nodup
  rw [List.map_append, List.nodup_append] at distinct
  refine updateInput_writes mode _ _ s m mem session (decide_eq_true key)
    (fun other _ selected => (of_decide_eq_true selected).trans key.symm)
    ⟨rfl, known, origin⟩ ?_
  rw [List.map_append, map_alter_of_ne restI]
  intro other ho
  refine decide_eq_false fun same => ?_
  exact distinct.2.2 row.key (List.mem_map_of_mem hr) other.key (List.mem_map_of_mem ho)
    (key.trans same.symm)

theorem changeAttempt_writes {p : AttemptRow → Bool} {f : RowMap AttemptRow.attemptId}
    {row : AttemptRow} (s : t.Sourced) (m : Mirrors t v event.sessionId restI restA)
    (he : event ∈ t.events) (hr : row ∈ v.attempts) (hp : p row = true)
    (edit : AttemptEdit event row.attemptId f) (check : (f.apply row).check = true) :
    Writes t (t.changeAttempt mode event row.attemptId p f)
      (v.changeAttempt event row.attemptId p f) event.sessionId restI restA := by
  obtain ⟨mem, session⟩ := m.mem_attempt hr
  have at_iff (other : AttemptRow) : AttemptRow.isAt event row.attemptId p other = true ↔
      (other.sessionId = event.sessionId ∧ other.attemptId = row.attemptId) ∧ p other = true := by
    simp [AttemptRow.isAt]
  have distinct := m.attempts_nodup
  rw [List.map_append, List.nodup_append] at distinct
  refine updateAttempt_writes mode _ _ s m mem session ((edit.sessionId row).trans session)
    ((at_iff row).mpr ⟨⟨session, rfl⟩, hp⟩)
    (fun other _ selected => ((at_iff other).mp selected).1.2)
    (edit.sourced he session.symm (s.attempts row mem) check) ?_
  rw [List.map_append, map_alter_of_ne restA]
  intro other ho
  refine Bool.eq_false_iff.mpr fun selected => ?_
  exact distinct.2.2 row.attemptId (List.mem_map_of_mem hr) other.attemptId
    (List.mem_map_of_mem ho) ((at_iff other).mp selected).1.2.symm

end Attempt

section Edits

theorem start_edit {attemptId : AttemptId} (h : event.payload = .attemptStarted attemptId) :
    AttemptEdit event attemptId (AttemptRow.start event) := by
  refine ⟨fun _ => rfl, fun _ => rfl, fun _ => rfl, fun row column eventId hc => ?_⟩
  cases column with
  | started => exact .inr ⟨(Option.some.inj hc).symm, by rw [h]; rfl⟩
  | prepared | settled | cancellation | usage => exact .inl hc

theorem recordUsage_edit {attemptId : AttemptId} {usage : UsageSnapshot}
    (h : event.payload = .attemptUsageRecorded attemptId usage) :
    AttemptEdit event attemptId (AttemptRow.recordUsage event usage) := by
  refine ⟨fun _ => rfl, fun _ => rfl, fun _ => rfl, fun row column eventId hc => ?_⟩
  cases column with
  | usage => exact .inr ⟨(Option.some.inj hc).symm, by rw [h]; rfl⟩
  | prepared | started | settled | cancellation => exact .inl hc

theorem requestCancellation_edit {attemptId : AttemptId}
    (h : event.payload = .attemptCancellationRequested attemptId) :
    AttemptEdit event attemptId (AttemptRow.requestCancellation event) := by
  refine ⟨fun _ => rfl, fun _ => rfl, fun _ => rfl, fun row column eventId hc => ?_⟩
  cases column with
  | cancellation => exact .inr ⟨(Option.some.inj hc).symm, by rw [h]; rfl⟩
  | prepared | started | settled | usage => exact .inl hc

theorem settle_edit {attemptId : AttemptId} {state : AttemptState}
    {failure : Option AttemptFailure}
    (h : event.payload.attemptColumn? = some (.settled, attemptId)) :
    AttemptEdit event attemptId (AttemptRow.settle event state failure) := by
  refine ⟨fun _ => rfl, fun _ => rfl, fun _ => rfl, fun row column eventId hc => ?_⟩
  cases column with
  | settled => exact .inr ⟨(Option.some.inj hc).symm, h⟩
  | prepared | started | cancellation | usage => exact .inl hc

theorem start_check {row : AttemptRow} (h : row.check = true) (state : row.state = .prepared) :
    ((AttemptRow.start event).apply row).check = true := by
  simp_all [AttemptRow.check, AttemptRow.timesCheck, AttemptRow.start]

theorem recordUsage_check {row : AttemptRow} {usage : UsageSnapshot} (h : row.check = true) :
    ((AttemptRow.recordUsage event usage).apply row).check = true := by
  simp only [AttemptRow.check, Bool.and_eq_true, beq_iff_eq] at h ⊢
  exact ⟨h.1, rfl⟩

theorem requestCancellation_check {row : AttemptRow} (h : row.check = true) :
    ((AttemptRow.requestCancellation event).apply row).check = true := by
  simp only [AttemptRow.check, Bool.and_eq_true, beq_iff_eq] at h ⊢
  exact ⟨⟨h.1.1, rfl⟩, h.2⟩

theorem settle_check {row : AttemptRow} {state : AttemptState} {failure : Option AttemptFailure}
    (h : row.check = true) (settles : state.settles row = true) (settled : state.isSettled = true)
    (failed : failure.isSome = decide (state = .failed)) :
    ((AttemptRow.settle event state failure).apply row).check = true := by
  cases state <;>
    simp_all [AttemptRow.check, AttemptRow.timesCheck, AttemptRow.settle, AttemptState.settles,
      AttemptState.isSettled]

end Edits

section Kinds

variable (s : t.Sourced) (m : Mirrors t v event.sessionId restI restA)
include s m

theorem admitInput_writes {inputId : InputId} {prompt : PromptText} {deliveryMode : DeliveryMode}
    (payload : event.payload = .inputAdmitted inputId prompt deliveryMode)
    (he : event ∈ t.events) (free : ∀ row ∈ v.messages, row.source ≠ .input inputId)
    (text : v.NewText event) (waiting : Waiting mode (event :: future) restI restA)
    (fresh : mode = .append → t.NewKeys event) :
    ∃ restI', Writes t (t.admitInput mode event inputId prompt deliveryMode)
      (v.admitInput event inputId prompt deliveryMode) event.sessionId restI' restA ∧
        Waiting mode future restI' restA := by
  have source : event.payload.messageSource? = some (.input inputId) := by rw [payload]; rfl
  have sourced : t.InputSourced (.admitted event inputId prompt deliveryMode) :=
    ⟨rfl, m.hasSession, ⟨event, he, rfl, rfl, source⟩⟩
  have admitted : StreamScan.admittedInput? event = some inputId := by
    rw [StreamScan.admittedInput?, payload]
  have prepared : event.preparedAttempt? = none := by
    rw [EventEnvelope.preparedAttempt?, payload]
    rfl
  obtain ⟨restI', written, rest⟩ := writeInput_writes s m rfl sourced admitted prepared waiting
    fresh
  refine ⟨restI', written.bind fun u su mu framed => ?_, rest⟩
  have hu : event ∈ u.events := framed.events ▸ he
  refine (insertMessage_writes (.first event (.input inputId) .user .complete) su mu
    ⟨mu.hasSession, event, hu, rfl, rfl, source⟩ (decide_eq_true (le_refl _)) free).bind
    fun w sw mw framed' => ?_
  exact insertSegment_writes (.ofEvent event (.input inputId) prompt.value) sw mw
    ⟨event, framed'.events ▸ hu, rfl, rfl, rfl, source⟩
    ⟨.first event (.input inputId) .user .complete, by simp, rfl⟩ text

omit s in
/-- Rows of the same attempts in every session are the same rows. -/
theorem mem_attempts_of_framed {v' : SessionView} {restI' : List InputRow}
    (m' : Mirrors u v' event.sessionId restI' restA) (same : v'.attempts = v.attempts)
    (framed : Framed t u event.sessionId) (row : AttemptRow) :
    row ∈ u.attempts ↔ row ∈ t.attempts := by
  have equal : t.attemptsOf row.sessionId = u.attemptsOf row.sessionId := by
    by_cases own : row.sessionId = event.sessionId
    · rw [own, m.attempts, m'.attempts, same]
    · exact (framed.elsewhere row.sessionId own).attempts
  have there : row ∈ u.attemptsOf row.sessionId ↔ row ∈ u.attempts :=
    Interleaving.mem_project_self
  have here : row ∈ t.attemptsOf row.sessionId ↔ row ∈ t.attempts :=
    Interleaving.mem_project_self
  rw [← there, ← here, equal]

theorem prepareAttempt_writes {attemptId : AttemptId} {inputId : InputId} {model : ModelRef}
    {retryOf : Option AttemptId}
    (payload : event.payload = .attemptPrepared attemptId inputId model retryOf)
    (he : event ∈ t.events) (input : ∃ row ∈ v.inputs, row.inputId = inputId)
    (retry : ∀ priorId, retryOf = some priorId →
      ∃ row ∈ v.attempts, row.attemptId = priorId ∧ row.state.isSettled = true)
    (waiting : Waiting mode (event :: future) restI restA)
    (fresh : mode = .append → t.NewKeys event) :
    ∃ restA', Writes t
      (t.prepareAttempt mode event (.prepared event attemptId inputId model retryOf))
      (v.prepareAttempt event attemptId inputId model retryOf) event.sessionId restI restA' ∧
        Waiting mode future restI restA' := by
  have prepared : event.preparedAttempt? = some attemptId := by
    rw [EventEnvelope.preparedAttempt?, payload]
    rfl
  have admitted : StreamScan.admittedInput? event = none := by
    rw [StreamScan.admittedInput?, payload]
  have settled : t.requireRetry mode event retryOf = .ok () := by
    rw [requireRetry, if_pos]
    rw [Option.all_eq_true]
    intro priorId hp
    obtain ⟨row, hr, rfl, state⟩ := retry priorId hp
    rw [m.find?_attempt hr]
    simp [(m.mem_attempt hr).2, state]
  have allowed : ¬((t.attempts.find? attemptId).isSome && decide (mode = .append)) = true := by
    intro taken
    simp only [Bool.and_eq_true, decide_eq_true_eq] at taken
    obtain ⟨row, found⟩ := Option.isSome_iff_exists.mp taken.1
    obtain ⟨mem, key⟩ := KeyedTable.find?_eq_some_iff.mp found
    exact (fresh taken.2).2 attemptId prepared row mem key
  obtain ⟨row, hr, own⟩ := input
  obtain ⟨u, promoted, su, mu, framed⟩ := promoteInput_writes mode s m hr own
  have same := mem_attempts_of_framed m mu rfl framed
  have known : (t.attempts.find? attemptId).isSome = (u.attempts.find? attemptId).isSome := by
    rw [Bool.eq_iff_iff]
    simp only [Option.isSome_iff_exists, KeyedTable.find?_eq_some_iff, same]
  have hu : event ∈ u.events := framed.events ▸ he
  have sourced : u.AttemptSourced (.prepared event attemptId inputId model retryOf) := by
    refine ⟨rfl, mu.hasSession, ?_, fun priorId hp => ?_, fun column eventId hc => ?_⟩
    · have promotedRow : alter (fun row => decide (row.key = (event.sessionId, inputId)))
          (InputRow.promote event) row ∈ (v.promoteInput event inputId).inputs :=
        List.mem_map_of_mem hr
      refine ⟨_, (mu.mem_input promotedRow).1, ?_⟩
      rw [KeyedTable.alter_congr (InputRow.promote event).keeps]
      exact Prod.ext (m.mem_input hr).2 own
    · obtain ⟨prior, hprior, rfl, -⟩ := retry priorId hp
      obtain ⟨mem, session⟩ := m.mem_attempt hprior
      exact hasAttempt_iff.mpr ⟨prior, (same prior).mpr mem, rfl, session⟩
    · cases column with
      | prepared =>
        cases Option.some.inj hc
        exact ⟨event, hu, rfl, rfl, by rw [payload]; rfl⟩
      | started | settled | cancellation | usage => cases hc
  have fresh' : mode = .append → u.NewKeys event := by
    intro live
    refine ⟨fun inputId' h => ?_, fun a h other ho => ?_⟩
    · rw [admitted] at h
      cases h
    · exact (fresh live).2 a h other ((same other).mp ho)
  obtain ⟨restA', written, rest⟩ := writeAttempt_writes su mu rfl sourced prepared admitted known
    waiting fresh'
  refine ⟨restA', ?_, rest⟩
  obtain ⟨w, hw, sw, mw, framed'⟩ := written
  refine ⟨w, ?_, sw, mw, framed.trans framed'⟩
  refine (if_neg allowed).trans ?_
  exact bind_eq_ok_iff.mpr ⟨(), settled, bind_eq_ok_iff.mpr ⟨u, promoted, hw⟩⟩

omit s in
theorem find?_message_isSome (attemptId : AttemptId) :
    (t.messages.find? (event.sessionId, .attempt attemptId)).isSome =
      v.hasMessage (.attempt attemptId) := by
  rw [Bool.eq_iff_iff, SessionView.hasMessage, List.any_eq_true]
  simp only [Option.isSome_iff_exists, KeyedTable.find?_eq_some_iff, m.mem_message_iff,
    decide_eq_true_eq, MessageRow.key, Prod.mk.injEq]
  exact exists_congr fun row => and_assoc.symm

theorem writeMessage_writes (mode : ProjectionMode) {attemptId : AttemptId}
    (source : event.payload.messageSource? = some (.attempt attemptId)) (he : event ∈ t.events)
    (before : v.MessageBefore event attemptId)
    (streaming : ∀ row ∈ v.messages, row.source = .attempt attemptId → row.state = .streaming) :
    Writes t (t.writeMessage mode event attemptId) (v.writeMessage event attemptId)
      event.sessionId restI restA := by
  have found := find?_message_isSome m attemptId
  unfold writeMessage SessionView.writeMessage
  by_cases exist : v.hasMessage (.attempt attemptId) = true
  · rw [exist] at found
    rw [if_pos found, if_pos exist]
    have at_iff (row : MessageRow) : MessageRow.isAt event attemptId
        (fun row => row.state = .streaming) row = true ↔
        row.key = (event.sessionId, .attempt attemptId) ∧ row.state = .streaming := by
      simp [MessageRow.isAt]
    have session (row : MessageRow) (selected : MessageRow.isAt event attemptId
        (fun row => row.state = .streaming) row = true) : row.sessionId = event.sessionId :=
      congrArg Prod.fst ((at_iff row).mp selected).1
    obtain ⟨u, updated, su, mu, framed⟩ := updateMessages_writes (f := MessageRow.extend event) s m
      session (fun _ => rfl) fun row hr selected => decide_eq_true
        (before row hr (congrArg Prod.snd ((at_iff row).mp selected).1))
    obtain ⟨row, known⟩ := Option.isSome_iff_exists.mp found
    obtain ⟨mem, key⟩ := KeyedTable.find?_eq_some_iff.mp known
    have own : row ∈ v.messages := m.mem_message_iff.mpr ⟨mem, congrArg Prod.fst key⟩
    have one : v.messages.filter
        (MessageRow.isAt event attemptId fun row => row.state = .streaming) = [row] := by
      rw [← m.select_messages session]
      refine KeyedTable.select_eq_singleton mem ?_
        fun other _ selected => ((at_iff other).mp selected).1.trans key.symm
      exact (at_iff row).mpr ⟨key, streaming row own (congrArg Prod.snd key)⟩
    refine ⟨u, ?_, su, mu, framed⟩
    rw [updated, one]
    rfl
  · rw [Bool.not_eq_true] at exist
    rw [exist] at found
    rw [if_neg (by simp [found]), if_neg (by simp [exist])]
    refine insertMessage_writes (.first event (.attempt attemptId) .assistant .streaming)
      s m ⟨m.hasSession, event, he, rfl, rfl, source⟩ (decide_eq_true (le_refl _)) ?_
    intro other ho same
    simp only [SessionView.hasMessage, List.any_eq_false, decide_eq_true_eq] at exist
    exact exist other ho same

theorem appendText_writes {attemptId : AttemptId} {text : ResponseText}
    (payload : event.payload = .attemptTextAppended attemptId text) (he : event ∈ t.events)
    (flight : v.InFlight attemptId) (before : v.MessageBefore event attemptId)
    (new : v.NewText event)
    (streaming : ∀ row ∈ v.messages, row.source = .attempt attemptId → row.state = .streaming) :
    Writes t (t.appendText mode event attemptId text)
      ((v.writeMessage event attemptId).addText event (.attempt attemptId) text.value)
      event.sessionId restI restA := by
  have source : event.payload.messageSource? = some (.attempt attemptId) := by rw [payload]; rfl
  have ready : t.requireAttemptInFlight mode event attemptId = .ok () := by
    obtain ⟨row, hr, rfl, state⟩ := flight
    rw [requireAttemptInFlight, m.find?_attempt hr]
    simp [(m.mem_attempt hr).2, state]
  have message : ∃ row ∈ (v.writeMessage event attemptId).messages,
      row.source = .attempt attemptId := by
    unfold SessionView.writeMessage
    split
    next exist =>
      rw [SessionView.hasMessage, List.any_eq_true] at exist
      obtain ⟨row, hr, own⟩ := exist
      refine ⟨_, List.mem_map_of_mem hr, ?_⟩
      have kept := KeyedTable.alter_congr (p := MessageRow.isAt event attemptId
        fun row => row.state = .streaming) (MessageRow.extend event).keeps row
      exact (congrArg Prod.snd kept).trans (of_decide_eq_true own)
    next => exact ⟨.first event (.attempt attemptId) .assistant .streaming, by simp, rfl⟩
  have text' : (v.writeMessage event attemptId).NewText event := by
    unfold SessionView.writeMessage
    split
    · exact new
    · exact new
  unfold appendText
  rw [ready, FallibleRun.ok_bind]
  refine (writeMessage_writes s m mode source he before streaming).bind
    fun u su mu framed => ?_
  exact insertSegment_writes (.ofEvent event (.attempt attemptId) text.value) su mu
    ⟨event, framed.events ▸ he, rfl, rfl, rfl, source⟩ message text'

theorem settleAttempt_writes {attemptId : AttemptId} {state : AttemptState}
    {failure : Option AttemptFailure} (settled : state.isSettled = true)
    (failed : failure.isSome = decide (state = .failed))
    (column : event.payload.attemptColumn? = some (.settled, attemptId)) (he : event ∈ t.events)
    (settles : v.Settles event attemptId state) :
    Writes t (t.settleAttempt mode event attemptId state failure)
      (v.settleAttempt event attemptId state failure) event.sessionId restI restA := by
  obtain ⟨⟨row, hr, rfl, hs⟩, before⟩ := settles
  have check := (s.attempts row (m.mem_attempt hr).1).check
  refine (changeAttempt_writes s m he hr hs (settle_edit column)
    (settle_check check hs settled failed)).bind fun u su mu framed => ?_
  have at_iff (message : MessageRow) : MessageRow.isAt event row.attemptId (fun _ => true) message =
      true ↔ message.key = (event.sessionId, .attempt row.attemptId) := by
    simp [MessageRow.isAt]
  obtain ⟨w, updated, sw, mw, framed'⟩ := updateMessages_writes
    (p := MessageRow.isAt event row.attemptId fun _ => true)
    (f := MessageRow.close event state.transcriptState) su mu
    (fun message selected => congrArg Prod.fst ((at_iff message).mp selected)) (fun _ => rfl)
    fun message hm selected => decide_eq_true
      (before message hm (congrArg Prod.snd ((at_iff message).mp selected)))
  exact ⟨w, bind_eq_ok_iff.mpr ⟨_, updated, rfl⟩, sw, mw, framed'⟩

end Kinds

end SessionTables

end AutoHarness
