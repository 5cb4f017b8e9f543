import AutoHarness.SessionMirror

namespace AutoHarness

open KeyedTable (alter RowMap)
open FallibleRun (bind_eq_ok_iff)
open Interleaving (project)

namespace SessionTables

variable {t u : SessionTables} {v : SessionView} {sessionId k : SessionId}
  {restI : List InputRow} {restA : List AttemptRow}

/-- A statement succeeds, the rows of the session become those of the view, and nothing else
changes. -/
def Writes (t : SessionTables) (result : Except StoreError SessionTables) (v : SessionView)
    (sessionId : SessionId) (restI : List InputRow) (restA : List AttemptRow) : Prop :=
  ∃ u, result = .ok u ∧ u.Sourced ∧ Mirrors u v sessionId restI restA ∧ Framed t u sessionId

theorem Writes.bind {result : Except StoreError SessionTables}
    {next : SessionTables → Except StoreError SessionTables} {v' : SessionView}
    {restI' : List InputRow} {restA' : List AttemptRow}
    (h : Writes t result v sessionId restI restA)
    (hn : ∀ u, u.Sourced → Mirrors u v sessionId restI restA → Framed t u sessionId →
      Writes u (next u) v' sessionId restI' restA') :
    Writes t (result >>= next) v' sessionId restI' restA' := by
  obtain ⟨u, hu, s, m, framed⟩ := h
  obtain ⟨w, hw, s', m', framed'⟩ := hn u s m framed
  exact ⟨w, bind_eq_ok_iff.mpr ⟨u, hu, hw⟩, s', m', framed.trans framed'⟩

theorem alter_eq_of_ne {κ ρ : Type} {key : ρ → κ} {p : ρ → Bool} {f : RowMap key} {row : ρ}
    (h : p row = false) : alter p f row = row := by
  unfold alter
  rw [h]
  rfl

theorem map_alter_of_ne {κ ρ : Type} {key : ρ → κ} {p : ρ → Bool} {f : RowMap key}
    (rows : List ρ) (h : ∀ row ∈ rows, p row = false) : rows.map (alter p f) = rows := by
  rw [List.map_congr_left (g := id), List.map_id]
  exact fun row hr => alter_eq_of_ne (h row hr)

section Header

theorem updateSessions_writes {f : RowMap SessionRow.sessionId} (s : t.Sourced)
    (m : Mirrors t v sessionId restI restA) :
    Writes t (.ok (t.updateSessions sessionId f).1) (v.setHeader f) sessionId restI restA := by
  have own : v.header.sessionId = sessionId :=
    (KeyedTable.find?_eq_some_iff.mp m.header).2
  have found (k : SessionId) : (t.updateSessions sessionId f).1.sessions.find? k =
      (t.sessions.find? k).map (alter (fun row => row.sessionId = sessionId) f) :=
    KeyedTable.find?_update
  have ext : Extends t (t.updateSessions sessionId f).1 := by
    refine ⟨fun _ h => h, fun k h => ?_, fun row h => ⟨row, h, rfl⟩, fun _ _ h => h, fun _ h => h⟩
    rw [hasSession] at h ⊢
    rw [found, Option.isSome_map]
    exact h
  have frame : Framed t (t.updateSessions sessionId f).1 sessionId := by
    refine ⟨fun k hk => ⟨?_, rfl, rfl, rfl, rfl, rfl⟩, rfl, rfl⟩
    rw [found]
    cases row : t.sessions.find? k with
    | none => rfl
    | some header =>
      have key := (KeyedTable.find?_eq_some_iff.mp row).2
      have kept : alter (fun row => decide (row.sessionId = sessionId)) f header = header := by
        refine alter_eq_of_ne (decide_eq_false fun same => hk ?_)
        rw [← key, same]
      rw [Option.map_some, kept]
  refine ⟨_, rfl, ?_, ⟨?_, m.inputs, m.attempts, m.messages, m.segments, m.bindings⟩, frame⟩
  · exact s.extend ext rfl (fun _ h => .inl h) (fun _ h => .inl h) (fun _ h => .inl h)
      (fun _ h => .inl h) (fun _ h => .inl h)
  · rw [found, m.header]
    simp [alter, own, SessionView.setHeader]

theorem updateHeader_writes {f : RowMap SessionRow.sessionId} {event : EventEnvelope}
    (s : t.Sourced) (m : Mirrors t v event.sessionId restI restA) :
    Writes t (t.updateHeader event f) (v.setHeader f) event.sessionId restI restA := by
  obtain ⟨mem, key⟩ := KeyedTable.find?_eq_some_iff.mp m.header
  have one : t.sessions.select (fun row => row.sessionId = event.sessionId) = [v.header] :=
    KeyedTable.select_eq_singleton mem (decide_eq_true key)
      fun r _ selected => (of_decide_eq_true selected).trans key.symm
  have changed : (t.updateSessions event.sessionId f).2 = 1 := by
    simp [updateSessions, one]
  have ok : t.updateHeader event f = .ok (t.updateSessions event.sessionId f).1 := by
    rw [updateHeader, requireSessionRow, if_pos changed]
  rw [ok]
  exact updateSessions_writes s m

end Header

section Insertion

theorem project_insert {κ ρ : Type} [DecidableEq κ] {key : ρ → κ} {φ : ρ → SessionId}
    {table after : KeyedTable key} {row : ρ} (h : table.insert? row = some after) :
    project φ (φ row) after.rows = project φ (φ row) table.rows ++ [row] ∧
      ∀ k, k ≠ φ row → project φ k table.rows = project φ k after.rows := by
  rw [KeyedTable.rows_of_insert? h]
  constructor
  · rw [Interleaving.project_append, Interleaving.project_singleton_self]
  · intro k hk
    rw [Interleaving.project_append, Interleaving.project_singleton_ne (Ne.symm hk),
      List.append_nil]

theorem mem_insert {κ ρ : Type} [DecidableEq κ] {key : ρ → κ} {table after : KeyedTable key}
    {row r : ρ} (h : table.insert? row = some after) (hr : r ∈ after) : r ∈ table ∨ r = row :=
  ((KeyedTable.insert?_eq_some h).1 r).mp hr

theorem insertMessage_writes (row : MessageRow) (s : t.Sourced)
    (m : Mirrors t v row.sessionId restI restA) (sourced : t.MessageSourced row)
    (check : row.check = true) (fresh : ∀ other ∈ v.messages, other.source ≠ row.source) :
    Writes t (t.insertMessage row) { v with messages := v.messages ++ [row] } row.sessionId
      restI restA := by
  have absent : ∀ other ∈ t.messages, other.key ≠ row.key := by
    intro other ho same
    have parts := Prod.ext_iff.mp same
    exact fresh other (m.mem_message_iff.mpr ⟨ho, parts.1⟩) parts.2
  obtain ⟨messages, inserted⟩ := KeyedTable.insert?_of_fresh absent
  have rows := project_insert (φ := MessageRow.sessionId) inserted
  have ext : Extends t { t with messages } :=
    ⟨fun _ h => h, fun _ h => h, fun r h => ⟨r, h, rfl⟩, fun _ _ h => h, fun _ h => h⟩
  refine ⟨{ t with messages }, ?_, ?_, ⟨m.header, m.inputs, m.attempts, ?_, m.segments,
    m.bindings⟩, ⟨fun k hk => ⟨rfl, rfl, rfl, rows.2 k hk, rfl, rfl⟩, rfl, rfl⟩⟩
  · simp [insertMessage, inserted, s.messageAllowed sourced check]
  · refine s.extend ext rfl (fun _ h => .inl h) (fun _ h => .inl h) (fun r h => ?_)
      (fun _ h => .inl h) (fun _ h => .inl h)
    rcases mem_insert inserted h with old | rfl
    · exact .inl old
    · exact .inr (ext.messageSourced sourced)
  · exact rows.1.trans (congrArg (· ++ [row]) m.messages)

theorem insertSegment_writes (row : SegmentRow) (s : t.Sourced)
    (m : Mirrors t v row.sessionId restI restA) (sourced : t.SegmentSourced row)
    (message : ∃ other ∈ v.messages, other.source = row.source)
    (fresh : ∀ other ∈ v.segments, other.sourceEventId ≠ row.sourceEventId) :
    Writes t (t.insertSegment row) { v with segments := v.segments ++ [row] } row.sessionId
      restI restA := by
  have absent : ∀ other ∈ t.segments, other.key ≠ row.key := by
    intro other ho same
    have parts := Prod.ext_iff.mp same
    obtain ⟨event, he, hid, hs, hq, -⟩ := sourced
    obtain ⟨event', he', hid', hs', hq', -⟩ := s.segments other ho
    have eq : event' = event := s.ledger.sequence event' he' event he
      (hs'.trans (parts.1.trans hs.symm))
      (hq'.trans ((Prod.ext_iff.mp parts.2).2.trans hq.symm))
    refine fresh other (m.mem_segment_iff.mpr ⟨ho, parts.1⟩) ?_
    rw [← hid', ← hid, eq]
  have found : ∃ other ∈ t.messages, other.key = (row.sessionId, row.source) := by
    obtain ⟨other, ho, source⟩ := message
    obtain ⟨mem, session⟩ := m.mem_message_iff.mp ho
    exact ⟨other, mem, Prod.ext session source⟩
  obtain ⟨segments, inserted⟩ := KeyedTable.insert?_of_fresh absent
  have rows := project_insert (φ := SegmentRow.sessionId) inserted
  have ext : Extends t { t with segments } :=
    ⟨fun _ h => h, fun _ h => h, fun r h => ⟨r, h, rfl⟩, fun _ _ h => h, fun _ h => h⟩
  refine ⟨{ t with segments }, ?_, ?_, ⟨m.header, m.inputs, m.attempts, m.messages, ?_,
    m.bindings⟩, ⟨fun k hk => ⟨rfl, rfl, rfl, rfl, rows.2 k hk, rfl⟩, rfl, rfl⟩⟩
  · simp [insertSegment, inserted, s.segmentAllowed sourced found]
  · refine s.extend ext rfl (fun _ h => .inl h) (fun _ h => .inl h) (fun _ h => .inl h)
      (fun r h => ?_) (fun _ h => .inl h)
    rcases mem_insert inserted h with old | rfl
    · exact .inl old
    · exact .inr (ext.segmentSourced sourced)
  · exact rows.1.trans (congrArg (· ++ [row]) m.segments)

theorem insertBinding_writes (row : ContextTurnBindingRow) (s : t.Sourced)
    (m : Mirrors t v row.sessionId restI restA) (sourced : t.BindingSourced row)
    (positive : row.runTurn ≠ 0) (attempt : t.hasAttempt row.sessionId row.attemptId = true)
    (fresh : ∀ other ∈ v.bindings, other.contextTurnId ≠ row.contextTurnId) :
    Writes t (t.insertBinding row) { v with bindings := v.bindings ++ [row] } row.sessionId
      restI restA := by
  have absent : ∀ other ∈ t.bindings, other.contextTurnId ≠ row.contextTurnId := by
    intro other ho same
    have turns : other.turn = row.turn :=
      KeyedTable.eq_of_key (s.bindings other ho).turn sourced.turn same
    have session : other.sessionId = row.sessionId := congrArg ContextTurnKey.sessionId turns
    exact fresh other (m.mem_binding_iff.mpr ⟨ho, session⟩) same
  obtain ⟨bindings, inserted⟩ := KeyedTable.insert?_of_fresh absent
  have rows := project_insert (φ := ContextTurnBindingRow.sessionId) inserted
  have ext : Extends t { t with bindings } :=
    ⟨fun _ h => h, fun _ h => h, fun r h => ⟨r, h, rfl⟩, fun _ _ h => h, fun _ h => h⟩
  refine ⟨{ t with bindings }, ?_, ?_, ⟨m.header, m.inputs, m.attempts, m.messages, m.segments,
    ?_⟩, ⟨fun k hk => ⟨rfl, rfl, rfl, rfl, rfl, rows.2 k hk⟩, rfl, rfl⟩⟩
  · simp [insertBinding, inserted, s.bindingAllowed sourced positive attempt]
  · refine s.extend ext rfl (fun _ h => .inl h) (fun _ h => .inl h) (fun _ h => .inl h)
      (fun _ h => .inl h) (fun r h => ?_)
    rcases mem_insert inserted h with old | rfl
    · exact .inl old
    · exact .inr (ext.bindingSourced sourced)
  · exact rows.1.trans (congrArg (· ++ [row]) m.bindings)

end Insertion

section Update

theorem project_update {κ ρ : Type} {key : ρ → κ} {φ : ρ → SessionId} (table : KeyedTable key)
    (p : ρ → Bool) (f : RowMap key) (sessionId : SessionId)
    (own : ∀ row ∈ table, p row = true → φ row = sessionId ∧ φ (f.apply row) = sessionId) :
    project φ sessionId (table.update p f).rows =
        (project φ sessionId table.rows).map (alter p f) ∧
      ∀ k, k ≠ sessionId → project φ k table.rows = project φ k (table.update p f).rows := by
  have kept : ∀ row ∈ table.rows, φ (alter p f row) = φ row := by
    intro row hr
    unfold alter
    split
    next selected =>
      obtain ⟨before, after⟩ := own row hr selected
      exact after.trans before.symm
    next => rfl
  constructor
  · exact Interleaving.project_map kept sessionId
  · intro k hk
    refine (Interleaving.project_map_of_ne kept fun row hr hkey => alter_eq_of_ne ?_).symm
    exact Bool.eq_false_iff.mpr fun selected => hk (hkey.symm.trans (own row hr selected).1)

theorem updateAttempts_one {p : AttemptRow → Bool} {f : RowMap AttemptRow.attemptId}
    {row : AttemptRow} (one : t.attempts.select p = [row])
    (allowed : t.attemptAllowed (f.apply row) = true) :
    t.updateAttempts p f = .ok ({ t with attempts := t.attempts.update p f }, 1) := by
  simp [updateAttempts, one, allowed]

theorem updateInputs_one {p : InputRow → Bool} {f : RowMap InputRow.key} {row : InputRow}
    (one : t.inputs.select p = [row]) (allowed : t.inputAllowed (f.apply row) = true) :
    t.updateInputs p f = .ok ({ t with inputs := t.inputs.update p f }, 1) := by
  simp [updateInputs, one, allowed]

/-- What a change of an attempt by an event may do to its columns. -/
structure AttemptEdit (event : EventEnvelope) (attemptId : AttemptId)
    (f : RowMap AttemptRow.attemptId) : Prop where
  sessionId : ∀ row, (f.apply row).sessionId = row.sessionId
  inputId : ∀ row, (f.apply row).inputId = row.inputId
  retryOf : ∀ row, (f.apply row).retryOf = row.retryOf
  columns : ∀ row column eventId, (f.apply row).eventAt column = some eventId →
    row.eventAt column = some eventId ∨
      (eventId = event.eventId ∧ event.payload.attemptColumn? = some (column, attemptId))

theorem AttemptEdit.sourced {event : EventEnvelope} {f : RowMap AttemptRow.attemptId}
    {row : AttemptRow} (edit : AttemptEdit event row.attemptId f) (he : event ∈ t.events)
    (hs : event.sessionId = row.sessionId) (h : t.AttemptSourced row)
    (check : (f.apply row).check = true) : t.AttemptSourced (f.apply row) where
  check := check
  session := by rw [edit.sessionId]; exact h.session
  input := by rw [edit.sessionId, edit.inputId]; exact h.input
  retry := by rw [edit.sessionId, edit.retryOf]; exact h.retry
  origin := by
    intro column eventId hc
    rw [edit.sessionId]
    rcases edit.columns row column eventId hc with old | ⟨rfl, new⟩
    · obtain ⟨source, hm, rest⟩ := h.origin column eventId old
      exact ⟨source, hm, by rw [f.keeps]; exact rest⟩
    · exact ⟨event, he, rfl, hs, by rw [f.keeps]; exact new⟩

/-- One attempt of the session is written again. -/
theorem updateAttempt_writes (mode : ProjectionMode) (attempts restA' : List AttemptRow)
    {p : AttemptRow → Bool} {f : RowMap AttemptRow.attemptId} {row : AttemptRow} (s : t.Sourced) (m : Mirrors t v sessionId restI restA)
    (mem : row ∈ t.attempts) (session : row.sessionId = sessionId)
    (session' : (f.apply row).sessionId = sessionId) (hp : p row = true)
    (only : ∀ other ∈ t.attempts, p other = true → other.attemptId = row.attemptId)
    (sourced : t.AttemptSourced (f.apply row))
    (rows : (v.attempts ++ restA).map (alter p f) = attempts ++ restA') :
    Writes t (t.updateAttempts p f >>= requireTransition mode) { v with attempts } sessionId
      restI restA' := by
  have picked : ∀ other ∈ t.attempts, p other = true → other = row :=
    fun other ho selected => KeyedTable.eq_of_key ho mem (only other ho selected)
  have one : t.attempts.select p = [row] := KeyedTable.select_eq_singleton mem hp only
  have updated := updateAttempts_one one (s.attemptAllowed sourced)
  have moved := project_update (φ := AttemptRow.sessionId) t.attempts p f sessionId fun other ho selected => by
      rw [picked other ho selected]
      exact ⟨session, session'⟩
  have ext : Extends t { t with attempts := t.attempts.update p f } := by
    refine ⟨fun _ h => h, fun _ h => h, fun r h => ⟨r, h, rfl⟩, fun k a h => ?_, fun _ h => h⟩
    obtain ⟨old, ho, ha, hk⟩ := hasAttempt_iff.mp h
    refine hasAttempt_iff.mpr ⟨alter p f old, KeyedTable.alter_mem_update ho, ?_, ?_⟩
    · rw [KeyedTable.alter_congr f.keeps, ha]
    · unfold alter
      split
      next selected =>
        rw [picked old ho selected] at hk ⊢
        exact session'.trans (session.symm.trans hk)
      next => exact hk
  refine ⟨{ t with attempts := t.attempts.update p f }, ?_, ?_,
    ⟨m.header, m.inputs, ?_, m.messages, m.segments, m.bindings⟩,
    ⟨fun k hk => ⟨rfl, rfl, moved.2 k hk, rfl, rfl, rfl⟩, rfl, rfl⟩⟩
  · simp [updated, requireTransition]
  · refine s.extend ext rfl (fun _ h => .inl h) (fun other ho => ?_) (fun _ h => .inl h)
      (fun _ h => .inl h) (fun _ h => .inl h)
    obtain ⟨old, hold, rfl⟩ := KeyedTable.mem_update.mp ho
    by_cases selected : p old = true
    · right
      rw [alter, if_pos selected, picked old hold selected]
      exact ext.attemptSourced sourced
    · left
      rw [alter_eq_of_ne (Bool.eq_false_iff.mpr selected)]
      exact hold
  · refine moved.1.trans ?_
    change (t.attemptsOf sessionId).map _ = _
    rw [m.attempts, rows]

/-- One input of the session is written again. -/
theorem updateInput_writes (mode : ProjectionMode) (inputs restI' : List InputRow)
    {p : InputRow → Bool} {f : RowMap InputRow.key} {row : InputRow} (s : t.Sourced) (m : Mirrors t v sessionId restI restA)
    (mem : row ∈ t.inputs) (session : row.sessionId = sessionId) (hp : p row = true)
    (only : ∀ other ∈ t.inputs, p other = true → other.key = row.key)
    (sourced : t.InputSourced (f.apply row))
    (rows : (v.inputs ++ restI).map (alter p f) = inputs ++ restI') :
    Writes t (t.updateInputs p f >>= requireTransition mode) { v with inputs } sessionId
      restI' restA := by
  have picked : ∀ other ∈ t.inputs, p other = true → other = row :=
    fun other ho selected => KeyedTable.eq_of_key ho mem (only other ho selected)
  have one : t.inputs.select p = [row] := KeyedTable.select_eq_singleton mem hp only
  have updated := updateInputs_one one (s.inputAllowed sourced)
  have moved := project_update (φ := InputRow.sessionId) t.inputs p f sessionId fun other ho selected => by
      rw [picked other ho selected]
      exact ⟨session, (congrArg Prod.fst (f.keeps row)).trans session⟩
  have ext : Extends t { t with inputs := t.inputs.update p f } := by
    refine ⟨fun _ h => h, fun _ h => h, fun r h => ?_, fun _ _ h => h, fun _ h => h⟩
    exact ⟨alter p f r, KeyedTable.alter_mem_update h, KeyedTable.alter_congr f.keeps r⟩
  refine ⟨{ t with inputs := t.inputs.update p f }, ?_, ?_,
    ⟨m.header, ?_, m.attempts, m.messages, m.segments, m.bindings⟩,
    ⟨fun k hk => ⟨rfl, moved.2 k hk, rfl, rfl, rfl, rfl⟩, rfl, rfl⟩⟩
  · simp [updated, requireTransition]
  · refine s.extend ext rfl (fun other ho => ?_) (fun _ h => .inl h) (fun _ h => .inl h)
      (fun _ h => .inl h) (fun _ h => .inl h)
    obtain ⟨old, hold, rfl⟩ := KeyedTable.mem_update.mp ho
    by_cases selected : p old = true
    · right
      rw [alter, if_pos selected, picked old hold selected]
      exact ext.inputSourced sourced
    · left
      rw [alter_eq_of_ne (Bool.eq_false_iff.mpr selected)]
      exact hold
  · refine moved.1.trans ?_
    change (t.inputsOf sessionId).map _ = _
    rw [m.inputs, rows]

theorem Mirrors.select_messages {p : MessageRow → Bool} (m : Mirrors t v sessionId restI restA)
    (own : ∀ row, p row = true → row.sessionId = sessionId) :
    t.messages.select p = v.messages.filter p := by
  rw [← m.messages]
  simp only [KeyedTable.select, messagesOf, project, List.filter_filter]
  refine List.filter_congr fun row _ => ?_
  by_cases hp : p row = true
  · simp [hp, own row hp]
  · simp [hp]

/-- The messages of the session that are selected are written again. -/
theorem updateMessages_writes {p : MessageRow → Bool} {f : RowMap MessageRow.key} (s : t.Sourced)
    (m : Mirrors t v sessionId restI restA)
    (own : ∀ row, p row = true → row.sessionId = sessionId)
    (first : ∀ row, (f.apply row).firstSequence = row.firstSequence)
    (check : ∀ row ∈ v.messages, p row = true → (f.apply row).check = true) :
    ∃ u, t.updateMessages p f = .ok (u, (v.messages.filter p).length) ∧ u.Sourced ∧
      Mirrors u { v with messages := v.messages.map (alter p f) } sessionId restI restA ∧
      Framed t u sessionId := by
  have sourced : ∀ row ∈ t.messages, t.MessageSourced (f.apply row) := by
    intro row hr
    have parts := Prod.ext_iff.mp (f.keeps row)
    have session : (f.apply row).sessionId = row.sessionId := parts.1
    have source : (f.apply row).source = row.source := parts.2
    obtain ⟨known, origin⟩ := s.messages row hr
    refine ⟨session ▸ known, ?_⟩
    rw [session, source, first]
    exact origin
  have selected := m.select_messages own
  have allowed : ((v.messages.filter p).all fun row => t.messageAllowed (f.apply row)) = true := by
    rw [List.all_eq_true]
    intro row hr
    obtain ⟨mem, hp⟩ := List.mem_filter.mp hr
    exact s.messageAllowed (sourced row (m.mem_message_iff.mp mem).1) (check row mem hp)
  have moved := project_update (φ := MessageRow.sessionId) t.messages p f sessionId fun row _ hp =>
      ⟨own row hp, (congrArg Prod.fst (f.keeps row)).trans (own row hp)⟩
  have ext : Extends t { t with messages := t.messages.update p f } :=
    ⟨fun _ h => h, fun _ h => h, fun r h => ⟨r, h, rfl⟩, fun _ _ h => h, fun _ h => h⟩
  refine ⟨{ t with messages := t.messages.update p f }, ?_, ?_,
    ⟨m.header, m.inputs, m.attempts, ?_, m.segments, m.bindings⟩,
    ⟨fun k hk => ⟨rfl, rfl, rfl, moved.2 k hk, rfl, rfl⟩, rfl, rfl⟩⟩
  · rw [updateMessages, selected, if_pos allowed]
  · refine s.extend ext rfl (fun _ h => .inl h) (fun _ h => .inl h) (fun other ho => ?_)
      (fun _ h => .inl h) (fun _ h => .inl h)
    obtain ⟨old, hold, rfl⟩ := KeyedTable.mem_update.mp ho
    by_cases hp : p old = true
    · right
      rw [alter, if_pos hp]
      exact ext.messageSourced (sourced old hold)
    · left
      rw [alter_eq_of_ne (Bool.eq_false_iff.mpr hp)]
      exact hold
  · refine moved.1.trans ?_
    change (t.messagesOf sessionId).map _ = _
    rw [m.messages]

end Update

end SessionTables

end AutoHarness
