import AutoHarness.SessionRebuild

namespace AutoHarness

open KeyedTable (alter RowMap)
open FallibleRun (bind_eq_ok_iff run)

namespace SessionTables

variable {t u w : SessionTables} {mode : ProjectionMode} {event : EventEnvelope}
  {sessionId k : SessionId} {request : AppendRequest}

/-- The workspace of each session. -/
def workspaces (t : SessionTables) (k : SessionId) : Option WorkspaceId :=
  (t.sessions.find? k).bind SessionRow.workspaceId

/-- Neither the ledger nor the workspace of a session changes. -/
structure Keeps (t u : SessionTables) : Prop where
  events : u.events = t.events
  workspaces : u.workspaces = t.workspaces

theorem Keeps.refl (t : SessionTables) : Keeps t t := ⟨rfl, rfl⟩

theorem Keeps.trans (h : Keeps t u) (h' : Keeps u w) : Keeps t w :=
  ⟨h'.events.trans h.events, h'.workspaces.trans h.workspaces⟩

theorem keeps_of_eq (events : u.events = t.events) (sessions : u.sessions = t.sessions) :
    Keeps t u := by
  refine ⟨events, ?_⟩
  unfold SessionTables.workspaces
  rw [sessions]

section Projection

theorem insertInput_keeps {row : InputRow} (h : t.insertInput row = .ok u) : Keeps t u :=
  keeps_of_eq (by grind [insertInput]) (by grind [insertInput])

theorem insertAttempt_keeps {row : AttemptRow} (h : t.insertAttempt row = .ok u) : Keeps t u :=
  keeps_of_eq (by grind [insertAttempt]) (by grind [insertAttempt])

theorem insertMessage_keeps {row : MessageRow} (h : t.insertMessage row = .ok u) : Keeps t u :=
  keeps_of_eq (by grind [insertMessage]) (by grind [insertMessage])

theorem insertSegment_keeps {row : SegmentRow} (h : t.insertSegment row = .ok u) : Keeps t u :=
  keeps_of_eq (by grind [insertSegment]) (by grind [insertSegment])

theorem insertBinding_keeps {row : ContextTurnBindingRow} (h : t.insertBinding row = .ok u) :
    Keeps t u :=
  keeps_of_eq (by grind [insertBinding]) (by grind [insertBinding])

theorem updateInputs_keeps {p : InputRow → Bool} {f : RowMap InputRow.key}
    {changed : SessionTables × Nat} (h : t.updateInputs p f = .ok changed) : Keeps t changed.1 :=
  keeps_of_eq (by grind [updateInputs]) (by grind [updateInputs])

theorem updateAttempts_keeps {p : AttemptRow → Bool} {f : RowMap AttemptRow.attemptId}
    {changed : SessionTables × Nat} (h : t.updateAttempts p f = .ok changed) : Keeps t changed.1 :=
  keeps_of_eq (by grind [updateAttempts]) (by grind [updateAttempts])

theorem updateMessages_keeps {p : MessageRow → Bool} {f : RowMap MessageRow.key}
    {changed : SessionTables × Nat} (h : t.updateMessages p f = .ok changed) : Keeps t changed.1 :=
  keeps_of_eq (by grind [updateMessages]) (by grind [updateMessages])

theorem requireTransition_keeps {changed : SessionTables × Nat}
    (h : requireTransition mode changed = .ok u) (kept : Keeps t changed.1) : Keeps t u := by
  have same : u = changed.1 := by grind [requireTransition]
  rw [same]
  exact kept

theorem update_workspaces {p : SessionRow → Bool} {f : RowMap SessionRow.sessionId}
    (same : ∀ row, (f.apply row).workspaceId = row.workspaceId) :
    ((t.sessions.update p f).find? k).bind SessionRow.workspaceId = t.workspaces k := by
  rw [KeyedTable.find?_update, workspaces, Option.bind_map]
  congr 1
  exact funext (KeyedTable.alter_congr same)

theorem updateSessions_keeps {f : RowMap SessionRow.sessionId}
    (same : ∀ row, (f.apply row).workspaceId = row.workspaceId) :
    Keeps t (t.updateSessions sessionId f).1 :=
  ⟨rfl, funext fun _ => update_workspaces same⟩

theorem updateHeader_keeps {f : RowMap SessionRow.sessionId}
    (same : ∀ row, (f.apply row).workspaceId = row.workspaceId)
    (h : t.updateHeader event f = .ok u) : Keeps t u := by
  unfold updateHeader requireSessionRow at h
  split at h
  · cases h
    exact updateSessions_keeps same
  · cases h

theorem changeAttempt_keeps {attemptId : AttemptId} {p : AttemptRow → Bool}
    {f : RowMap AttemptRow.attemptId} (h : t.changeAttempt mode event attemptId p f = .ok u) :
    Keeps t u := by
  obtain ⟨changed, updated, h⟩ := bind_eq_ok_iff.mp h
  exact requireTransition_keeps h (updateAttempts_keeps updated)

theorem settleAttempt_keeps {attemptId : AttemptId} {state : AttemptState}
    {failure : Option AttemptFailure}
    (h : t.settleAttempt mode event attemptId state failure = .ok u) : Keeps t u := by
  obtain ⟨settled, changed, h⟩ := bind_eq_ok_iff.mp h
  obtain ⟨closed, updated, h⟩ := bind_eq_ok_iff.mp h
  cases h
  exact (changeAttempt_keeps changed).trans (updateMessages_keeps updated)

theorem admitInput_keeps {inputId : InputId} {prompt : PromptText} {deliveryMode : DeliveryMode}
    (h : t.admitInput mode event inputId prompt deliveryMode = .ok u) : Keeps t u := by
  obtain ⟨admitted, written, h⟩ := bind_eq_ok_iff.mp h
  obtain ⟨opened, message, segment⟩ := bind_eq_ok_iff.mp h
  refine Keeps.trans ?_ ((insertMessage_keeps message).trans (insertSegment_keeps segment))
  unfold writeInput at written
  split at written
  · split at written
    · cases written
    · obtain ⟨changed, updated, written⟩ := bind_eq_ok_iff.mp written
      exact requireTransition_keeps written (updateInputs_keeps updated)
  · exact insertInput_keeps written

theorem prepareAttempt_keeps {row : AttemptRow} (h : t.prepareAttempt mode event row = .ok u) :
    Keeps t u := by
  unfold prepareAttempt at h
  simp only at h
  split at h
  · cases h
  · obtain ⟨⟨⟩, -, h⟩ := bind_eq_ok_iff.mp h
    obtain ⟨promoted, promotion, h⟩ := bind_eq_ok_iff.mp h
    obtain ⟨changed, input, promotion⟩ := bind_eq_ok_iff.mp promotion
    refine (requireTransition_keeps promotion (updateInputs_keeps input)).trans ?_
    unfold writeAttempt at h
    split at h
    · obtain ⟨replaced, attempt, h⟩ := bind_eq_ok_iff.mp h
      exact requireTransition_keeps h (updateAttempts_keeps attempt)
    · exact insertAttempt_keeps h

theorem appendText_keeps {attemptId : AttemptId} {text : ResponseText}
    (h : t.appendText mode event attemptId text = .ok u) : Keeps t u := by
  obtain ⟨⟨⟩, -, h⟩ := bind_eq_ok_iff.mp h
  obtain ⟨extended, message, segment⟩ := bind_eq_ok_iff.mp h
  refine Keeps.trans ?_ (insertSegment_keeps segment)
  unfold writeMessage at message
  split at message
  · obtain ⟨changed, updated, message⟩ := bind_eq_ok_iff.mp message
    exact requireTransition_keeps message (updateMessages_keeps updated)
  · exact insertMessage_keeps message

theorem applyContextTurnBinding_keeps {attemptId : AttemptId} {runTurn : UInt32}
    {contextTurnId : ContextTurnId} {manifestHash : Sha256Digest}
    (h : t.applyContextTurnBinding event attemptId runTurn contextTurnId manifestHash = .ok u) :
    Keeps t u := by
  unfold applyContextTurnBinding at h
  simp only at h
  split at h
  · obtain ⟨⟨⟩, -, h⟩ := bind_eq_ok_iff.mp h
    exact insertBinding_keeps h
  · cases h

theorem applyProjection_keeps (h : t.applyProjection mode event = .ok u) : Keeps t u := by
  unfold applyProjection at h
  split at h
  case h_1 =>
    split at h
    · cases h
      exact .refl t
    · exact updateHeader_keeps (fun _ => rfl) h
  case h_2 | h_3 | h_4 | h_5 => exact updateHeader_keeps (fun _ => rfl) h
  case h_6 => exact admitInput_keeps h
  case h_7 => exact prepareAttempt_keeps h
  case h_8 | h_10 | h_11 => exact changeAttempt_keeps h
  case h_9 => exact appendText_keeps h
  case h_12 | h_13 | h_14 | h_15 => exact settleAttempt_keeps h
  case h_16 => exact applyContextTurnBinding_keeps h
  case h_17 =>
    unfold validateRunTurnBinding at h
    split at h
    · cases h
      exact .refl t
    · cases h
  all_goals
    cases h
    exact .refl t

theorem projectEvent_keeps (h : t.projectEvent mode event = .ok u) : Keeps t u := by
  obtain ⟨projected, applied, h⟩ := bind_eq_ok_iff.mp h
  cases Except.ok.inj h
  exact (applyProjection_keeps applied).trans (updateSessions_keeps fun _ => rfl)

end Projection

/-- The ledger grows at its end, and a session that has a workspace keeps it. -/
structure Grows (t u : SessionTables) (more : List EventEnvelope) : Prop where
  rows : u.events.rows = t.events.rows ++ more
  workspaces : ∀ k workspaceId, t.workspaces k = some workspaceId →
    u.workspaces k = some workspaceId

section Growth

variable {more rest : List EventEnvelope}

theorem Keeps.grows (h : Keeps t u) : Grows t u [] := by
  refine ⟨by simp [h.events], fun k workspaceId found => ?_⟩
  rw [h.workspaces, found]

theorem Grows.trans (h : Grows t u more) (h' : Grows u w rest) : Grows t w (more ++ rest) := by
  refine ⟨?_, fun k workspaceId found =>
    h'.workspaces k workspaceId (h.workspaces k workspaceId found)⟩
  rw [h'.rows, h.rows, List.append_assoc]

theorem insertEvent_grows (h : t.insertEvent event = .ok u) : Grows t u [event] := by
  obtain ⟨events, rfl, inserted⟩ := (insertEvent_stores h).others
  exact ⟨KeyedTable.rows_of_insert? inserted, fun _ _ found => found⟩

/-- An inserted event and its projection. -/
theorem storeEvent_grows (h : (do
      let inserted ← t.insertEvent event
      inserted.projectEvent mode event) = .ok u) : Grows t u [event] := by
  obtain ⟨inserted, stored, projected⟩ := bind_eq_ok_iff.mp h
  exact (insertEvent_grows stored).trans (projectEvent_keeps projected).grows

theorem appendEvent_grows (h : t.appendEvent event = .ok u) : Grows t u [event] := by
  obtain ⟨⟨⟩, -, h⟩ := bind_eq_ok_iff.mp h
  exact storeEvent_grows h

theorem appendEvents_grows {events : List EventEnvelope} (h : run appendEvent t events = .ok u) :
    Grows t u events := by
  induction events generalizing t with
  | nil =>
    cases h
    exact (Keeps.refl _).grows
  | cons event events ih =>
    obtain ⟨middle, first, rest⟩ := bind_eq_ok_iff.mp h
    exact (appendEvent_grows first).trans (ih rest)

theorem openSession_keeps {first : EventEnvelope} (h : t.openSession sessionId first = .ok u) :
    Keeps t u := by
  unfold openSession at h
  split at h
  next =>
    split at h
    next =>
      unfold insertSession at h
      split at h
      next sessions inserted =>
        cases h
        refine ⟨rfl, funext fun k => ?_⟩
        unfold workspaces KeyedTable.find?
        rw [KeyedTable.rows_of_insert? inserted, List.find?_append]
        cases t.sessions.rows.find? fun row => row.sessionId = k with
        | some row => rfl
        | none =>
          refine Option.bind_eq_none_iff.mpr fun row found => ?_
          rw [Option.none_or] at found
          rw [List.mem_singleton.mp (List.mem_of_find?_eq_some found)]
          rfl
      next => cases h
    next => cases h
  next =>
    cases h
    exact .refl t

theorem findExisting_true (h : t.findExisting event = .ok true) : event ∈ t.events := by
  unfold findExisting at h
  split at h
  next => cases h
  next existing found =>
    split at h
    next => cases h
    next same =>
      rw [← not_not.mp same]
      exact (KeyedTable.find?_eq_some_iff.mp found).1

theorem existing_mem {events : List EventEnvelope}
    (h : t.existingBatchState events = .ok .all) (he : event ∈ events) : event ∈ t.events := by
  obtain ⟨found, mapped, h⟩ := bind_eq_ok_iff.mp h
  obtain ⟨known, hk, made⟩ := (FallibleRun.mapM_mem mapped).2 event he
  refine findExisting_true ?_
  split at h
  next => cases h
  next =>
    split at h
    next all =>
      rw [made, of_decide_eq_true (List.all_eq_true.mp all known hk)]
    next => cases h

/-- An accepted batch is stored now, at the version it expects, or it was stored before. -/
theorem append_cases {receipt : AppendReceipt} (h : t.append request = .ok (receipt, u)) :
    (receipt.disposition = .committed ∧
        t.currentSessionVersion request.sessionId = request.expectedLastSequence ∧
        Grows t u request.events ∧
        request.events.getLast?.map (fun event => event.sequence.get) = some receipt.lastSequence) ∨
      (receipt = ⟨.alreadyCommitted, t.currentSessionVersion request.sessionId⟩ ∧ u = t ∧
        ∀ event ∈ request.events, event ∈ t.events) := by
  obtain ⟨⟨⟩, -, h⟩ := bind_eq_ok_iff.mp h
  obtain ⟨state, existing, h⟩ := bind_eq_ok_iff.mp h
  split at h
  next first last head tail =>
    cases state with
    | none =>
      dsimp only at h
      unfold commitBatch at h
      split at h
      next => cases h
      next version =>
        obtain ⟨opened, open_, h⟩ := bind_eq_ok_iff.mp h
        obtain ⟨appended, ran, h⟩ := bind_eq_ok_iff.mp h
        cases Except.ok.inj h
        refine .inl ⟨rfl, not_not.mp version,
          (openSession_keeps open_).grows.trans (appendEvents_grows ran), ?_⟩
        rw [tail, Option.map_some]
    | partially => cases h
    | all =>
      dsimp only at h
      unfold alreadyCommitted at h
      split at h
      next => cases h
      next =>
        cases Except.ok.inj h
        exact .inr ⟨rfl, rfl, fun event he => existing_mem existing he⟩
  next => cases h

theorem append_mem {receipt : AppendReceipt} (h : t.append request = .ok (receipt, u))
    (he : event ∈ request.events) : event ∈ u.events := by
  rcases append_cases h with ⟨-, -, grows, -⟩ | ⟨-, rfl, stored⟩
  · refine KeyedTable.mem_rows.mp ?_
    rw [grows.rows]
    exact List.mem_append_right _ he
  · exact stored event he

end Growth

/-- The stream of a session goes on where it was, and the session keeps its workspace. -/
structure Continues (t u : SessionTables) (k : SessionId) : Prop where
  stream : t.eventsOf k <+: u.eventsOf k
  workspace : ∀ workspaceId, t.workspaces k = some workspaceId → u.workspaces k = some workspaceId

theorem Continues.refl (t : SessionTables) (k : SessionId) : Continues t t k :=
  ⟨List.prefix_rfl, fun _ found => found⟩

theorem Continues.trans (h : Continues t u k) (h' : Continues u w k) : Continues t w k :=
  ⟨h.stream.trans h'.stream, fun workspaceId found =>
    h'.workspace workspaceId (h.workspace workspaceId found)⟩

theorem Grows.continues {more : List EventEnvelope} (h : Grows t u more) : Continues t u k := by
  refine ⟨⟨Interleaving.project EventEnvelope.sessionId k more, ?_⟩, h.workspaces k⟩
  rw [eventsOf, eventsOf, h.rows, Interleaving.project_append]

theorem without_continues (hk : k ≠ sessionId) : Continues t (t.without sessionId) k := by
  refine ⟨?_, fun workspaceId found => ?_⟩
  · rw [without_eventsOf hk]
  · rw [workspaces, without_find? hk]
    exact found

section Transactions

variable {turn : ContextTurnKey} {workspaceId : WorkspaceId} {expected : Nat}

theorem bindSessionWorkspace_grows (h : t.bindSessionWorkspace turn workspaceId = .ok u) :
    Grows t u [] ∧ u.workspaces turn.sessionId = some workspaceId := by
  unfold bindSessionWorkspace at h
  split at h
  next => cases h
  next row found =>
    split at h
    next existing held =>
      split at h
      next same =>
        cases Except.ok.inj h
        refine ⟨(Keeps.refl _).grows, ?_⟩
        rw [workspaces, found, Option.bind_some, held, same]
      next => cases h
    next unbound =>
      cases Except.ok.inj h
      obtain ⟨-, key⟩ := KeyedTable.find?_eq_some_iff.mp found
      have header (k : SessionId) : (t.updateSessions turn.sessionId
          (SessionRow.bindWorkspace workspaceId)).1.sessions.find? k = (t.sessions.find? k).map
            (alter (fun row => row.sessionId = turn.sessionId)
              (SessionRow.bindWorkspace workspaceId)) :=
        KeyedTable.find?_update
      refine ⟨⟨(List.append_nil _).symm, fun k other bound => ?_⟩, ?_⟩
      · have different : k ≠ turn.sessionId := by
          rintro rfl
          rw [workspaces, found, Option.bind_some, unbound] at bound
          cases bound
        obtain ⟨held, hh, bound⟩ := Option.bind_eq_some_iff.mp bound
        have own := (KeyedTable.find?_eq_some_iff.mp hh).2
        rw [workspaces, header, hh, Option.map_some, alter_eq_of_ne]
        · exact bound
        · exact decide_eq_false fun same => different (own.symm.trans same)
      · rw [workspaces, header, found]
        simp [alter, key, SessionRow.bindWorkspace]

theorem reconcileUnboundTurnConflict_keeps (h : t.reconcileUnboundTurnConflict turn = .ok u) :
    Keeps t u :=
  keeps_of_eq (by grind [reconcileUnboundTurnConflict]) (by grind [reconcileUnboundTurnConflict])

theorem commitContextTurn_keeps (h : t.commitContextTurn turn = .ok u) : Keeps t u :=
  keeps_of_eq (by grind [commitContextTurn, insertTurn?])
    (by grind [commitContextTurn, insertTurn?])

theorem confirmBinding_keeps (h : t.confirmBinding turn event = .ok u) : Keeps t u := by
  unfold confirmBinding at h
  split at h
  next =>
    split at h
    next =>
      cases Except.ok.inj h
      exact .refl t
    next => cases h
  next => exact applyContextTurnBinding_keeps h

theorem appendContextBindingEvent_cases
    (h : t.appendContextBindingEvent turn expected event = .ok u) :
    (event ∈ t.events ∧ Grows t u []) ∨ Grows t u [event] := by
  unfold appendContextBindingEvent at h
  split at h
  next existing found =>
    split at h
    next same =>
      obtain ⟨confirmed, confirms, covered⟩ := bind_eq_ok_iff.mp h
      unfold requireCovered at covered
      split at covered
      next => cases covered
      next =>
        cases Except.ok.inj covered
        refine .inl ⟨?_, (confirmBinding_keeps confirms).grows⟩
        rw [← same]
        exact (KeyedTable.find?_eq_some_iff.mp found).1
    next => cases h
  next =>
    split at h
    next =>
      obtain ⟨⟨⟩, -, h⟩ := bind_eq_ok_iff.mp h
      exact .inr (storeEvent_grows h)
    next => cases h

/-- A binding event is stored now, or it was stored before; its session has the workspace. -/
theorem commitContextTurnAndBind_cases
    (h : t.commitContextTurnAndBind turn expected workspaceId event = .ok u) :
    ((event ∈ t.events ∧ Grows t u []) ∨ Grows t u [event]) ∧
      u.workspaces turn.sessionId = some workspaceId := by
  obtain ⟨⟨⟩, -, h⟩ := bind_eq_ok_iff.mp h
  obtain ⟨bound, binds, h⟩ := bind_eq_ok_iff.mp h
  obtain ⟨reconciled, reconciles, h⟩ := bind_eq_ok_iff.mp h
  obtain ⟨stored, stores, appends⟩ := bind_eq_ok_iff.mp h
  obtain ⟨first, own⟩ := bindSessionWorkspace_grows binds
  have middle := ((reconcileUnboundTurnConflict_keeps reconciles).trans
    (commitContextTurn_keeps stores)).grows
  have staged : Grows t stored [] := first.trans middle
  have held := middle.workspaces _ _ own
  rcases appendContextBindingEvent_cases appends with ⟨mem, last⟩ | last
  · refine ⟨.inl ⟨?_, staged.trans last⟩, last.workspaces _ _ held⟩
    have same := staged.rows
    rw [List.append_nil] at same
    rwa [← KeyedTable.mem_rows, same] at mem
  · exact ⟨.inr (staged.trans last), last.workspaces _ _ held⟩

theorem commitContextTurnAndBind_continues
    (h : t.commitContextTurnAndBind turn expected workspaceId event = .ok u) :
    event ∈ u.events ∧ Continues t u k := by
  obtain ⟨⟨mem, grows⟩ | grows, -⟩ := commitContextTurnAndBind_cases h
  · refine ⟨?_, grows.continues⟩
    have same := grows.rows
    rw [List.append_nil] at same
    rwa [← KeyedTable.mem_rows, same]
  · refine ⟨KeyedTable.mem_rows.mp ?_, grows.continues⟩
    rw [grows.rows]
    exact List.mem_append_right _ (List.mem_singleton_self event)

theorem rebuildProjections_keeps (h : t.rebuildProjections = .ok u) : Keeps t u := by
  unfold rebuildProjections at h
  obtain ⟨⟨⟩, -, h⟩ := bind_eq_ok_iff.mp h
  obtain ⟨⟨⟩, -, h⟩ := bind_eq_ok_iff.mp h
  obtain ⟨rebuilt, ran, h⟩ := bind_eq_ok_iff.mp h
  have reset : Keeps t t.resetProjections :=
    ⟨rfl, funext fun _ => update_workspaces fun _ => rfl⟩
  have keeps : Keeps t rebuilt :=
    FallibleRun.run_invariant (P := Keeps t) reset
      (fun _ _ _ kept step => kept.trans (projectEvent_keeps step)) ran
  unfold requireProjected at h
  split at h
  next => cases h
  next =>
    cases Except.ok.inj h
    exact keeps

end Transactions

end SessionTables

namespace SessionView

theorem step_bindings_stay (v : SessionView) (event : EventEnvelope) :
    v.bindings <+: (v.step event).bindings := by
  change _ <+: (v.apply event).bindings
  unfold apply
  cases event.payload <;>
    simp [setHeader, admitInput, prepareAttempt, promoteInput, changeAttempt, settleAttempt,
      changeMessage, bindTurn, addText, writeMessage_bindings]

/-- A binding stays while further events are applied. -/
theorem bindings_stay {sessionId : SessionId} {workspaceId : Option WorkspaceId}
    (past future : List EventEnvelope) :
    (ofEvents sessionId workspaceId past).bindings <+:
      (ofEvents sessionId workspaceId (past ++ future)).bindings := by
  induction future using List.reverseRecOn with
  | nil => simp
  | append_singleton future event ih =>
    rw [← List.append_assoc, ofEvents_concat]
    exact ih.trans (step_bindings_stay _ event)

end SessionView

namespace SessionTables

theorem deleteSession_cases {t u : SessionTables} {order : RemovalOrder AttemptRow}
    {sessionId : SessionId} {expected : Nat} {disposition : DeletionDisposition}
    (h : t.deleteSession order sessionId expected = .ok (disposition, u)) :
    u = t ∨ u = t.without sessionId := by
  unfold deleteSession at h
  split at h
  next => cases h
  next =>
    split at h
    next =>
      cases Except.ok.inj h
      exact .inl rfl
    next =>
      obtain ⟨⟨⟩, -, h⟩ := bind_eq_ok_iff.mp h
      obtain ⟨removed, rows, h⟩ := bind_eq_ok_iff.mp h
      cases Except.ok.inj h
      exact .inr (deleteRows_eq_ok rows)

end SessionTables

/-- The transaction removes the session. -/
def SessionTransaction.deletes (k : SessionId) : SessionTransaction → Prop
  | .deleteSession _ sessionId _ => sessionId = k
  | _ => False

namespace SessionTables

variable {t u w : SessionTables} {k : SessionId} {request : AppendRequest}

theorem transact_continues {transaction : SessionTransaction} (h : t.transact transaction = .ok u)
    (kept : ¬ transaction.deletes k) : Continues t u k := by
  cases transaction with
  | append request =>
    obtain ⟨⟨receipt, appended⟩, ha, h⟩ := bind_eq_ok_iff.mp h
    cases Except.ok.inj h
    rcases append_cases ha with ⟨-, -, grows, -⟩ | ⟨-, rfl, -⟩
    · exact grows.continues
    · exact .refl _ k
  | commitContextTurn turn => exact (commitContextTurn_keeps h).grows.continues
  | commitContextTurnAndBind turn expected workspaceId event =>
    exact (commitContextTurnAndBind_continues h).2
  | deleteSession order sessionId expected =>
    obtain ⟨⟨disposition, deleted⟩, hd, h⟩ := bind_eq_ok_iff.mp h
    cases Except.ok.inj h
    rcases deleteSession_cases hd with rfl | rfl
    · exact .refl _ k
    · exact without_continues fun same => kept same.symm
  | rebuildProjections => exact (rebuildProjections_keeps h).grows.continues

theorem history_continues {later : List SessionTransaction} (h : run transact t later = .ok u)
    (kept : ∀ transaction ∈ later, ¬ transaction.deletes k) : Continues t u k := by
  induction later generalizing t with
  | nil =>
    cases Except.ok.inj h
    exact .refl _ k
  | cons transaction later ih =>
    obtain ⟨middle, first, rest⟩ := bind_eq_ok_iff.mp h
    exact (transact_continues first (kept _ (by simp))).trans
      (ih rest fun other ho => kept other (List.mem_cons_of_mem _ ho))

end SessionTables

end AutoHarness
