import AutoHarness.AggregateLog
import AutoHarness.SessionContext
import Mathlib.Data.List.Dedup

namespace AutoHarness

open FallibleRun (bind_eq_ok_iff run)
open KeyedTable (alter)

theorem SessionView.ofEvents_header {sessionId : SessionId} {workspaceId : Option WorkspaceId}
    {events : List EventEnvelope} :
    (SessionView.ofEvents sessionId workspaceId events).header.workspaceId = workspaceId := by
  rw [SessionView.ofEvents_workspace workspaceId workspaceId]
  rfl

namespace SessionTables

variable {t u r : SessionTables} {sessionId k : SessionId}

theorem forM_eq_ok {α ε : Type} {f : α → Except ε Unit} {xs : List α}
    (h : ∀ x ∈ xs, f x = .ok ()) : xs.forM f = .ok () := by
  induction xs with
  | nil => rfl
  | cons x xs ih =>
    have first : f x = .ok () := h x (by simp)
    have rest := ih fun y hy => h y (by simp [hy])
    change (f x >>= fun _ => xs.forM f) = .ok ()
    rw [first, FallibleRun.ok_bind, rest]

section Reset

theorem reset_sourced (s : t.Sourced) : t.resetProjections.Sourced := by
  have session (k : SessionId) (h : t.hasSession k = true) :
      t.resetProjections.hasSession k = true := by
    obtain ⟨row, hr, key⟩ := hasSession_iff.mp h
    exact hasSession_iff.mpr ⟨_, KeyedTable.alter_mem_update hr, key⟩
  refine ⟨⟨fun event he => session _ (s.ledger.session event he), s.ledger.sequence,
    s.ledger.command, s.ledger.cause⟩, fun row hr => ?_, fun row hr => ?_, fun row hr => ?_,
    fun row hr => ?_, fun row hr => ?_⟩
  · obtain ⟨old, ho, rfl⟩ := KeyedTable.mem_update.mp hr
    have sourced := s.inputs old ho
    exact ⟨rfl, session _ sourced.session, sourced.origin⟩
  · obtain ⟨old, ho, rfl⟩ := KeyedTable.mem_update.mp hr
    have sourced := s.attempts old ho
    refine ⟨rfl, session _ sourced.session, ?_, fun priorId hp => ?_, fun column eventId hc => ?_⟩
    · obtain ⟨input, hi, key⟩ := sourced.input
      exact ⟨_, KeyedTable.alter_mem_update hi, key⟩
    · obtain ⟨prior, hm, id, own⟩ := hasAttempt_iff.mp (sourced.retry priorId hp)
      exact hasAttempt_iff.mpr ⟨_, KeyedTable.alter_mem_update hm, id, own⟩
    · cases column with
      | prepared => exact sourced.origin .prepared eventId hc
      | started | settled | cancellation | usage => cases hc
  · cases hr
  · cases hr
  · cases hr

theorem reset_mirrors {workspaceId : Option WorkspaceId}
    (m : Mirrors t (.ofEvents sessionId workspaceId (t.eventsOf sessionId)) sessionId [] []) :
    Mirrors t.resetProjections (.initial sessionId workspaceId) sessionId
      ((t.inputsOf sessionId).map InputRow.reset.apply)
      ((t.attemptsOf sessionId).map AttemptRow.reset.apply) where
  header := by
    have found : t.resetProjections.sessions.find? sessionId =
        (t.sessions.find? sessionId).map (alter (fun _ => true) SessionRow.reset) :=
      KeyedTable.find?_update
    have own := (KeyedTable.find?_eq_some_iff.mp m.header).2
    rw [found, m.header]
    simp [alter, SessionRow.reset, SessionView.initial, own, SessionView.ofEvents_header]
  inputs := Interleaving.project_map (g := alter (fun _ => true) InputRow.reset)
    (fun _ _ => rfl) sessionId
  attempts := Interleaving.project_map (g := alter (fun _ => true) AttemptRow.reset)
    (fun _ _ => rfl) sessionId
  messages := rfl
  segments := rfl
  bindings := rfl

theorem reset_waiting {workspaceId : Option WorkspaceId}
    (m : Mirrors t (.ofEvents sessionId workspaceId (t.eventsOf sessionId)) sessionId [] []) :
    Waiting .rebuild (t.eventsOf sessionId) ((t.inputsOf sessionId).map InputRow.reset.apply)
      ((t.attemptsOf sessionId).map AttemptRow.reset.apply) := by
  constructor
  · rw [m.inputs, List.append_nil, List.map_map, ← SessionView.ofEvents_inputs]
    rfl
  · rw [m.attempts, List.append_nil, List.map_map, ← SessionView.ofEvents_attempts]
    rfl

end Reset

section Replay

/-- The rest of a stream is projected again. -/
theorem replayStream {workspaceId : Option WorkspaceId} (past : List EventEnvelope)
    {future : List EventEnvelope} {restI : List InputRow} {restA : List AttemptRow} (live : t.Live)
    (events : r.events = t.events) (turns : r.contextTurns = t.contextTurns)
    (stream : t.eventsOf sessionId = past ++ future) (s : r.Sourced)
    (m : Mirrors r (.ofEvents sessionId workspaceId past) sessionId restI restA)
    (waiting : Waiting .rebuild future restI restA) :
    ∃ u, run (fun u event => u.projectEvent .rebuild event) r future = .ok u ∧ u.Sourced ∧
      Mirrors u (.ofEvents sessionId workspaceId (t.eventsOf sessionId)) sessionId [] [] ∧
      Framed r u sessionId := by
  induction future generalizing past r restI restA with
  | nil =>
    obtain ⟨inputs, attempts⟩ := waiting
    cases List.map_eq_nil_iff.mp inputs
    cases List.map_eq_nil_iff.mp attempts
    rw [List.append_nil] at stream
    exact ⟨r, rfl, s, stream ▸ m, Framed.refl r _⟩
  | cons event future ih =>
    have mem : event ∈ t.eventsOf sessionId := by
      rw [stream]
      simp
    obtain ⟨-, own⟩ := mem_eventsOf.mp mem
    subst own
    obtain ⟨scan, scanned⟩ := (live.sessions event.sessionId).scanned
    have placed : Placed r past event future := by
      have same : r.eventsOf event.sessionId = t.eventsOf event.sessionId := by
        unfold eventsOf
        rw [events]
      refine ⟨same.trans stream, ?_⟩
      rw [← stream]
      exact (StreamScan.ordered_of_run scanned).1
    have admits : (SessionView.ofEvents event.sessionId workspaceId past).Admits r.contextTurns
        past event := by
      rw [turns, SessionView.ofEvents_workspace workspaceId none]
      exact (live.sessions event.sessionId).admitted past event future stream
    obtain ⟨restI', restA', ⟨w, hw, sw, mw, framed⟩, waiting'⟩ := projectEvent_writes .rebuild s m
      placed waiting (fun h => by cases h) admits fun h => by cases h
    rw [← SessionView.ofEvents_concat] at mw
    obtain ⟨u, hu, su, mu, framed'⟩ := ih (past ++ [event])
      (framed.events.trans events) (framed.contextTurns.trans turns) (by rw [stream]; simp) sw mw
      waiting'
    exact ⟨u, bind_eq_ok_iff.mpr ⟨w, hw, hu⟩, su, mu, framed.trans framed'⟩

/-- The rows of a session before its stream is projected again. -/
def Awaiting (t r : SessionTables) (sessionId : SessionId) : Prop :=
  ∃ workspaceId restI restA, Mirrors r (.initial sessionId workspaceId) sessionId restI restA ∧
    Waiting .rebuild (t.eventsOf sessionId) restI restA ∧
    Mirrors t (.ofEvents sessionId workspaceId (t.eventsOf sessionId)) sessionId [] []

theorem Mirrors.agreeAt {v : SessionView} (m : Mirrors t v k [] []) (m' : Mirrors u v k [] []) :
    AgreeAt t u k :=
  ⟨m.header.trans m'.header.symm, m.inputs.trans m'.inputs.symm,
    m.attempts.trans m'.attempts.symm, m.messages.trans m'.messages.symm,
    m.segments.trans m'.segments.symm, m.bindings.trans m'.bindings.symm⟩

/-- Session by session, the streams are projected again. -/
theorem replayStreams {ids : List SessionId} (live : t.Live) (distinct : ids.Nodup)
    (events : r.events = t.events) (turns : r.contextTurns = t.contextTurns) (s : r.Sourced)
    (awaiting : ∀ k ∈ ids, t.Awaiting r k) :
    ∃ u, run (fun u event => u.projectEvent .rebuild event) r (ids.map t.eventsOf).flatten =
        .ok u ∧ u.Sourced ∧ u.events = t.events ∧ u.contextTurns = t.contextTurns ∧
      (∀ k ∈ ids, AgreeAt t u k) ∧ ∀ k, k ∉ ids → AgreeAt r u k := by
  induction ids generalizing r with
  | nil => exact ⟨r, rfl, s, events, turns, by simp, fun k _ => AgreeAt.refl r k⟩
  | cons k ids ih =>
    obtain ⟨absent, distinct⟩ := List.nodup_cons.mp distinct
    obtain ⟨workspaceId, restI, restA, m, waiting, mt⟩ := awaiting k (by simp)
    obtain ⟨w, hw, sw, mw, framed⟩ := replayStream [] live events turns rfl s m waiting
    have others : ∀ l ∈ ids, t.Awaiting w l := by
      intro l hl
      obtain ⟨workspaceId, restI, restA, m, rest⟩ := awaiting l (by simp [hl])
      have different : l ≠ k := fun same => absent (same ▸ hl)
      exact ⟨workspaceId, restI, restA, m.agree (framed.elsewhere l different), rest⟩
    obtain ⟨u, hu, su, events', turns', done, rest⟩ := ih distinct (framed.events.trans events)
      (framed.contextTurns.trans turns) sw others
    refine ⟨u, ?_, su, events', turns', fun l hl => ?_, fun l hl => ?_⟩
    · rw [List.map_cons, List.flatten_cons]
      exact FallibleRun.run_append_ok_iff.mpr ⟨w, hw, hu⟩
    · rcases List.mem_cons.mp hl with rfl | mem
      · exact (mt.agreeAt mw).trans (rest l absent)
      · exact done l mem
    · have parts : l ≠ k ∧ l ∉ ids := by simpa using hl
      exact (framed.elsewhere l parts.1).trans (rest l parts.2)

end Replay

/-- Two stores with the same rows in every table. -/
structure SameRows (t u : SessionTables) : Prop where
  sessions : ∀ row, row ∈ u.sessions ↔ row ∈ t.sessions
  events : ∀ row, row ∈ u.events ↔ row ∈ t.events
  inputs : ∀ row, row ∈ u.inputs ↔ row ∈ t.inputs
  attempts : ∀ row, row ∈ u.attempts ↔ row ∈ t.attempts
  messages : ∀ row, row ∈ u.messages ↔ row ∈ t.messages
  segments : ∀ row, row ∈ u.segments ↔ row ∈ t.segments
  bindings : ∀ row, row ∈ u.bindings ↔ row ∈ t.bindings
  contextTurns : ∀ row, row ∈ u.contextTurns ↔ row ∈ t.contextTurns

theorem mem_iff_of_project {ρ : Type} {φ : ρ → SessionId} {xs ys : List ρ} {row : ρ}
    (h : Interleaving.project φ (φ row) xs = Interleaving.project φ (φ row) ys) :
    row ∈ ys ↔ row ∈ xs := by
  have left : row ∈ Interleaving.project φ (φ row) xs ↔ row ∈ xs := Interleaving.mem_project_self
  have right : row ∈ Interleaving.project φ (φ row) ys ↔ row ∈ ys := Interleaving.mem_project_self
  rw [← left, ← right, h]

theorem sameRows_of_agree (agree : ∀ k, AgreeAt t u k) (events : u.events = t.events)
    (turns : u.contextTurns = t.contextTurns) : SameRows t u where
  sessions row := by
    have left : row ∈ t.sessions ↔ t.sessions.find? row.sessionId = some row := by
      simp [KeyedTable.find?_eq_some_iff]
    have right : row ∈ u.sessions ↔ u.sessions.find? row.sessionId = some row := by
      simp [KeyedTable.find?_eq_some_iff]
    rw [left, right, (agree row.sessionId).header]
  events row := by rw [events]
  inputs row := mem_iff_of_project (agree row.sessionId).inputs
  attempts row := mem_iff_of_project (agree row.sessionId).attempts
  messages row := mem_iff_of_project (agree row.sessionId).messages
  segments row := mem_iff_of_project (agree row.sessionId).segments
  bindings row := mem_iff_of_project (agree row.sessionId).bindings
  contextTurns row := by rw [turns]

theorem live_of_agree (live : t.Live) (s : u.Sourced) (agree : ∀ k, AgreeAt t u k)
    (events : u.events = t.events) (turns : u.contextTurns = t.contextTurns) : u.Live := by
  refine ⟨s, by rw [events]; exact live.schema, fun k => ?_⟩
  have own := live.sessions k
  have same : u.eventsOf k = t.eventsOf k := by
    unfold eventsOf
    rw [events]
  refine ⟨same ▸ own.scanned, fun past event future split => ?_, fun empty => ?_, fun some => ?_⟩
  · rw [turns]
    exact own.admitted past event future (same ▸ split)
  · rw [← (agree k).header]
    exact own.unknown (same ▸ empty)
  · rw [same] at some ⊢
    obtain ⟨workspaceId, m⟩ := own.mirrored some
    exact ⟨workspaceId, m.agree (agree k)⟩

theorem mem_streamIds : k ∈ t.streamIds ↔ t.eventsOf k ≠ [] := by
  simp only [streamIds, List.mem_mergeSort, List.mem_dedup, List.mem_map]
  rw [ne_eq, List.eq_nil_iff_forall_not_mem, not_forall]
  refine exists_congr fun event => ?_
  rw [not_not]
  exact mem_eventsOf.symm

theorem rebuildProjections_live (live : t.Live) :
    ∃ u, t.rebuildProjections = .ok u ∧ u.Live ∧ SameRows t u := by
  have streams : t.streamIds.map t.stream = t.streamIds.map t.eventsOf := by
    refine List.map_congr_left fun k _ => ?_
    obtain ⟨scan, scanned⟩ := (live.sessions k).scanned
    exact stream_eq_eventsOf (StreamScan.ordered_of_run scanned).1
  have distinct : t.streamIds.Nodup :=
    (List.mergeSort_perm _ _).nodup_iff.mpr (List.nodup_dedup _)
  have stored : (t.streamIds.map t.eventsOf).flatten.forM t.validateStored = .ok () := by
    refine forM_eq_ok fun event he => ?_
    obtain ⟨events, hl, mem⟩ := List.mem_flatten.mp he
    obtain ⟨k, -, rfl⟩ := List.mem_map.mp hl
    have known := (mem_eventsOf.mp mem).1
    unfold validateStored
    rw [if_neg (not_not.mpr (live.schema event known))]
    split
    next => rfl
    next causeId caused =>
      obtain ⟨cause, hc, rfl, session, before⟩ :=
        live.sourced.ledger.cause event known causeId caused
      rw [KeyedTable.find?_eq_some_iff.mpr ⟨hc, rfl⟩]
      simp [session, before]
  have complete : (t.streamIds.map t.eventsOf).forM validateCompleteStream = .ok () := by
    refine forM_eq_ok fun events he => ?_
    obtain ⟨k, hk, rfl⟩ := List.mem_map.mp he
    obtain ⟨scan, scanned⟩ := (live.sessions k).scanned
    have created := (StreamScan.seen_of_run scanned).created.mpr (mem_streamIds.mp hk)
    rw [validateCompleteStream, scanned, FallibleRun.ok_bind, if_pos created]
  have awaiting : ∀ k ∈ t.streamIds, t.Awaiting t.resetProjections k := by
    intro k hk
    obtain ⟨workspaceId, m⟩ := (live.sessions k).mirrored (mem_streamIds.mp hk)
    exact ⟨workspaceId, _, _, reset_mirrors m, reset_waiting m, m⟩
  obtain ⟨u, hu, s, events, turns, done, rest⟩ := replayStreams (r := t.resetProjections) live
    distinct rfl rfl (reset_sourced live.sourced) awaiting
  have agree : ∀ k, AgreeAt t u k := by
    intro k
    by_cases hk : k ∈ t.streamIds
    · exact done k hk
    · have empty : t.eventsOf k = [] := by
        by_contra some
        exact hk (mem_streamIds.mpr some)
      have none := (live.sessions k).unknown empty
      have before := live.sourced.rows_of_empty empty
      have after := (reset_sourced live.sourced).rows_of_empty
        (show t.resetProjections.eventsOf k = [] from empty)
      have found : t.resetProjections.sessions.find? k =
          (t.sessions.find? k).map (alter (fun _ => true) SessionRow.reset) :=
        KeyedTable.find?_update
      refine AgreeAt.trans ?_ (rest k hk)
      refine ⟨?_, before.1.trans after.1.symm, before.2.1.trans after.2.1.symm,
        before.2.2.1.trans after.2.2.1.symm, before.2.2.2.1.trans after.2.2.2.1.symm,
        before.2.2.2.2.trans after.2.2.2.2.symm⟩
      rw [found, none]
      rfl
  have live' := live_of_agree live s agree events turns
  have projected : u.requireProjected = .ok u := by
    refine if_neg fun zero => ?_
    obtain ⟨row, hr, unset⟩ := List.any_eq_true.mp zero
    have version := (live'.sessions row.sessionId).version
    have found : u.sessions.find? row.sessionId = some row :=
      KeyedTable.find?_eq_some_iff.mpr ⟨hr, rfl⟩
    have unknown := (live'.sessions row.sessionId).unknown
    rw [currentSessionVersion, found] at version
    change row.lastSequence = _ at version
    rw [of_decide_eq_true unset] at version
    rw [unknown (List.length_eq_zero_iff.mp version.symm)] at found
    cases found
  refine ⟨u, ?_, live', sameRows_of_agree agree events turns⟩
  unfold rebuildProjections
  dsimp only
  rw [streams, stored, FallibleRun.ok_bind, complete, FallibleRun.ok_bind, hu, FallibleRun.ok_bind,
    projected]

end SessionTables

/-- One transaction of the store on its session tables. -/
inductive SessionTransaction where
  | append (request : AppendRequest)
  | commitContextTurn (turn : ContextTurnKey)
  | commitContextTurnAndBind (turn : ContextTurnKey) (expectedSequence : Nat)
      (workspaceId : WorkspaceId) (event : EventEnvelope)
  | deleteSession (order : RemovalOrder AttemptRow) (sessionId : SessionId)
      (expectedLastSequence : Nat)
  | rebuildProjections

namespace SessionTables

def transact (t : SessionTables) : SessionTransaction → Except StoreError SessionTables
  | .append request => do
    let appended ← t.append request
    .ok appended.2
  | .commitContextTurn turn => t.commitContextTurn turn
  | .commitContextTurnAndBind turn expectedSequence workspaceId event =>
    t.commitContextTurnAndBind turn expectedSequence workspaceId event
  | .deleteSession order sessionId expectedLastSequence => do
    let deleted ← t.deleteSession order sessionId expectedLastSequence
    .ok deleted.2
  | .rebuildProjections => t.rebuildProjections

variable {t u : SessionTables}

theorem transact_live {transaction : SessionTransaction} (live : t.Live)
    (h : t.transact transaction = .ok u) : u.Live := by
  cases transaction with
  | append request =>
    obtain ⟨⟨receipt, appended⟩, ha, h⟩ := bind_eq_ok_iff.mp h
    cases Except.ok.inj h
    exact append_live live ha
  | commitContextTurn turn => exact commitContextTurn_live live h
  | commitContextTurnAndBind turn expected workspaceId event =>
    exact commitContextTurnAndBind_live live h
  | deleteSession order sessionId expected =>
    obtain ⟨⟨disposition, deleted⟩, hd, h⟩ := bind_eq_ok_iff.mp h
    cases Except.ok.inj h
    exact deleteSession_live live hd
  | rebuildProjections =>
    obtain ⟨rebuilt, hr, live', -⟩ := rebuildProjections_live live
    cases Except.ok.inj (hr.symm.trans h)
    exact live'

/-- Every history of accepted transactions leads to a live store. -/
theorem history_live {history : List SessionTransaction}
    (h : run transact SessionTables.empty history = .ok t) : t.Live :=
  FallibleRun.run_invariant live_empty (fun _ _ _ live step => transact_live live step) h

/-- After every history of accepted transactions a rebuild succeeds and changes no row, and so
does a second one. -/
theorem rebuildProjections_unchanged {history : List SessionTransaction}
    (h : run transact SessionTables.empty history = .ok t) :
    ∃ u, t.rebuildProjections = .ok u ∧ SameRows t u ∧
      ∃ w, u.rebuildProjections = .ok w ∧ SameRows u w := by
  obtain ⟨u, hu, live, same⟩ := rebuildProjections_live (history_live h)
  obtain ⟨w, hw, -, same'⟩ := rebuildProjections_live live
  exact ⟨u, hu, same, w, hw, same'⟩

section Sample

/-- The events of one session, with the creation of another one between them. -/
def sampleHistory : List SessionTransaction :=
  [.append ⟨sampleSession, 0, sampleLog.take 4⟩,
    .append ⟨⟨"session-b", rfl⟩, 0, [.newV1 (sampleId _ 8) ⟨"session-b", rfl⟩ .first ⟨0⟩
      (.command (sampleId _ 8)) sampleCorrelation .sessionCreated]⟩,
    .append ⟨sampleSession, 4, sampleLog.drop 4⟩]

theorem sampleHistory_accepted : ∃ t, run transact SessionTables.empty sampleHistory = .ok t :=
  ⟨_, rfl⟩

theorem rebuildProjections_unchanged_sample :
    ∃ t, run transact SessionTables.empty sampleHistory = .ok t ∧
      ∃ u, t.rebuildProjections = .ok u ∧ SameRows t u ∧
        ∃ w, u.rebuildProjections = .ok w ∧ SameRows u w := by
  obtain ⟨t, accepted⟩ := sampleHistory_accepted
  exact ⟨t, accepted, rebuildProjections_unchanged accepted⟩

end Sample

end SessionTables

end AutoHarness
