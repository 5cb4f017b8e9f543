import AutoHarness.SessionLive

namespace AutoHarness

open KeyedTable (alter RowMap)
open FallibleRun (bind_eq_ok_iff run)

namespace SessionTables

variable {t u w : SessionTables} {v : SessionView} {event : EventEnvelope} {k : SessionId}

/-- The event that an event names as its cause is stored before it. -/
def Caused (t : SessionTables) (event : EventEnvelope) : Prop :=
  ∀ causeId, event.causation = .event causeId →
    ∃ cause ∈ t.events, cause.eventId = causeId ∧ cause.sessionId = event.sessionId ∧
      cause.sequence.get < event.sequence.get

theorem caused_of_find? {causeId : EventId} (caused : event.causation = .event causeId)
    (h : (t.events.find? causeId).any (fun cause =>
      cause.sessionId = event.sessionId && cause.sequence.get < event.sequence.get) = true) :
    t.Caused event := by
  intro id same
  rw [caused] at same
  cases Causation.event.inj same
  obtain ⟨cause, found, fits⟩ := (Option.any_eq_true _ _).mp h
  simp only [Bool.and_eq_true, decide_eq_true_eq] at fits
  obtain ⟨mem, key⟩ := KeyedTable.find?_eq_some_iff.mp found
  exact ⟨cause, mem, key, fits⟩

theorem caused_of_command {commandId : CommandId} (caused : event.causation = .command commandId) :
    t.Caused event := by
  intro id same
  rw [caused] at same
  cases same

theorem validateDurableCausation_caused (h : t.validateDurableCausation event = .ok ()) :
    t.Caused event := by
  unfold validateDurableCausation at h
  split at h
  next commandId caused => exact caused_of_command caused
  next causeId caused =>
    split at h
    next found => exact caused_of_find? caused found
    next => cases h

theorem requireBindingCausation_caused (h : t.requireBindingCausation event = .ok ()) :
    t.Caused event := by
  unfold requireBindingCausation at h
  split at h
  next commandId caused => exact caused_of_command caused
  next causeId caused =>
    split at h
    next found => exact caused_of_find? caused found
    next => cases h

/-- An event enters the ledger. -/
structure Stores (t u : SessionTables) (event : EventEnvelope) : Prop where
  others : ∃ events, u = { t with events } ∧ t.events.insert? event = some events
  session : t.hasSession event.sessionId = true
  sequence : ∀ other ∈ t.events, other.sessionId = event.sessionId → other.sequence ≠ event.sequence
  command : ∀ other ∈ t.events, other.causingCommand?.isSome = true →
    other.causingCommand? ≠ event.causingCommand?

theorem insertEvent_stores (h : t.insertEvent event = .ok u) : Stores t u event := by
  unfold insertEvent at h
  split at h
  next events inserted =>
    split at h
    next allowed =>
      simp only [eventAllowed, Bool.and_eq_true, List.all_eq_true, Bool.not_eq_true',
        Bool.and_eq_false_iff, decide_eq_false_iff_not] at allowed
      obtain ⟨⟨session, -⟩, unique⟩ := allowed
      refine ⟨⟨events, (Except.ok.inj h).symm, inserted⟩, session, fun other ho own same => ?_,
        fun other ho some same => ?_⟩
      · rcases (unique other ho).1 with different | different
        · exact different own
        · exact different same
      · rcases (unique other ho).2 with none | different
        · rw [some] at none
          cases none
        · exact different same
    next => cases h
  next => cases h

section Stored

variable (stores : Stores t u event)
include stores

theorem Stores.eventsOf : u.eventsOf event.sessionId = t.eventsOf event.sessionId ++ [event] := by
  obtain ⟨events, rfl, inserted⟩ := stores.others
  exact (project_insert (φ := EventEnvelope.sessionId) inserted).1

theorem Stores.eventsOf_other (hk : k ≠ event.sessionId) : u.eventsOf k = t.eventsOf k := by
  obtain ⟨events, rfl, inserted⟩ := stores.others
  exact ((project_insert (φ := EventEnvelope.sessionId) inserted).2 k hk).symm

theorem Stores.mem_iff {other : EventEnvelope} :
    other ∈ u.events ↔ other ∈ t.events ∨ other = event := by
  obtain ⟨events, rfl, inserted⟩ := stores.others
  exact (KeyedTable.insert?_eq_some inserted).1 other

theorem Stores.mirrors {restI : List InputRow} {restA : List AttemptRow}
    (m : Mirrors t v k restI restA) : Mirrors u v k restI restA := by
  obtain ⟨events, rfl, -⟩ := stores.others
  exact ⟨m.header, m.inputs, m.attempts, m.messages, m.segments, m.bindings⟩

theorem Stores.contextTurns : u.contextTurns = t.contextTurns := by
  obtain ⟨events, rfl, -⟩ := stores.others
  rfl

theorem Stores.sourced (s : t.Sourced) (caused : t.Caused event) : u.Sourced := by
  have mem {other : EventEnvelope} : other ∈ u.events ↔ other ∈ t.events ∨ other = event :=
    stores.mem_iff
  obtain ⟨events, rfl, inserted⟩ := stores.others
  have ext : Extends t { t with events } :=
    ⟨fun _ h => mem.mpr (.inl h), fun _ h => h, fun r h => ⟨r, h, rfl⟩, fun _ _ h => h,
      fun _ h => h⟩
  have ledger : Ledger { t with events } := by
    refine ⟨fun a ha => ?_, fun a ha b hb own same => ?_, fun a ha b hb some same => ?_,
      fun a ha causeId hc => ?_⟩
    · rcases mem.mp ha with old | rfl
      · exact s.ledger.session a old
      · exact stores.session
    · rcases mem.mp ha with olda | rfl <;> rcases mem.mp hb with oldb | rfl
      · exact s.ledger.sequence a olda b oldb own same
      · exact (stores.sequence a olda own same).elim
      · exact (stores.sequence b oldb own.symm same.symm).elim
      · rfl
    · rcases mem.mp ha with olda | rfl <;> rcases mem.mp hb with oldb | rfl
      · exact s.ledger.command a olda b oldb some same
      · exact (stores.command a olda some same).elim
      · exact (stores.command b oldb (same ▸ some) same.symm).elim
      · rfl
    · have old : ∃ cause ∈ t.events, cause.eventId = causeId ∧ cause.sessionId = a.sessionId ∧
          cause.sequence.get < a.sequence.get := by
        rcases mem.mp ha with old | rfl
        · exact s.ledger.cause a old causeId hc
        · exact caused causeId hc
      obtain ⟨cause, hm, rest⟩ := old
      exact ⟨cause, mem.mpr (.inl hm), rest⟩
  exact ⟨ledger, fun row hr => ext.inputSourced (s.inputs row hr),
    fun row hr => ext.attemptSourced (s.attempts row hr),
    fun row hr => ext.messageSourced (s.messages row hr),
    fun row hr => ext.segmentSourced (s.segments row hr),
    fun row hr => ext.bindingSourced (s.bindings row hr)⟩

end Stored

/-- The session before its next event: live, or just opened for its creation. -/
def Receives (t : SessionTables) (v : SessionView) (event : EventEnvelope) : Prop :=
  (t.eventsOf event.sessionId ≠ [] ∧ event.payload ≠ .sessionCreated ∧
      ∃ workspaceId, v = .ofEvents event.sessionId workspaceId (t.eventsOf event.sessionId)) ∨
    (t.eventsOf event.sessionId = [] ∧ event.payload = .sessionCreated ∧
      v = (SessionView.initial event.sessionId none).setHeader (SessionRow.setCreated event))

section Receiving

variable (receives : t.Receives v event)
include receives

theorem Receives.step : ∃ workspaceId, v.step event =
    .ofEvents event.sessionId workspaceId (t.eventsOf event.sessionId ++ [event]) := by
  rcases receives with ⟨-, -, workspaceId, rfl⟩ | ⟨empty, created, rfl⟩
  · exact ⟨workspaceId, SessionView.ofEvents_concat.symm⟩
  · refine ⟨none, ?_⟩
    rw [SessionView.ofEvents_concat, empty]
    simp only [SessionView.step, SessionView.apply, created]
    rfl

theorem Receives.opened (created : event.payload = .sessionCreated) :
    v.setHeader (SessionRow.setCreated event) = v := by
  rcases receives with ⟨-, other, -⟩ | ⟨-, -, rfl⟩
  · exact (other created).elim
  · rfl

theorem Receives.admits {turns : KeyedTable ContextTurnKey.contextTurnId}
    {past : List EventEnvelope} (h : v.Admits turns past event) :
    (SessionView.ofEvents event.sessionId none (t.eventsOf event.sessionId)).Admits turns past
      event := by
  rcases receives with ⟨-, -, workspaceId, rfl⟩ | ⟨-, created, rfl⟩
  · rw [SessionView.ofEvents_workspace none workspaceId]
    exact h
  · simp only [SessionView.Admits, created]

theorem Receives.inputs : v.inputs.map InputRow.inputId =
    (t.eventsOf event.sessionId).filterMap StreamScan.admittedInput? := by
  rcases receives with ⟨-, -, workspaceId, rfl⟩ | ⟨empty, -, rfl⟩
  · exact SessionView.ofEvents_inputs
  · rw [empty]
    rfl

end Receiving

/-- The next event continues the scanned stream. -/
theorem fits_of_stored {scan : StreamScan} (receives : t.Receives v event)
    (m : Mirrors t v event.sessionId [] []) (stores : Stores t u event)
    (scanned : run StreamScan.step .initial (t.eventsOf event.sessionId) = .ok scan)
    (sequence : event.sequence.get = scan.expected) (caused : t.Caused event)
    (keys : u.NewKeys event) : scan.Fits event := by
  have seen := StreamScan.seen_of_run scanned
  have own {other : EventEnvelope} : other ∈ t.eventsOf event.sessionId ↔
      other ∈ t.events ∧ other.sessionId = event.sessionId := Interleaving.mem_project
  have created : event.payload ≠ .sessionCreated → scan.created = true := by
    intro other
    rcases receives with ⟨stream, -⟩ | ⟨-, first, -⟩
    · exact seen.created.mpr stream
    · exact (other first).elim
  refine ⟨sequence, ?_, ?_⟩
  · unfold StreamScan.causationSeen
    split
    next commandId hc =>
      rw [Bool.not_eq_true', ← Bool.not_eq_true, List.contains_iff_mem]
      intro taken
      obtain ⟨other, ho, command⟩ := (seen.commandIds commandId).mp taken
      have mine : event.causingCommand? = some commandId := by
        rw [EventEnvelope.causingCommand?, hc]
      exact stores.command other (own.mp ho).1 (by rw [command]; rfl) (command.trans mine.symm)
    next causeId hc =>
      obtain ⟨cause, mem, id, session, -⟩ := caused causeId hc
      exact decide_eq_true ((seen.eventIds causeId).mpr ⟨cause, own.mpr ⟨mem, session⟩, id⟩)
  · unfold StreamScan.payloadFits
    split
    next first =>
      rcases receives with ⟨-, other, -⟩ | ⟨empty, -, -⟩
      · exact (other first).elim
      · have new : ¬scan.created = true := fun h => seen.created.mp h empty
        simp [new]
    next inputId prompt deliveryMode admitted =>
      have free : inputId ∉ scan.inputIds := by
        intro taken
        obtain ⟨other, ho, input⟩ := (seen.inputIds inputId).mp taken
        have listed : inputId ∈ v.inputs.map InputRow.inputId := by
          rw [receives.inputs]
          exact List.mem_filterMap.mpr ⟨other, ho, input⟩
        obtain ⟨row, hr, rfl⟩ := List.mem_map.mp listed
        obtain ⟨mem, session⟩ := (stores.mirrors m).mem_input hr
        refine keys.1 row.inputId ?_ row mem (Prod.ext session rfl)
        rw [StreamScan.admittedInput?, admitted]
      simp [created (by rw [admitted]; exact fun h => by cases h), free]
    next other _ => exact created other

/-- What storing and projecting one event leaves. -/
theorem live_of_stored {scan : StreamScan} (s : t.Sourced)
    (schema : ∀ other ∈ t.events, other.schemaVersion = eventSchemaV1)
    (others : ∀ k, k ≠ event.sessionId → t.SessionLive k)
    (m : Mirrors t v event.sessionId [] []) (receives : t.Receives v event)
    (scanned : run StreamScan.step .initial (t.eventsOf event.sessionId) = .ok scan)
    (admitted : t.Admitted event.sessionId (t.eventsOf event.sessionId))
    (version : event.schemaVersion = eventSchemaV1)
    (sequence : event.sequence.get = scan.expected) (caused : t.Caused event)
    (stored : t.insertEvent event = .ok u) (projected : u.projectEvent .append event = .ok w) :
    w.Live ∧ w.eventsOf event.sessionId = t.eventsOf event.sessionId ++ [event] := by
  have stores := insertEvent_stores stored
  have su := stores.sourced s caused
  have mu := stores.mirrors m
  obtain ⟨ordered, before⟩ := StreamScan.ordered_of_run scanned
  obtain ⟨applied, happly, -⟩ := bind_eq_ok_iff.mp projected
  have placed : Placed u (t.eventsOf event.sessionId) event [] := by
    refine ⟨stores.eventsOf, List.pairwise_append.mpr
      ⟨ordered, List.pairwise_singleton _ _, fun a ha b hb => ?_⟩⟩
    rw [List.mem_singleton.mp hb, sequence]
    exact before a ha
  obtain ⟨admits, keys⟩ := applyProjection_admits mu placed happly
  have fits := fits_of_stored receives m stores scanned sequence caused keys
  obtain ⟨restI, restA, written, rfl, rfl⟩ := projectEvent_writes .append su mu placed
    ⟨rfl, rfl⟩ (fun _ => keys) admits fun _ => receives.opened
  obtain ⟨w', hw, sw, mw, framed⟩ := written
  cases Except.ok.inj (hw.symm.trans projected)
  have own : w.eventsOf event.sessionId = t.eventsOf event.sessionId ++ [event] := by
    rw [← stores.eventsOf]
    unfold SessionTables.eventsOf
    rw [framed.events]
  have turns : w.contextTurns = t.contextTurns :=
    framed.contextTurns.trans stores.contextTurns
  refine ⟨⟨sw, fun other ho => ?_, fun k => ?_⟩, own⟩
  · rw [framed.events] at ho
    rcases stores.mem_iff.mp ho with old | rfl
    · exact schema other old
    · exact version
  · by_cases hk : k = event.sessionId
    · subst hk
      refine ⟨?_, ?_, fun empty => ?_, fun _ => ?_⟩
      · rw [own]
        exact ⟨_, FallibleRun.run_concat_ok_iff.mpr
          ⟨scan, scanned, StreamScan.step_eq_ok_iff.mpr ⟨fits, rfl⟩⟩⟩
      · intro past other future split
        rw [own] at split
        rw [turns]
        rcases List.eq_nil_or_concat future with rfl | ⟨front, last, rfl⟩
        · obtain ⟨rfl, same⟩ := List.append_inj' split rfl
          cases (List.cons.inj same).1
          exact receives.admits (stores.contextTurns ▸ admits)
        · rw [List.concat_eq_append, ← List.cons_append, ← List.append_assoc] at split
          exact admitted past other front (List.append_inj' split rfl).1
      · rw [own] at empty
        simp at empty
      · rw [own]
        obtain ⟨workspaceId, step⟩ := receives.step
        exact ⟨workspaceId, step ▸ mw⟩
    · have live := others k hk
      have same : w.eventsOf k = t.eventsOf k := by
        rw [← stores.eventsOf_other hk]
        unfold SessionTables.eventsOf
        rw [framed.events]
      refine ⟨same ▸ live.scanned, ?_, fun empty => ?_, fun nonempty => ?_⟩
      · rw [same]
        intro past other future split
        rw [turns]
        exact live.admitted past other future split
      · have unknown := live.unknown (same ▸ empty)
        have header := (framed.elsewhere k hk).header
        obtain ⟨events, rfl, -⟩ := stores.others
        exact header.symm.trans unknown
      · rw [same] at nonempty ⊢
        obtain ⟨workspaceId, mk⟩ := live.mirrored nonempty
        exact ⟨workspaceId, (stores.mirrors mk).agree (framed.elsewhere k hk)⟩

end SessionTables

end AutoHarness
