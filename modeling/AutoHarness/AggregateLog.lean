import AutoHarness.AggregateProgress
import Mathlib.Data.Finset.Dedup

namespace AutoHarness

open FallibleRun (bind_eq_ok_iff run_history)

variable {s t : SessionAggregate} {event : EventEnvelope}

/-- The direct cause of the event is one that the session can accept. -/
def CausationFits (s : SessionAggregate) (event : EventEnvelope) : Prop :=
  match event.causation with
  | .command commandId => commandId ∉ s.appliedCommandIds
  | .event causeEventId => causeEventId ∈ s.appliedEventIds

/-- Everything `validate_envelope` demands of the next event. -/
structure EnvelopeFits (s : SessionAggregate) (event : EventEnvelope) : Prop where
  schema : event.schemaVersion = eventSchemaV1
  session : event.sessionId = s.sessionId
  fresh : event.eventId ∉ s.appliedEventIds
  causation : CausationFits s event
  sequence : s.expectedSequence = .ok event.sequence

theorem validateCausation_eq_ok_iff {u : Unit} :
    s.validateCausation event = .ok u ↔ CausationFits s event := by
  unfold SessionAggregate.validateCausation CausationFits
  cases event.causation with
  | command commandId => simp
  | event causeEventId => simp

theorem validateEnvelope_eq_ok_iff {u : Unit} :
    s.validateEnvelope event = .ok u ↔ EnvelopeFits s event := by
  unfold SessionAggregate.validateEnvelope
  split
  next h => exact ⟨nofun, fun hf => absurd hf.schema h⟩
  next hschema =>
    split
    next h => exact ⟨nofun, fun hf => absurd hf.session h⟩
    next hsession =>
      split
      next h => exact ⟨nofun, fun hf => absurd h hf.fresh⟩
      next hfresh =>
        constructor
        · intro h
          obtain ⟨_, hcause, h⟩ := bind_eq_ok_iff.mp h
          obtain ⟨expected, he, h⟩ := bind_eq_ok_iff.mp h
          split at h
          next => cases h
          next hsequence =>
            exact ⟨not_not.mp hschema, not_not.mp hsession, hfresh,
              validateCausation_eq_ok_iff.mp hcause, by rw [he, not_not.mp hsequence]⟩
        · intro hf
          have hcause : s.validateCausation event = .ok () :=
            validateCausation_eq_ok_iff.mpr hf.causation
          simp [hcause, hf.sequence]

theorem applyOne_eq_ok_iff : s.applyOne event = .ok t ↔
    EnvelopeFits s event ∧ ∃ u, SessionStep s event u ∧ t = u.recordApplied event := by
  unfold SessionAggregate.applyOne
  simp only [bind_eq_ok_iff, validateEnvelope_eq_ok_iff, applyPayload_eq_ok_iff, Except.ok.injEq]
  constructor
  · rintro ⟨_, hf, u, hu, rfl⟩
    exact ⟨hf, u, hu, rfl⟩
  · rintro ⟨hf, u, hu, rfl⟩
    exact ⟨(), hf, u, hu, rfl⟩

/-- The number of the last applied event, zero before the first. -/
def SessionAggregate.lastSequenceValue (s : SessionAggregate) : Nat :=
  (s.lastSequence.map SessionSequence.get).getD 0

theorem expectedSequence_eq_ok_iff {sequence : SessionSequence} :
    s.expectedSequence = .ok sequence ↔ sequence.get = s.lastSequenceValue + 1 := by
  unfold SessionAggregate.expectedSequence SessionAggregate.lastSequenceValue
  cases s.lastSequence with
  | none =>
    simp only [Except.ok.injEq, Option.map_none, Option.getD_none]
    exact ⟨fun h => by rw [← h]; rfl, fun h => SessionSequence.ext_get h.symm⟩
  | some last =>
    simp only [Option.map_some, Option.getD_some]
    rw [← SessionSequence.checkedNext_eq_some_iff]
    cases last.checkedNext with
    | none => simp
    | some next => simp

/-- Header fields that no payload touches. -/
theorem SessionStep.envelope_frame (h : SessionStep s event t) :
    t.sessionId = s.sessionId ∧ t.appliedEventIds = s.appliedEventIds ∧
      t.appliedCommandIds = s.appliedCommandIds ∧ t.lastSequence = s.lastSequence := by
  cases h with
  | header h => cases h <;> exact ⟨rfl, rfl, rfl, rfl⟩
  | attemptChanged _ _ _ ht => rw [ht]; exact ⟨rfl, rfl, rfl, rfl⟩
  | _ => exact ⟨rfl, rfl, rfl, rfl⟩

/-- What the aggregate remembers of the log it was built from, apart from the payloads. -/
structure Logged (sessionId : SessionId) (log : List EventEnvelope) (s : SessionAggregate) :
    Prop where
  session : s.sessionId = sessionId
  sessions : ∀ event ∈ log, event.sessionId = sessionId
  length : s.lastSequenceValue = log.length
  sequences : ∀ i event, log[i]? = some event → event.sequence.get = i + 1
  eventIds : s.appliedEventIds = (log.map EventEnvelope.eventId).toFinset
  commandIds : s.appliedCommandIds = (log.filterMap EventEnvelope.causingCommand?).toFinset
  eventsDistinct : (log.map EventEnvelope.eventId).Nodup
  commandsDistinct : (log.filterMap EventEnvelope.causingCommand?).Nodup

theorem logged_empty (sessionId : SessionId) : Logged sessionId [] (.empty sessionId) where
  session := rfl
  sessions := by simp
  length := rfl
  sequences := by simp
  eventIds := rfl
  commandIds := rfl
  eventsDistinct := by simp
  commandsDistinct := by simp

theorem recordApplied_commandIds (event : EventEnvelope) :
    (s.recordApplied event).appliedCommandIds =
      s.appliedCommandIds ∪ event.causingCommand?.toFinset := by
  unfold SessionAggregate.recordApplied EventEnvelope.causingCommand?
  cases event.causation with
  | command commandId => simp
  | event eventId => simp

theorem logged_step {sessionId : SessionId} {log : List EventEnvelope}
    (h : Logged sessionId log s) (step : s.applyOne event = .ok t) :
    Logged sessionId (log ++ [event]) t := by
  obtain ⟨fits, u, hu, rfl⟩ := applyOne_eq_ok_iff.mp step
  obtain ⟨hsession, hevents, hcommands, hlast⟩ := hu.envelope_frame
  have hsequence := expectedSequence_eq_ok_iff.mp fits.sequence
  rw [h.length] at hsequence
  refine ⟨hsession.trans h.session, ?_, ?_, ?_, ?_, ?_, ?_, ?_⟩
  · intro e he
    rcases List.mem_append.mp he with he | he
    · exact h.sessions e he
    · rw [List.mem_singleton.mp he, fits.session, h.session]
  · simpa [SessionAggregate.lastSequenceValue, SessionAggregate.recordApplied] using hsequence
  · intro i e he
    rcases IndexedList.getElem?_concat_cases he with ⟨rfl, rfl⟩ | he
    · exact hsequence
    · exact h.sequences i e he
  · simp [SessionAggregate.recordApplied, hevents, h.eventIds, List.toFinset_append]
  · rw [recordApplied_commandIds, hcommands, h.commandIds]
    cases hc : event.causingCommand? with
    | none => simp [List.filterMap_append, hc]
    | some commandId => simp [List.filterMap_append, List.toFinset_append, hc]
  · rw [List.map_append, List.nodup_append']
    refine ⟨h.eventsDistinct, by simp, ?_⟩
    have := fits.fresh
    rw [h.eventIds, List.mem_toFinset] at this
    simpa using this
  · rw [List.filterMap_append, List.nodup_append']
    have hcause := fits.causation
    cases hc : event.causation with
    | event eventId => simp [EventEnvelope.causingCommand?, hc, h.commandsDistinct]
    | command commandId =>
      simp only [CausationFits, hc, h.commandIds, List.mem_toFinset] at hcause
      refine ⟨h.commandsDistinct, by simp [EventEnvelope.causingCommand?, hc], ?_⟩
      simpa [EventEnvelope.causingCommand?, hc] using hcause

theorem rehydrate_logged {sessionId : SessionId} {log : List EventEnvelope}
    (h : SessionAggregate.rehydrate sessionId log = .ok s) : Logged sessionId log s :=
  run_history (P := Logged sessionId) (logged_empty sessionId)
    (fun _ _ _ _ _ hm he => logged_step hm he) h

theorem Logged.lastSequence_eq {sessionId : SessionId} {log : List EventEnvelope}
    (h : Logged sessionId log s) :
    s.lastSequence.map SessionSequence.get = if log = [] then none else some log.length := by
  have length := h.length
  unfold SessionAggregate.lastSequenceValue at length
  cases hlast : s.lastSequence with
  | none =>
    have empty : log = [] := by simpa [hlast, eq_comm] using length
    simp [empty]
  | some sequence =>
    have get : sequence.get = log.length := by simpa [hlast] using length
    have nonempty : log ≠ [] := by
      rintro rfl
      have := sequence.positive
      simp only [List.length_nil] at get
      omega
    simp [nonempty, get]

/-- Invariants of the payload steps that the closing bookkeeping cannot see hold of every
rehydrated session. -/
theorem rehydrate_invariant {sessionId : SessionId} {log : List EventEnvelope}
    {P : SessionAggregate → Prop} (start : P (.empty sessionId))
    (step : ∀ s event t, P s → SessionStep s event t → P t)
    (record : ∀ s event, P s → P (SessionAggregate.recordApplied s event))
    (h : SessionAggregate.rehydrate sessionId log = .ok s) : P s := by
  refine FallibleRun.run_invariant start (fun m event t hm he => ?_) h
  obtain ⟨_, u, hu, rfl⟩ := applyOne_eq_ok_iff.mp he
  exact record u event (step m event u hm hu)

section Sample

def sampleSession : SessionId := ⟨"session-1", rfl⟩

def sampleInput : InputId := ⟨"input-1", rfl⟩

def sampleAttempt : AttemptId := ⟨"attempt-1", rfl⟩

def samplePrompt : PromptText := ⟨"Read the notes", by decide⟩

def sampleCorrelation : CorrelationId := ⟨"correlation-1", rfl⟩

def sampleContextTurn : ContextTurnId := ⟨"context-1", rfl⟩

def sampleHash : Sha256Digest :=
  ⟨"0000000000000000000000000000000000000000000000000000000000000000", rfl⟩

def sampleModel : ModelRef := ⟨⟨"provider-1", rfl⟩, ⟨"model-1", rfl⟩⟩

def sampleCall : ToolCallSpec where
  toolCallId := ⟨"call-1", rfl⟩
  providerCallId := ⟨"provider-call-1", rfl⟩
  toolName := ⟨"fs_read", rfl⟩
  schemaVersion := toolSchemaV1
  arguments := ⟨[("path", .string "README.md")], by decide⟩
  capability := ⟨.filesystemRead, ⟨"workspace:README.md"⟩⟩

def sampleId (kind : IdentifierKind) : Nat → Identifier kind
  | 1 => ⟨"id-1", rfl⟩
  | 2 => ⟨"id-2", rfl⟩
  | 3 => ⟨"id-3", rfl⟩
  | 4 => ⟨"id-4", rfl⟩
  | 5 => ⟨"id-5", rfl⟩
  | 6 => ⟨"id-6", rfl⟩
  | 7 => ⟨"id-7", rfl⟩
  | 8 => ⟨"id-8", rfl⟩
  | 9 => ⟨"id-9", rfl⟩
  | _ => ⟨"id-0", rfl⟩

/-- A log of the sample session, each event caused by a command of its own. -/
def sampleEvents (sequence : SessionSequence) : List EventPayload → List EventEnvelope
  | [] => []
  | payload :: rest =>
    .newV1 (sampleId _ sequence.get) sampleSession sequence ⟨0⟩
        (.command (sampleId _ sequence.get)) sampleCorrelation payload ::
      sampleEvents (sequence.checkedNext.getD sequence) rest

def samplePayloads : List EventPayload :=
  [.sessionCreated, .modelSelected sampleModel,
    .inputAdmitted sampleInput samplePrompt .nextTurn,
    .attemptPrepared sampleAttempt sampleInput sampleModel none, .attemptStarted sampleAttempt,
    .toolCallProposed sampleAttempt sampleCall]

def sampleLog : List EventEnvelope := sampleEvents .first samplePayloads

theorem sampleLog_accepted : ∃ s, SessionAggregate.rehydrate sampleSession sampleLog = .ok s :=
  ⟨_, rfl⟩

end Sample

end AutoHarness
