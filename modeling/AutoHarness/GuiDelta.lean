import AutoHarness.ClientStore

open FallibleRun (ok_bind bind_eq_ok_iff)

namespace AutoHarness.Gui

open Client (ClientSnapshot ActiveSessionDelta TransportRevision Produced between_eq_some)
open Client.ActiveSessionDelta (between)

section Attempt

variable {xs ys : List Client.TranscriptItem}

theorem latestAttempt_append : latestAttempt (xs ++ ys) = (latestAttempt ys).or (latestAttempt xs) := by
  rw [latestAttempt, List.filterMap_append, List.getLast?_append]
  rfl

/-- The splice leaves the attempt that it shows, or the one shown before, the latest of all. -/
def AttemptKept (splice : ListSplice Client.TranscriptItem) (previous : List Client.TranscriptItem) :
    Prop :=
  let kept := previous.drop (splice.start + splice.deleteCount)
  match latestAttempt splice.items with
  | some attempt => ∀ later, latestAttempt kept = some later → later = attempt
  | none => latestAttempt kept = none → ∀ gone, latestAttempt (splice.removed previous) = some gone →
      (latestAttempt (previous.take splice.start)).getD .idle = gone

/-- The attempt taken from a splice, and the one of the whole transcript after it. -/
theorem attempt_eq_iff (splice : ListSplice Client.TranscriptItem)
    (previous : List Client.TranscriptItem) :
    (latestAttempt splice.items).getD ((latestAttempt previous).getD .idle) =
        (latestAttempt (splice.apply previous)).getD .idle ↔ AttemptKept splice previous := by
  have before : latestAttempt previous = (latestAttempt (previous.drop (splice.start + splice.deleteCount))).or
      ((latestAttempt (splice.removed previous)).or (latestAttempt (previous.take splice.start))) := by
    conv_lhs => rw [splice.decompose previous]
    rw [latestAttempt_append, latestAttempt_append]
  rw [before, ListSplice.apply, latestAttempt_append, latestAttempt_append, AttemptKept]
  generalize latestAttempt (previous.drop (splice.start + splice.deleteCount)) = kept
  generalize latestAttempt (splice.removed previous) = gone
  generalize latestAttempt (previous.take splice.start) = front
  cases latestAttempt splice.items with
  | some attempt =>
    cases kept with
    | none => simp
    | some later =>
      simp only [Option.getD_some, Option.some_or, Option.some.injEq, forall_eq']
      exact eq_comm
  | none =>
    cases kept with
    | some later => simp
    | none =>
      cases gone with
      | none => simp
      | some gone =>
        simp only [Option.none_or, Option.some_or, Option.getD_none, Option.getD_some,
          Option.some.injEq, forall_eq', true_implies]
        exact eq_comm

end Attempt

section Delta

theorem replaceSummary_map (sessionId : Client.SessionId) (summary : Client.SessionSummary)
    (rows : List Client.SessionSummary) :
    ClientStore.replaceSummary sessionId.value (sessionSummaryFromWire summary)
        (rows.map sessionSummaryFromWire) =
      (ActiveSessionDelta.replaceSummary sessionId summary rows).map (·.map sessionSummaryFromWire) := by
  induction rows with
  | nil => rfl
  | cons row rest ih =>
    have same : (sessionSummaryFromWire row).id = sessionId.value ↔ row.sessionId = sessionId := by
      show row.sessionId.value = sessionId.value ↔ row.sessionId = sessionId
      cases sessionId
      cases row.sessionId
      simp
    rw [List.map_cons, ClientStore.replaceSummary, ActiveSessionDelta.replaceSummary]
    by_cases mine : row.sessionId = sessionId
    · rw [if_pos (same.mpr mine), if_pos mine]
      rfl
    · rw [if_neg (fun equal => mine (same.mp equal)), if_neg mine, ih]
      cases ActiveSessionDelta.replaceSummary sessionId summary rest <;> rfl

/-- What the renderer shows of the active session agrees in two projections. -/
structure SameView (left right : GuiSnapshot) : Prop where
  sessions : left.sessions = right.sessions
  activeSession : left.activeSession = right.activeSession
  pendingPermission : left.pendingPermission = right.pendingPermission
  activity : left.activity = right.activity

variable {validateMemory : Client.MemoryProjection → Except String Unit}
  {pageBytes : Client.MemoryProjection → Nat} {snapshot previous next : ClientSnapshot}
  {delta : ActiveSessionDelta} {revision following : TransportRevision} {view : GuiSnapshot}

theorem snapshotFromWire_eq_ok_iff :
    snapshotFromWire validateMemory snapshot revision = .ok view ↔
      snapshot.schemaVersion = Client.clientSchemaVersion ∧ validateMemory snapshot.memory = .ok () ∧
        view = .ofWire snapshot revision := by
  unfold snapshotFromWire
  by_cases schema : snapshot.schemaVersion = Client.clientSchemaVersion
  · rw [if_neg (not_not.mpr schema), bind_eq_ok_iff]
    simp only [schema, Except.ok.injEq, true_and]
    exact ⟨fun ⟨_, passed, made⟩ => ⟨passed, made.symm⟩, fun ⟨passed, made⟩ => ⟨(), passed, made.symm⟩⟩
  · simp [schema]

/-- The two projections of one delta, up to the attempt and what no delta carries. -/
theorem applyDelta_ofWire {frame : DeltaFrame} (n : Produced pageBytes next)
    (found : between previous next = some delta)
    (made : activeSessionDeltaFromWire delta following = .ok frame) :
    ∃ previousActive nextActive,
      previous.activeSession = some previousActive ∧ next.activeSession = some nextActive ∧
      delta.transcript.apply previousActive.transcript = nextActive.transcript ∧
      ClientStore.applyDelta (.ofWire previous revision) frame = .ok {
        GuiSnapshot.ofWire next following with
        providerRecoveryPending := previous.providerRecoveryPending
        activeSession := some { activeSessionFromWire next.sessions nextActive with
          attempt := (latestAttempt delta.transcript.items).getD
            ((latestAttempt previousActive.transcript).getD .idle) }
        activity := activityRows nextActive.revision ((latestAttempt delta.transcript.items).getD
            ((latestAttempt previousActive.transcript).getD .idle)) } := by
  have applied := Client.applyTo_between n found
  obtain ⟨c, previousActive, nextActive, summary, hp, hn, same, agree, listed, rfl⟩ :=
    between_eq_some found
  simp only [Client.ActiveSessionDelta.confined, Bool.and_eq_true, decide_eq_true_eq] at c
  obtain ⟨⟨⟨⟨⟨⟨⟨memory, -⟩, lifecycle⟩, identity⟩, catalog⟩, providers⟩, settings⟩, lengths⟩ := c
  obtain ⟨-, passed⟩ := n.checked
  obtain ⟨distinct, active⟩ := Client.check_eq_ok passed
  rw [hn] at active
  obtain ⟨named, -⟩ := Client.checkActive_some active
  have whole := ListSplice.apply_between previousActive.transcript nextActive.transcript
  have fits := ListSplice.between_fits previousActive.transcript nextActive.transcript
  have short : nextActive.transcript.length ≤ 65536 := nextActive.short
  have summaries := Client.replaceSummary_eq lengths agree distinct listed
  have summaryId : summary.sessionId = nextActive.sessionId := by
    simpa using List.find?_some listed
  refine ⟨previousActive, nextActive, hp, hn, whole, ?_⟩
  unfold activeSessionDeltaFromWire at made
  split at made
  next => cases made
  next =>
    cases Except.ok.inj made
    have shown : (GuiSnapshot.ofWire previous revision).activeSession =
        some (activeSessionFromWire previous.sessions previousActive) := by
      simp [GuiSnapshot.ofWire, hp]
    have rows : (activeSessionFromWire previous.sessions previousActive).transcript =
        previousActive.transcript.map transcriptItemFromWire := rfl
    unfold ClientStore.applyDelta
    rw [shown]
    dsimp only
    rw [rows, ListSplice.apply_map, whole, List.length_map, List.length_map]
    have matching : ¬ ((GuiSnapshot.ofWire previous revision).activeSessionId ≠
        some nextActive.sessionId.value ∨ (activeSessionFromWire previous.sessions previousActive).id ≠
          nextActive.sessionId.value ∨ (sessionSummaryFromWire summary).id ≠ nextActive.sessionId.value) := by
      simp [GuiSnapshot.ofWire, activeSessionFromWire, sessionSummaryFromWire, identity, named, same,
        summaryId]
    have replaced : ClientStore.replaceSummary nextActive.sessionId.value
        (sessionSummaryFromWire summary) (GuiSnapshot.ofWire previous revision).sessions =
          some (next.sessions.map sessionSummaryFromWire) := by
      have mapped := replaceSummary_map nextActive.sessionId summary previous.sessions
      rw [summaries] at mapped
      exact mapped
    rw [if_neg matching, if_neg (by simp only [ListSplice.map]; omega), if_neg (by omega), replaced]
    simp [GuiSnapshot.ofWire, activeSessionFromWire, permissionFromWire, hn, identity, lifecycle,
      catalog, providers, settings, memory, same, listed, sessionSummaryFromWire]

theorem activeSessionDeltaFromWire_between (found : between previous next = some delta)
    (following : TransportRevision) :
    ∃ frame, activeSessionDeltaFromWire delta following = .ok frame ∧ frame.revision = following := by
  obtain ⟨-, previousActive, nextActive, summary, -, -, -, -, -, rfl⟩ := between_eq_some found
  have fits := ListSplice.between_fits previousActive.transcript nextActive.transcript
  have few := ListSplice.length_between_items previousActive.transcript nextActive.transcript
  have old : previousActive.transcript.length ≤ 65536 := previousActive.short
  have new : nextActive.transcript.length ≤ 65536 := nextActive.short
  unfold activeSessionDeltaFromWire
  rw [if_neg (by dsimp only; omega)]
  exact ⟨_, rfl, rfl⟩

theorem sameView_iff {nextActive : Client.SessionProjection} (hn : next.activeSession = some nextActive)
    (pending : UInt64) (attempt : AttemptProjection) :
    SameView { GuiSnapshot.ofWire next following with
        providerRecoveryPending := pending
        activeSession := some { activeSessionFromWire next.sessions nextActive with attempt := attempt }
        activity := activityRows nextActive.revision attempt } (.ofWire next following) ↔
      attempt = (latestAttempt nextActive.transcript).getD .idle := by
  constructor
  · intro same
    have active := same.activeSession
    rw [GuiSnapshot.ofWire, hn] at active
    exact congrArg ActiveSessionProjection.attempt (Option.some.inj active)
  · rintro rfl
    refine ⟨rfl, ?_, rfl, ?_⟩
    · simp [GuiSnapshot.ofWire, hn, activeSessionFromWire]
    · simp [GuiSnapshot.ofWire, hn, activeSessionFromWire]

/-- The next delta of a store that runs. -/
theorem ClientStore.applyFrame_delta {store : ClientStore} {frame : DeltaFrame} {reached : GuiSnapshot}
    (opened : store.closed = false) (running : store.lifecycle ≠ .failed)
    (projection : store.projection = some view) (current : store.transportRevision = some revision)
    (successor : revision.next = .ok frame.revision) (applied : applyDelta view frame = .ok reached) :
    (store.applyFrame (.activeSessionDelta frame)).projection = some reached := by
  have above : frame.revision.get = revision.get + 1 := by
    unfold TransportRevision.next at successor
    split at successor
    next => exact (congrArg TransportRevision.get (Except.ok.inj successor)).symm
    next => cases successor
  have admitted : admission store.transportRevision (.activeSessionDelta frame) = .admitted := by
    rw [current, admission_eq_admitted_iff]
    simp [ClientFrame.revision, above]
  unfold applyFrame install
  rw [if_neg (by simp [opened, running]), admitted]
  dsimp only
  rw [projection]
  dsimp only
  rw [applied, ok_bind]

/-- The rows of the active session. -/
def activeTranscript (snapshot : ClientSnapshot) : List Client.TranscriptItem :=
  (snapshot.activeSession.map (·.transcript)).getD []

/-- A delta and a snapshot show the same exactly when the splice keeps the latest attempt in place. -/
theorem delta_view_iff {store : ClientStore} (n : Produced pageBytes next)
    (found : between previous next = some delta)
    (shown : snapshotFromWire validateMemory previous revision = .ok view)
    (opened : store.closed = false) (running : store.lifecycle ≠ .failed)
    (projection : store.projection = some view) (current : store.transportRevision = some revision)
    (successor : revision.next = .ok following) :
    ∃ frame wanted reached, activeSessionDeltaFromWire delta following = .ok frame ∧
      snapshotFromWire validateMemory next following = .ok wanted ∧
      (store.applyFrame (.activeSessionDelta frame)).projection = some reached ∧
      (SameView reached wanted ↔ AttemptKept delta.transcript (activeTranscript previous)) := by
  obtain ⟨schema, page, rfl⟩ := snapshotFromWire_eq_ok_iff.mp shown
  obtain ⟨frame, made, revised⟩ := activeSessionDeltaFromWire_between found following
  obtain ⟨previousActive, nextActive, hp, hn, whole, applied⟩ := applyDelta_ofWire n found made
  have memory : previous.memory = next.memory := by
    have c := (between_eq_some found).1
    simp only [Client.ActiveSessionDelta.confined, Bool.and_eq_true, decide_eq_true_eq] at c
    exact c.1.1.1.1.1.1.1
  have wanted : snapshotFromWire validateMemory next following = .ok (.ofWire next following) :=
    snapshotFromWire_eq_ok_iff.mpr ⟨n.checked.1, memory ▸ page, rfl⟩
  have reached := ClientStore.applyFrame_delta opened running projection current
    (revised.symm ▸ successor) applied
  refine ⟨frame, _, _, made, wanted, reached, ?_⟩
  rw [sameView_iff hn, ← whole, attempt_eq_iff, activeTranscript, hp]
  rfl

end Delta

section Sample

open Client (secondRevision sampleSnapshot samplePrompt produced_sample)

def sampleInput : Client.TranscriptItem := .user ⟨"input-2", by decide⟩ ⟨"Again", by decide⟩

def sampleAttempt (attemptId : Client.AttemptId) (state : Client.AttemptState) : Client.TranscriptItem :=
  .assistant attemptId ⟨"", by decide⟩ state none none

/-- Two prompts, each with its answer. -/
def answered : List Client.TranscriptItem :=
  [samplePrompt, sampleAttempt ⟨"attempt-1", by decide⟩ .cancelled, sampleInput,
    sampleAttempt ⟨"attempt-2", by decide⟩ .completed]

/-- The first prompt is tried again. -/
def retried : List Client.TranscriptItem :=
  [samplePrompt, sampleAttempt ⟨"attempt-1", by decide⟩ .cancelled,
    sampleAttempt ⟨"attempt-3", by decide⟩ .streaming, sampleInput,
    sampleAttempt ⟨"attempt-2", by decide⟩ .completed]

theorem checkSession_answered : Client.checkSession answered [] = .ok () := rfl

theorem checkSession_retried : Client.checkSession retried [] = .ok () := rfl

/-- A store that shows one snapshot of the host. -/
def showing (snapshot : ClientSnapshot) : ClientStore := { ClientStore.new with
  lifecycle := .ready
  projection := some (.ofWire snapshot .initial)
  transportRevision := some .initial }

/-- What the host sends when the first prompt arrives. -/
def promptDelta : ActiveSessionDelta :=
  ⟨Client.sampleSession, 1, Client.sampleSummary, none, ⟨0, 0, [samplePrompt]⟩, []⟩

theorem delta_view_prompt : ∃ frame wanted reached,
    activeSessionDeltaFromWire promptDelta secondRevision = .ok frame ∧
    snapshotFromWire (fun _ => .ok ()) (sampleSnapshot .default [samplePrompt] rfl) secondRevision =
      .ok wanted ∧
    ((showing (sampleSnapshot .default [] rfl)).applyFrame (.activeSessionDelta frame)).projection =
      some reached ∧
    SameView reached wanted := by
  have found : between (sampleSnapshot .default [] rfl) (sampleSnapshot .default [samplePrompt] rfl) =
      some promptDelta := rfl
  have shown : snapshotFromWire (fun _ => .ok ()) (sampleSnapshot .default [] rfl) .initial =
      .ok (.ofWire (sampleSnapshot .default [] rfl) .initial) := rfl
  have running : (showing (sampleSnapshot .default [] rfl)).lifecycle ≠ .failed := by decide
  have successor : TransportRevision.initial.next = .ok secondRevision := rfl
  have kept : AttemptKept promptDelta.transcript (activeTranscript (sampleSnapshot .default [] rfl)) := by
    show latestAttempt [] = none → ∀ gone, latestAttempt [] = some gone → _
    intro _ gone h
    cases h
  obtain ⟨frame, wanted, reached, made, projected, applied, same⟩ :=
    delta_view_iff (produced_sample rfl rfl) found shown rfl running rfl rfl successor
  exact ⟨frame, wanted, reached, made, projected, applied, same.mpr kept⟩

theorem retry_shows_other_attempt : ∃ delta frame wanted reached,
    Produced (fun _ => 2) (sampleSnapshot .default answered checkSession_answered) ∧
    Produced (fun _ => 2) (sampleSnapshot .default retried checkSession_retried) ∧
    between (sampleSnapshot .default answered checkSession_answered)
      (sampleSnapshot .default retried checkSession_retried) = some delta ∧
    activeSessionDeltaFromWire delta secondRevision = .ok frame ∧
    snapshotFromWire (fun _ => .ok ()) (sampleSnapshot .default retried checkSession_retried)
      secondRevision = .ok wanted ∧
    ((showing (sampleSnapshot .default answered checkSession_answered)).applyFrame
      (.activeSessionDelta frame)).projection = some reached ∧
    ¬ SameView reached wanted := by
  refine ⟨_, _, _, _, produced_sample rfl _, produced_sample rfl _, rfl, rfl, rfl, rfl, fun same => ?_⟩
  have attempt := congrArg (Option.map ActiveSessionProjection.attempt) same.activeSession
  cases attempt

end Sample

end AutoHarness.Gui
