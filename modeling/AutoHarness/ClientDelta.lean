import AutoHarness.ClientSnapshot
import AutoHarness.FallibleRun
import AutoHarness.ListSplice

open FallibleRun (bind_eq_ok_iff)

namespace AutoHarness.Client

/-- An incremental update of the session that is active already. -/
structure ActiveSessionDelta where
  sessionId : SessionId
  revision : UInt64
  summary : SessionSummary
  selectedModel : Option ModelRef
  transcript : ListSplice TranscriptItem
  permissionRequests : List PermissionRequest

namespace ActiveSessionDelta

/-- The rows of two session lists agree, those of the active session in their identity only. -/
def agreesOutside (activeId : SessionId) (left right : SessionSummary) : Bool :=
  left.sessionId = right.sessionId && (left.sessionId = activeId || left = right)

/-- The fields that a delta does not carry. -/
def confined (previous next : ClientSnapshot) : Bool :=
  previous.memory = next.memory && previous.schemaVersion = next.schemaVersion &&
    previous.lifecycle = next.lifecycle && previous.activeSessionId = next.activeSessionId &&
    previous.catalog = next.catalog && previous.providers = next.providers &&
    previous.settings = next.settings && previous.sessions.length = next.sessions.length

def between (previous next : ClientSnapshot) : Option ActiveSessionDelta :=
  if !confined previous next then none
  else
    match previous.activeSession, next.activeSession with
    | some previousActive, some nextActive =>
      let activeId := nextActive.sessionId
      if previousActive.sessionId ≠ activeId then none
      else if (previous.sessions.zip next.sessions).any
          fun pair => !agreesOutside activeId pair.1 pair.2 then none
      else (next.sessions.find? (·.sessionId = activeId)).map fun summary =>
        ⟨activeId, nextActive.revision, summary, nextActive.selectedModel,
          .between previousActive.transcript nextActive.transcript, nextActive.permissionRequests⟩
    | _, _ => none

/-- The first summary of a session is replaced. -/
def replaceSummary (sessionId : SessionId) (summary : SessionSummary) :
    List SessionSummary → Option (List SessionSummary)
  | [] => none
  | row :: rest =>
    if row.sessionId = sessionId then some (summary :: rest)
    else (replaceSummary sessionId summary rest).map (row :: ·)

def applyTo (delta : ActiveSessionDelta) (snapshot : ClientSnapshot) :
    Except ValidationError ClientSnapshot :=
  match snapshot.activeSession with
  | none => .error (.inconsistent "session_delta_identity")
  | some active =>
    let splice := delta.transcript
    let finalLength := active.transcript.length - splice.deleteCount + splice.items.length
    if snapshot.activeSessionId ≠ some delta.sessionId ∨ active.sessionId ≠ delta.sessionId then
      .error (.inconsistent "session_delta_identity")
    else if splice.start + splice.deleteCount > active.transcript.length then
      .error (.inconsistent "transcript_delta_range")
    else if finalLength > maxTranscriptItems then
      .error (.tooMany "transcript" maxTranscriptItems finalLength)
    else do
      let activeSession ← SessionProjection.new delta.sessionId delta.revision delta.selectedModel
        (splice.apply active.transcript) delta.permissionRequests
      match replaceSummary delta.sessionId delta.summary snapshot.sessions with
      | none => .error (.inconsistent "session_delta_summary")
      | some sessions =>
        ClientSnapshot.new snapshot.lifecycle snapshot.activeSessionId sessions (some activeSession)
          snapshot.catalog snapshot.providers snapshot.settings snapshot.providerRecoveryPending

end ActiveSessionDelta

/-- The snapshots that the two constructors produce. -/
inductive Produced (pageBytes : MemoryProjection → Nat) : ClientSnapshot → Prop
  | new {lifecycle activeSessionId sessions activeSession catalog providers settings pending snapshot}
      (h : ClientSnapshot.new lifecycle activeSessionId sessions activeSession catalog providers settings
        pending = .ok snapshot) : Produced pageBytes snapshot
  | withMemory {snapshot memory carried} (p : Produced pageBytes snapshot)
      (h : snapshot.withMemory pageBytes memory = .ok carried) : Produced pageBytes carried

section Between

open ActiveSessionDelta

variable {pageBytes : MemoryProjection → Nat} {snapshot previous next : ClientSnapshot}
  {delta : ActiveSessionDelta}

theorem Produced.checked (p : Produced pageBytes snapshot) :
    snapshot.schemaVersion = clientSchemaVersion ∧
      ClientSnapshot.check snapshot.activeSessionId snapshot.sessions snapshot.activeSession
        snapshot.catalog snapshot.providers = .ok () := by
  induction p with
  | new h =>
    obtain ⟨⟨⟩, passed, made⟩ := bind_eq_ok_iff.mp h
    cases Except.ok.inj made
    exact ⟨rfl, passed⟩
  | withMemory _ h ih =>
    obtain ⟨⟨⟩, -, made⟩ := bind_eq_ok_iff.mp h
    cases Except.ok.inj made
    exact ih

theorem check_eq_ok {activeSessionId : Option SessionId} {sessions : List SessionSummary}
    {activeSession : Option SessionProjection} {catalog : CatalogProjection}
    {providers : List ProviderProjection}
    (h : ClientSnapshot.check activeSessionId sessions activeSession catalog providers = .ok ()) :
    (sessions.map (·.sessionId)).Nodup ∧
      ClientSnapshot.checkActive activeSessionId sessions activeSession = .ok () := by
  unfold ClientSnapshot.check at h
  obtain ⟨⟨⟩, -, h⟩ := bind_eq_ok_iff.mp h
  obtain ⟨⟨⟩, -, h⟩ := bind_eq_ok_iff.mp h
  obtain ⟨⟨⟩, -, h⟩ := bind_eq_ok_iff.mp h
  obtain ⟨⟨⟩, -, h⟩ := bind_eq_ok_iff.mp h
  split at h
  next => cases h
  next distinct =>
    split at h
    next => cases h
    next => exact ⟨not_not.mp distinct, h⟩

theorem checkActive_some {activeSessionId : Option SessionId} {sessions : List SessionSummary}
    {session : SessionProjection}
    (h : ClientSnapshot.checkActive activeSessionId sessions (some session) = .ok ()) :
    activeSessionId = some session.sessionId ∧ session.sessionId ∈ sessions.map (·.sessionId) := by
  cases activeSessionId with
  | none => cases h
  | some identity =>
    simp only [ClientSnapshot.checkActive] at h
    split at h
    next both =>
      obtain ⟨rfl, listed⟩ := both
      exact ⟨rfl, listed⟩
    next => cases h

theorem SessionProjection.new_eq (session : SessionProjection) :
    SessionProjection.new session.sessionId session.revision session.selectedModel session.transcript
      session.permissionRequests = .ok session := by
  unfold SessionProjection.new
  split
  next => rfl
  next error failed =>
    rw [session.checked] at failed
    cases failed

theorem SessionProjection.short (session : SessionProjection) :
    session.transcript.length ≤ maxTranscriptItems := by
  obtain ⟨⟨⟩, counted, -⟩ := bind_eq_ok_iff.mp session.checked
  unfold validateCount at counted
  split at counted
  next => cases counted
  next short => omega

/-- Two session lists that agree outside one session differ by its summary. -/
theorem replaceSummary_eq {activeId : SessionId} {summary : SessionSummary}
    {left right : List SessionSummary} (lengths : left.length = right.length)
    (agree : ∀ pair ∈ left.zip right, agreesOutside activeId pair.1 pair.2 = true)
    (distinct : (right.map (·.sessionId)).Nodup)
    (found : right.find? (·.sessionId = activeId) = some summary) :
    replaceSummary activeId summary left = some right := by
  induction left generalizing right with
  | nil =>
    cases right with
    | nil => cases found
    | cons _ _ => cases lengths
  | cons row left ih =>
    cases right with
    | nil => cases lengths
    | cons other right =>
      have first := agree (row, other) (by simp)
      have rest : ∀ pair ∈ left.zip right, agreesOutside activeId pair.1 pair.2 = true :=
        fun pair hp => agree pair (by simp [hp])
      simp only [agreesOutside, Bool.and_eq_true, Bool.or_eq_true, decide_eq_true_eq] at first
      obtain ⟨fresh, distinct⟩ := List.nodup_cons.mp (List.map_cons ▸ distinct)
      simp only [List.length_cons, Nat.add_right_cancel_iff] at lengths
      unfold replaceSummary
      by_cases mine : other.sessionId = activeId
      · rw [List.find?_cons_of_pos (by simpa using mine)] at found
        cases Option.some.inj found
        have same : left = right := by
          refine List.ext_getElem lengths fun i hi hj => ?_
          have pair := rest (left[i], right[i]) (List.mem_iff_getElem.mpr
            ⟨i, by rw [List.length_zip]; omega, by simp⟩)
          simp only [agreesOutside, Bool.and_eq_true, Bool.or_eq_true, decide_eq_true_eq] at pair
          rcases pair.2 with active | equal
          · have listed : right[i].sessionId ∈ right.map (·.sessionId) :=
              List.mem_map.mpr ⟨_, List.getElem_mem hj, rfl⟩
            rw [← pair.1, active, ← mine] at listed
            exact absurd listed fresh
          · exact equal
        rw [if_pos (first.1.trans mine), same]
      · rw [List.find?_cons_of_neg (by simpa using mine)] at found
        have equal : row = other := first.2.resolve_left fun active => mine (first.1 ▸ active)
        rw [if_neg (fun active => mine (first.1 ▸ active)), ih lengths rest distinct found,
          Option.map_some, equal]

theorem between_eq_some (h : between previous next = some delta) :
    confined previous next = true ∧ ∃ previousActive nextActive summary,
      previous.activeSession = some previousActive ∧ next.activeSession = some nextActive ∧
      previousActive.sessionId = nextActive.sessionId ∧
      (∀ pair ∈ previous.sessions.zip next.sessions,
        agreesOutside nextActive.sessionId pair.1 pair.2 = true) ∧
      next.sessions.find? (·.sessionId = nextActive.sessionId) = some summary ∧
      delta = ⟨nextActive.sessionId, nextActive.revision, summary, nextActive.selectedModel,
        .between previousActive.transcript nextActive.transcript, nextActive.permissionRequests⟩ := by
  unfold ActiveSessionDelta.between at h
  by_cases c : confined previous next = true
  · rw [if_neg (by simp [c])] at h
    split at h
    next previousActive nextActive hp hn =>
      dsimp only at h
      by_cases same : previousActive.sessionId = nextActive.sessionId
      · rw [if_neg (not_not.mpr same)] at h
        split at h
        next => cases h
        next agree =>
          obtain ⟨summary, found, made⟩ := Option.map_eq_some_iff.mp h
          refine ⟨c, previousActive, nextActive, summary, hp, hn, same, fun pair listed => ?_, found,
            made.symm⟩
          simpa using List.any_eq_false.mp (Bool.eq_false_iff.mpr agree) pair listed
      · rw [if_pos same] at h
        cases h
    next => cases h
  · rw [if_pos (by simpa using c)] at h
    cases h

/-- What a delta leaves behind: the memory page is reset and the recovery counter stays. -/
theorem applyTo_between (n : Produced pageBytes next)
    (h : between previous next = some delta) :
    delta.applyTo previous = .ok { next with
      memory := .default
      providerRecoveryPending := previous.providerRecoveryPending } := by
  obtain ⟨c, previousActive, nextActive, summary, hp, hn, same, agree, found, rfl⟩ := between_eq_some h
  simp only [confined, Bool.and_eq_true, decide_eq_true_eq] at c
  obtain ⟨⟨⟨⟨⟨⟨⟨-, -⟩, lifecycle⟩, identity⟩, catalog⟩, providers⟩, settings⟩, lengths⟩ := c
  obtain ⟨schema, passed⟩ := n.checked
  obtain ⟨distinct, active⟩ := check_eq_ok passed
  rw [hn] at active
  obtain ⟨named, -⟩ := checkActive_some active
  have fits := ListSplice.between_fits previousActive.transcript nextActive.transcript
  have applied := ListSplice.apply_between previousActive.transcript nextActive.transcript
  have final : previousActive.transcript.length -
      (ListSplice.between previousActive.transcript nextActive.transcript).deleteCount +
        (ListSplice.between previousActive.transcript nextActive.transcript).items.length =
      nextActive.transcript.length := by
    have whole := congrArg List.length applied
    simp only [ListSplice.apply, List.length_append, List.length_take, List.length_drop] at whole
    omega
  have short := nextActive.short
  unfold applyTo
  rw [hp]
  dsimp only
  rw [if_neg (by simp [identity, named, same]), if_neg (by omega), if_neg (by omega), applied,
    nextActive.new_eq, FallibleRun.ok_bind, replaceSummary_eq lengths agree distinct found]
  dsimp only
  rw [ClientSnapshot.new, identity, catalog, providers, lifecycle, settings, ← hn, passed,
    FallibleRun.ok_bind, schema]

/-- Nothing that a delta drops is there to be dropped. -/
structure Lossless (previous next : ClientSnapshot) : Prop where
  memory : next.memory = .default
  pending : previous.providerRecoveryPending = next.providerRecoveryPending

theorem applyTo_between_iff (n : Produced pageBytes next)
    (h : between previous next = some delta) :
    delta.applyTo previous = .ok next ↔ Lossless previous next := by
  rw [applyTo_between n h]
  constructor
  · intro same
    have equal := Except.ok.inj same
    have memory := congrArg ClientSnapshot.memory equal
    have pending := congrArg ClientSnapshot.providerRecoveryPending equal
    exact ⟨memory.symm, pending⟩
  · rintro ⟨memory, pending⟩
    rw [pending, ← memory]

end Between

section Sequence

open ActiveSessionDelta

/-- What a client makes of the next snapshot of its host: a delta where there is one. -/
def receive (client current next : ClientSnapshot) : Except ValidationError ClientSnapshot :=
  match between current next with
  | some delta => delta.applyTo client
  | none => .ok next

/-- A client that follows the snapshots of its host. -/
def follow (client : ClientSnapshot) : ClientSnapshot → List ClientSnapshot →
    Except ValidationError ClientSnapshot
  | _, [] => .ok client
  | current, next :: rest => do
    let client ← receive client current next
    follow client next rest

theorem follow_eq_last {pageBytes : MemoryProjection → Nat} {first : ClientSnapshot}
    {rest : List ClientSnapshot} (produced : ∀ snapshot ∈ first :: rest, Produced pageBytes snapshot)
    (lossless : (first :: rest).IsChain fun previous next =>
      between previous next ≠ none → Lossless previous next) :
    follow first first rest = .ok ((first :: rest).getLast (by simp)) := by
  induction rest generalizing first with
  | nil => rfl
  | cons next rest ih =>
    obtain ⟨step, chain⟩ := List.isChain_cons_cons.mp lossless
    have reached : receive first first next = .ok next := by
      unfold receive
      split
      next delta found =>
        exact (applyTo_between_iff (produced next (by simp)) found).mpr (step (by simp [found]))
      next => rfl
    rw [follow, reached, FallibleRun.ok_bind, ih (fun s hs => produced s (by simp [hs])) chain]
    simp

/-- A delta reproduces the next snapshot exactly when it drops nothing, and so do sequences. -/
theorem deltas_reproduce (pageBytes : MemoryProjection → Nat) :
    (∀ previous next delta, Produced pageBytes previous → Produced pageBytes next →
      between previous next = some delta →
        (delta.applyTo previous = .ok next ↔ Lossless previous next)) ∧
    ∀ first rest, (∀ snapshot ∈ first :: rest, Produced pageBytes snapshot) →
      ((first :: rest).IsChain fun previous next =>
        between previous next ≠ none → Lossless previous next) →
      follow first first rest = .ok ((first :: rest).getLast (by simp)) :=
  ⟨fun _ _ _ _ n h => applyTo_between_iff n h, fun _ _ produced lossless =>
    follow_eq_last produced lossless⟩

end Sequence

section Sample

def sampleSettings : ClientSettingsProjection where
  themePreset := ⟨.system, .default, false⟩
  colorMode := ⟨.color, .default, false⟩
  zoomPercent := ⟨⟨110, by omega⟩, .default, false⟩
  fontSize := ⟨.standard, .default, false⟩
  density := ⟨.comfortable, .default, false⟩
  reducedMotion := ⟨false, .default, false⟩
  timestampStyle := ⟨.relative, .default, false⟩
  composerSubmitBehavior := ⟨.controlS, .default, false⟩

def sampleSession : SessionId := ⟨"session-1", by decide⟩

def sampleSummary : SessionSummary :=
  ⟨sampleSession, ⟨"First", by decide, by decide⟩, some 1, none, none, none, false⟩

/-- One session with the given rows, and the given memory page. -/
def sampleSnapshot (memory : MemoryProjection) (transcript : List TranscriptItem)
    (checked : checkSession transcript [] = .ok ()) : ClientSnapshot where
  memory := memory
  schemaVersion := clientSchemaVersion
  lifecycle := .ready
  activeSessionId := some sampleSession
  sessions := [sampleSummary]
  activeSession := some ⟨sampleSession, 1, none, transcript, [], checked⟩
  catalog := .loading
  providers := []
  settings := sampleSettings
  providerRecoveryPending := 0

def samplePrompt : TranscriptItem := .user ⟨"input-1", by decide⟩ ⟨"Hello", by decide⟩

/-- The client has asked for its memories once. -/
def samplePage : MemoryProjection := ⟨1, 1, .ready, [], 0, false, none⟩

theorem produced_sample {memory : MemoryProjection} {transcript : List TranscriptItem}
    (valid : memory.validate (fun _ => 2) = .ok ()) (checked : checkSession transcript [] = .ok ()) :
    Produced (fun _ => 2) (sampleSnapshot memory transcript checked) := by
  have made : ClientSnapshot.new .ready (some sampleSession) [sampleSummary]
      (some ⟨sampleSession, 1, none, transcript, [], checked⟩) .loading [] sampleSettings 0 =
        .ok (sampleSnapshot .default transcript checked) := rfl
  have carried : (sampleSnapshot .default transcript checked).withMemory (fun _ => 2) memory =
      .ok (sampleSnapshot memory transcript checked) := by
    rw [ClientSnapshot.withMemory, valid]
    rfl
  exact .withMemory (.new made) carried

theorem deltas_reproduce_prompt :
    follow (sampleSnapshot .default [] rfl) (sampleSnapshot .default [] rfl)
      [sampleSnapshot .default [samplePrompt] rfl] = .ok (sampleSnapshot .default [samplePrompt] rfl) := by
  refine (deltas_reproduce fun _ => 2).2 _ _ (fun snapshot listed => ?_) ?_
  · rcases List.mem_cons.mp listed with rfl | listed
    · exact produced_sample rfl rfl
    · cases List.mem_singleton.mp listed
      exact produced_sample rfl rfl
  · exact List.isChain_cons_cons.mpr ⟨fun _ => ⟨rfl, rfl⟩, .singleton _⟩

theorem delta_loses_memory : ¬ ∀ previous next delta, Produced (fun _ => 2) previous →
    Produced (fun _ => 2) next → ActiveSessionDelta.between previous next = some delta →
      delta.applyTo previous = .ok next := by
  intro reproduce
  have differs : (ActiveSessionDelta.between (sampleSnapshot samplePage [] rfl)
      (sampleSnapshot samplePage [samplePrompt] rfl)).isSome = true := by decide
  obtain ⟨delta, found⟩ := Option.isSome_iff_exists.mp differs
  have made : Produced (fun _ => 2) (sampleSnapshot samplePage [samplePrompt] rfl) :=
    produced_sample rfl rfl
  have reached := reproduce _ _ delta (produced_sample rfl rfl) made found
  have lost := ((applyTo_between_iff made found).mp reached).memory
  cases lost

end Sample

end AutoHarness.Client

namespace AutoHarness.Client

inductive AuthenticationState where
  | browserOpened
  | completed
  | cancelled
deriving DecidableEq

inductive ShutdownState where
  | requested
  | ready
deriving DecidableEq

inductive ClientNotice where
  | commandCommitted (requestId : RequestId)
  | commandRejected (requestId : RequestId) (failure : SafeFailure)
  | authentication (requestId : RequestId) (state : AuthenticationState)
  | shutdown (state : ShutdownState)
deriving DecidableEq

def ClientNotice.requestId : ClientNotice → Option RequestId
  | .commandCommitted requestId | .commandRejected requestId _ | .authentication requestId _ =>
    some requestId
  | .shutdown _ => none

inductive SnapshotReason where
  | initial
  | projection
  | resynchronization
deriving DecidableEq

inductive FramePayload where
  | snapshot (reason : SnapshotReason) (snapshot : ClientSnapshot)
  | activeSessionDelta (delta : ActiveSessionDelta)
  | notice (notice : ClientNotice)

structure ServerFrame where
  revision : TransportRevision
  payload : FramePayload

inductive FrameDisposition where
  | baseline
  | next
  | stale (lastApplied received : TransportRevision)
  | gap (expected received : TransportRevision)
  | invalidBaseline (received : TransportRevision)
  | sequenceExhausted (lastApplied : TransportRevision)
deriving DecidableEq

def FramePayload.isBaseline : FramePayload → Bool
  | .snapshot .initial _ | .snapshot .resynchronization _ => true
  | _ => false

def FramePayload.isResynchronization : FramePayload → Bool
  | .snapshot .resynchronization _ => true
  | _ => false

def ServerFrame.classifyAfter (frame : ServerFrame) :
    Option TransportRevision → FrameDisposition
  | none => if frame.payload.isBaseline then .baseline else .invalidBaseline frame.revision
  | some last =>
    if frame.revision.get ≤ last.get then .stale last frame.revision
    else if frame.payload.isResynchronization then .baseline
    else
      match last.next with
      | .ok expected => if frame.revision = expected then .next else .gap expected frame.revision
      | .error _ => .sequenceExhausted last

/-- The frame is to be applied. -/
def FrameDisposition.Applies : FrameDisposition → Prop
  | .baseline | .next => True
  | _ => False

end AutoHarness.Client
