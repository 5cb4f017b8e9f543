import AutoHarness.GuiProjection

namespace AutoHarness.Gui

open Client (TransportRevision SnapshotReason)

section Frames

inductive NoticeLevel where
  | info
  | success
  | warning
  | error
deriving DecidableEq

structure Notice where
  requestId : Option Client.RequestId
  level : NoticeLevel
  code : String
  message : String
deriving DecidableEq

inductive ClientFrame where
  | snapshot (reason : SnapshotReason) (revision : TransportRevision) (snapshot : GuiSnapshot)
  | activeSessionDelta (frame : DeltaFrame)
  | notice (revision : TransportRevision) (notice : Notice)

def ClientFrame.revision : ClientFrame → TransportRevision
  | .snapshot _ revision _ => revision
  | .activeSessionDelta frame => frame.revision
  | .notice revision _ => revision

def authenticationNotice (requestId : Client.RequestId) : Client.AuthenticationState → Notice
  | .browserOpened =>
    ⟨some requestId, .info, "authentication_browser_opened", "Authentication browser opened."⟩
  | .completed => ⟨some requestId, .info, "authentication_completed", "Authentication completed."⟩
  | .cancelled => ⟨some requestId, .info, "authentication_cancelled", "Authentication cancelled."⟩

def shutdownNotice : Client.ShutdownState → Notice
  | .requested => ⟨none, .info, "shutdown_requested", "Shutdown requested."⟩
  | .ready => ⟨none, .info, "shutdown_ready", "Shutdown ready."⟩

def noticeFromWire : Client.ClientNotice → Notice
  | .commandRejected requestId failure => ⟨some requestId, .error, failure.code, failure.message⟩
  | .commandCommitted requestId =>
    ⟨some requestId, .success, "command_committed", "The durable host committed the command."⟩
  | .authentication requestId state => authenticationNotice requestId state
  | .shutdown state => shutdownNotice state

/-- `frameFromWire`. A revision is canonical on both sides. -/
def frameFromWire (validateMemory : Client.MemoryProjection → Except String Unit)
    (frame : Client.ServerFrame) : Except String ClientFrame :=
  match frame.payload with
  | .snapshot reason snapshot =>
    (snapshotFromWire validateMemory snapshot frame.revision).map (.snapshot reason frame.revision)
  | .activeSessionDelta delta =>
    (activeSessionDeltaFromWire delta frame.revision).map .activeSessionDelta
  | .notice notice => .ok (.notice frame.revision (noticeFromWire notice))

end Frames

inductive StoreLifecycle where
  | booting
  | ready
  | resyncing
  | failed
deriving DecidableEq

/-- The store of the renderer, with the requests that it awaits. -/
structure ClientStore where
  lifecycle : StoreLifecycle
  projection : Option GuiSnapshot
  transportRevision : Option TransportRevision
  notice : Option Notice
  commandError : Option String
  started : Bool
  connecting : Bool
  closed : Bool
  resync : Bool

namespace ClientStore

def new : ClientStore := ⟨.booting, none, none, none, none, false, false, false, false⟩

def fail (store : ClientStore) (message : String) : ClientStore :=
  { store with lifecycle := .failed, commandError := some message }

/-- The request goes out at once, and one at a time. -/
def requestResync (store : ClientStore) : ClientStore :=
  if store.closed || store.resync then store
  else { store with lifecycle := .resyncing, resync := true }

def replaceSummary (sessionId : String) (summary : SessionSummary) :
    List SessionSummary → Option (List SessionSummary)
  | [] => none
  | row :: rest =>
    if row.id = sessionId then some (summary :: rest)
    else (replaceSummary sessionId summary rest).map (row :: ·)

def applyDelta (projection : GuiSnapshot) (frame : DeltaFrame) : Except String GuiSnapshot :=
  match projection.activeSession with
  | none => .error "Active-session delta does not match the authoritative baseline"
  | some active =>
    let splice := frame.transcript
    let attempt := frame.attempt.getD active.attempt
    if projection.activeSessionId ≠ some frame.sessionId ∨ active.id ≠ frame.sessionId ∨
        frame.summary.id ≠ frame.sessionId then
      .error "Active-session delta does not match the authoritative baseline"
    else if splice.start + splice.deleteCount > active.transcript.length then
      .error "Active-session delta exceeds the authoritative transcript"
    else if (splice.apply active.transcript).length > 65536 then
      .error "Active-session delta exceeds the transcript row limit"
    else
      match replaceSummary frame.sessionId frame.summary projection.sessions with
      | none => .error "Active-session delta has no matching session summary"
      | some sessions => .ok { projection with
          transportRevision := frame.revision
          sessions := sessions
          activeSession := some { active with
            revision := frame.sessionRevision
            title := frame.summary.title
            selectedModelId := frame.selectedModelId
            transcript := splice.apply active.transcript
            attempt := attempt }
          pendingPermission := frame.pendingPermission
          activity := activityRows frame.sessionRevision attempt }

/-- What is done with a frame before its content is looked at. -/
inductive Admission where
  | ignored
  | missing
  | admitted
deriving DecidableEq

def isBaseline (current : Option TransportRevision) : ClientFrame → Bool
  | .snapshot .resynchronization _ _ => true
  | .snapshot .initial _ _ => current.isNone
  | _ => false

def admission (current : Option TransportRevision) (frame : ClientFrame) : Admission :=
  match current with
  | none => if isBaseline none frame then .admitted else .missing
  | some current =>
    if frame.revision.get ≤ current.get then .ignored
    else if !isBaseline (some current) frame && frame.revision.get ≠ current.get + 1 then .missing
    else .admitted

def noticeError (store : ClientStore) (notice : Notice) : Option String :=
  if notice.level = .error then some notice.message else store.commandError

/-- A notice behind a gap is shown, and its revision is not taken. -/
def observeGapNotice (store : ClientStore) : ClientFrame → ClientStore
  | .notice _ notice =>
    { store with notice := some notice, commandError := store.noticeError notice }
  | _ => store

/-- The content of an admitted frame. -/
def install (store : ClientStore) : ClientFrame → Except String ClientStore
  | .snapshot reason revision snapshot =>
    if snapshot.transportRevision ≠ revision then .error "Snapshot and frame revisions do not match"
    else .ok { store with
      lifecycle := if store.lifecycle = .resyncing ∧ reason ≠ .resynchronization then .resyncing
        else .ready
      projection := some snapshot
      transportRevision := some revision
      commandError := none }
  | .activeSessionDelta frame =>
    match store.projection with
    | none => .error "Active-session delta does not match the authoritative baseline"
    | some projection => do
      let projection ← applyDelta projection frame
      .ok { store with
        lifecycle := if store.lifecycle = .resyncing then .resyncing else .ready
        projection := some projection
        transportRevision := some frame.revision
        commandError := none }
  | .notice revision notice => .ok { store with
      lifecycle := if store.lifecycle = .resyncing then .resyncing
        else if store.projection.isSome then .ready else store.lifecycle
      transportRevision := some revision
      notice := some notice
      commandError := store.noticeError notice }

def applyFrame (store : ClientStore) (frame : ClientFrame) : ClientStore :=
  if store.closed || store.lifecycle = .failed then store
  else
    match admission store.transportRevision frame with
    | .ignored => store
    | .missing => (store.observeGapNotice frame).requestResync
    | .admitted =>
      match store.install frame with
      | .ok store => store
      | .error message => store.fail message

theorem admission_eq_admitted_iff {current : TransportRevision} {frame : ClientFrame} :
    admission (some current) frame = .admitted ↔ current.get < frame.revision.get ∧
      (isBaseline (some current) frame = true ∨ frame.revision.get = current.get + 1) := by
  simp only [admission]
  by_cases old : frame.revision.get ≤ current.get
  · rw [if_pos old]
    simp only [reduceCtorEq, false_iff]
    omega
  · rw [if_neg old]
    by_cases fits : isBaseline (some current) frame = true ∨ frame.revision.get = current.get + 1
    · rw [if_neg (by simpa [or_iff_not_imp_left] using fits)]
      simp only [fits, and_true, true_iff]
      omega
    · rw [if_pos (by simpa using fits)]
      simp [fits]

end ClientStore

end AutoHarness.Gui
