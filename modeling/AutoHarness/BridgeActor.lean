import AutoHarness.ClientDelta

namespace AutoHarness

open Client (ClientSnapshot ClientNotice RequestId ServerFrame FramePayload SnapshotReason
  TransportRevision ActiveSessionDelta MemoryProjection)

inductive GuiIpcError where
  | busy
  | disconnected
  | rendererRestartRequired
  | invalidCommand
  | invalidProjection
  | invalidCredential
deriving DecidableEq

section Values

/-- A result of the coordinator; the failure is absent where it has no safe form. -/
inductive UiNotice where
  | intentCommitted (requestId : Nat)
  | intentRejected (requestId : Nat) (failure : Option Client.SafeFailure)
  | codexLoginBrowserOpened (requestId : Nat)
  | codexLoginCompleted (requestId : Nat)

def clientRequestId (requestId : Nat) : Except GuiIpcError RequestId :=
  if h : 1 ≤ requestId ∧ requestId ≤ 18446744073709551615 then .ok ⟨requestId, h.1, h.2⟩
  else .error .invalidProjection

def noticeProjectionFailed : Client.SafeFailure :=
  ⟨.internal, "notice_projection_failed", "the command result could not be represented safely", .never⟩

def mapNotice : UiNotice → Except GuiIpcError ClientNotice
  | .intentCommitted requestId => (clientRequestId requestId).map .commandCommitted
  | .intentRejected requestId failure =>
    (clientRequestId requestId).map (.commandRejected · (failure.getD noticeProjectionFailed))
  | .codexLoginBrowserOpened requestId =>
    (clientRequestId requestId).map (.authentication · .browserOpened)
  | .codexLoginCompleted requestId => (clientRequestId requestId).map (.authentication · .completed)

/-- The request that a notice settles. -/
def terminalRequestId : ClientNotice → Option RequestId
  | .commandCommitted requestId | .commandRejected requestId _ => some requestId
  | .authentication requestId .completed | .authentication requestId .cancelled => some requestId
  | .authentication _ .browserOpened | .shutdown _ => none

structure QueuedNotice where
  notice : ClientNotice
  terminalRequestId : Option RequestId
  waitForProjection : Bool

inductive InFlightPayload where
  | snapshot
  | notice (queued : QueuedNotice)

structure InFlightFrame where
  revision : TransportRevision
  payload : InFlightPayload

inductive CommandAction where
  | intent
  | cancelAuthentication (requestId : RequestId)
  | resynchronize
  | shutdown

/-- The projections that the coordinator publishes. -/
inductive Port where
  | session
  | sessionList
  | catalog
  | profiles
  | settings
  | memories
deriving DecidableEq

/-- The parts that a snapshot is made of. -/
structure SnapshotParts where
  lifecycle : Client.ClientLifecycle
  activeSessionId : Option Client.SessionId
  sessions : List Client.SessionSummary
  activeSession : Option Client.SessionProjection
  catalog : Client.CatalogProjection
  providers : List Client.ProviderProjection
  settings : Client.ClientSettingsProjection
  providerRecoveryPending : UInt64
  memory : MemoryProjection

/-- What the bridge makes of the published projections, of a command and of a credential. -/
structure BridgeHost (σ κ γ : Type) where
  pageBytes : MemoryProjection → Nat
  parts : σ → Nat → Bool → Except GuiIpcError SnapshotParts
  mapCommand : κ → RequestId → σ → Except GuiIpcError CommandAction
  credentialTarget : ClientSnapshot → γ → Except GuiIpcError Unit
  credentialIntent : γ → Except GuiIpcError Unit

/-- What has happened at the bridge, in order. -/
inductive BridgeRecord where
  | observed
  | reflected
  | admitted (requestId : RequestId)
  | received (notice : ClientNotice)
  | sent (channel : Nat) (frame : ServerFrame)
  | acknowledged (frame : InFlightFrame)

def maxPendingRequests : Nat := 32

def maxPendingNotices : Nat := maxPendingRequests * 2 + 2

end Values

/-- The state of the bridge; each connection has a channel of its own. -/
structure BridgeActor (σ : Type) where
  source : σ
  unseen : List Port
  channel : Option Nat
  connections : Nat
  lastSnapshot : Option ClientSnapshot
  nextRequestId : Nat
  nextRevision : TransportRevision
  pendingRequests : List RequestId
  pendingNotices : List QueuedNotice
  inFlight : Option InFlightFrame
  pendingResynchronization : Option RequestId
  catalogGeneration : Nat
  projectionDirty : Bool
  shutdownRequestedNoticeSent : Bool
  shutdownReadyNoticeSent : Bool
  shutdownStarted : Bool
  shutdownReadyAcknowledged : Bool
  shutdown : Bool
  stopped : Bool
  history : List BridgeRecord

namespace BridgeActor

variable {σ κ γ : Type}

def new (source : σ) : BridgeActor σ where
  source := source
  unseen := []
  channel := none
  connections := 0
  lastSnapshot := none
  nextRequestId := 1
  nextRevision := .initial
  pendingRequests := []
  pendingNotices := []
  inFlight := none
  pendingResynchronization := none
  catalogGeneration := 1
  projectionDirty := true
  shutdownRequestedNoticeSent := false
  shutdownReadyNoticeSent := false
  shutdownStarted := false
  shutdownReadyAcknowledged := false
  shutdown := false
  stopped := false
  history := []

def record (b : BridgeActor σ) (entry : BridgeRecord) : BridgeActor σ :=
  { b with history := b.history ++ [entry] }

section Outbound

variable (host : BridgeHost σ κ γ)

/-- `map_snapshot` and the memory page, checked as every snapshot is. -/
def takeSnapshot (source : σ) (catalogGeneration : Nat) (shuttingDown : Bool) :
    Except GuiIpcError ClientSnapshot := do
  let parts ← host.parts source catalogGeneration shuttingDown
  let snapshot ← (ClientSnapshot.new parts.lifecycle parts.activeSessionId parts.sessions
    parts.activeSession parts.catalog parts.providers parts.settings
    parts.providerRecoveryPending).mapError fun _ => .invalidProjection
  (snapshot.withMemory host.pageBytes parts.memory).mapError fun _ => .invalidProjection

def snapshot (b : BridgeActor σ) : Except GuiIpcError ClientSnapshot :=
  takeSnapshot host b.source b.catalogGeneration b.shutdown

/-- One send of a frame, which takes a revision first. The channel may refuse the frame. -/
def send (delivers : Bool) (payload : FramePayload) (mark : InFlightPayload) (b : BridgeActor σ) :
    Except GuiIpcError Unit × BridgeActor σ :=
  match b.nextRevision.next with
  | .error _ => (.error .disconnected, b)
  | .ok following =>
    let revision := b.nextRevision
    let b := { b with nextRevision := following }
    if b.inFlight.isSome then (.error .busy, b)
    else
      match b.channel with
      | none => (.error .disconnected, b)
      | some channel =>
        if delivers then
          (.ok (), { b with inFlight := some ⟨revision, mark⟩ }.record (.sent channel ⟨revision, payload⟩))
        else (.error .disconnected, { b with channel := none })

def sendSnapshot (delivers : Bool) (reason : SnapshotReason) (snapshot : ClientSnapshot) :
    BridgeActor σ → Except GuiIpcError Unit × BridgeActor σ :=
  send delivers (.snapshot reason snapshot) .snapshot

def sendNotice (delivers : Bool) (queued : QueuedNotice) :
    BridgeActor σ → Except GuiIpcError Unit × BridgeActor σ :=
  send delivers (.notice queued.notice) (.notice queued)

def sendActiveSessionDelta (delivers : Bool) (delta : ActiveSessionDelta) :
    BridgeActor σ → Except GuiIpcError Unit × BridgeActor σ :=
  send delivers (.activeSessionDelta delta) .snapshot

/-- The client is up to date with a snapshot. -/
def reflect (b : BridgeActor σ) (snapshot : ClientSnapshot) : BridgeActor σ :=
  { b with lastSnapshot := some snapshot, projectionDirty := false }.record .reflected

/-- The frame that brings a client from the last snapshot to the next one. -/
def sendProjection (delivers : Bool) (snapshot : ClientSnapshot) (b : BridgeActor σ) :
    Except GuiIpcError Unit × BridgeActor σ :=
  match b.lastSnapshot.bind fun previous => ActiveSessionDelta.between previous snapshot with
  | some delta => sendActiveSessionDelta delivers delta b
  | none => sendSnapshot delivers .projection snapshot b

def publishProjection (delivers : Bool) (b : BridgeActor σ) : BridgeActor σ :=
  if b.inFlight.isSome || b.channel.isNone then b
  else
    match b.snapshot host with
    | .error _ => b
    | .ok snapshot =>
      if b.lastSnapshot = some snapshot then b.reflect snapshot
      else
        match sendProjection delivers snapshot b with
        | (.ok (), b) => b.reflect snapshot
        | (.error _, b) => b

/-- The queued authentication notice of the same request. -/
def sameAuthentication (notice : ClientNotice) (queued : QueuedNotice) : Bool :=
  match notice, queued.notice with
  | .authentication requestId _, .authentication other _ => requestId = other
  | _, _ => false

/-- The notice takes the place of the first queued one of its authentication. -/
def replaceNotice (notice : ClientNotice) : List QueuedNotice → Option (List QueuedNotice)
  | [] => none
  | queued :: rest =>
    if sameAuthentication notice queued then some ({ queued with notice := notice } :: rest)
    else (replaceNotice notice rest).map (queued :: ·)

def isShutdownNotice : ClientNotice → Bool
  | .shutdown _ => true
  | _ => false

def queueNotice (notice : ClientNotice) (terminal : Option RequestId) (b : BridgeActor σ) :
    Except GuiIpcError Unit × BridgeActor σ :=
  match replaceNotice notice b.pendingNotices with
  | some replaced => (.ok (), { b with pendingNotices := replaced }.record (.received notice))
  | none =>
    if b.pendingNotices.length ≥ maxPendingNotices then (.error .busy, b)
    else
      let wait := b.projectionDirty && (terminal.isSome || isShutdownNotice notice)
      let queued : QueuedNotice := ⟨notice, terminal, wait⟩
      (.ok (), { b with pendingNotices := b.pendingNotices ++ [queued] }.record (.received notice))

def frontWaits (b : BridgeActor σ) : Bool :=
  b.pendingNotices.head?.any (·.waitForProjection)

def releaseFront (b : BridgeActor σ) : BridgeActor σ :=
  match b.pendingNotices with
  | [] => b
  | queued :: rest => { b with pendingNotices := { queued with waitForProjection := false } :: rest }

/-- A notice that waits is held back until the projection has been published. -/
def holdBack (delivers : Bool) (b : BridgeActor σ) : Bool × BridgeActor σ :=
  if b.frontWaits then
    if b.projectionDirty then
      let b := b.publishProjection host delivers
      let b := if b.projectionDirty then b else b.releaseFront
      (b.inFlight.isSome || b.projectionDirty, b)
    else (false, b.releaseFront)
  else (false, b)

def sendFront (delivers : Bool) (b : BridgeActor σ) : Except GuiIpcError Unit × BridgeActor σ :=
  match b.pendingNotices with
  | [] => (.ok (), if b.projectionDirty then b.publishProjection host delivers else b)
  | queued :: rest =>
    match sendNotice delivers queued { b with pendingNotices := rest } with
    | (.ok (), b) => (.ok (), b)
    | (.error error, b) => (.error error, { b with pendingNotices := queued :: b.pendingNotices })

def resynchronize (delivers : Bool) (requestId : RequestId) (b : BridgeActor σ) :
    Except GuiIpcError Unit × BridgeActor σ :=
  match b.snapshot host with
  | .error error => (.error error, b)
  | .ok snapshot =>
    match sendSnapshot delivers .resynchronization snapshot b with
    | (.error error, b) => (.error error, b)
    | (.ok (), b) =>
      queueNotice (.commandCommitted requestId) (some requestId)
        { b.reflect snapshot with pendingResynchronization := none }

def pumpOutbound (delivers : Bool) (b : BridgeActor σ) : Except GuiIpcError Unit × BridgeActor σ :=
  if b.inFlight.isSome || b.channel.isNone then (.ok (), b)
  else
    match b.pendingResynchronization with
    | some requestId => b.resynchronize host delivers requestId
    | none =>
      match b.holdBack host delivers with
      | (true, b) => (.ok (), b)
      | (false, b) => b.sendFront host delivers

end Outbound

section Requests

variable (host : BridgeHost σ κ γ)

/-- A refused connection leaves the bridge without a channel. -/
def connect (delivers : Bool) (b : BridgeActor σ) : Except GuiIpcError Unit × BridgeActor σ :=
  if b.inFlight.isSome then (.error .rendererRestartRequired, b)
  else
    let b := { b with channel := some b.connections, connections := b.connections + 1 }
    match b.snapshot host with
    | .error error => (.error error, { b with channel := none, inFlight := none })
    | .ok snapshot =>
      match sendSnapshot delivers .initial snapshot b with
      | (.error error, b) => (.error error, { b with channel := none, inFlight := none })
      | (.ok (), b) => (.ok (), b.reflect snapshot)

/-- Changes of the projections that have not been seen yet. -/
def observePendingProjections (b : BridgeActor σ) : BridgeActor σ :=
  if b.unseen = [] then b
  else
    { b with
      unseen := []
      catalogGeneration := if Port.catalog ∈ b.unseen then min (b.catalogGeneration + 1) 18446744073709551615
        else b.catalogGeneration
      projectionDirty := true }.record .observed

/-- One fallible operation after another. -/
def andThen (first : Except GuiIpcError Unit × BridgeActor σ)
    (next : BridgeActor σ → Except GuiIpcError Unit × BridgeActor σ) :
    Except GuiIpcError Unit × BridgeActor σ :=
  match first with
  | (.error error, b) => (.error error, b)
  | (.ok (), b) => next b

def terminalNoticeOutstanding (requestId : RequestId) (b : BridgeActor σ) : Bool :=
  b.pendingNotices.any (·.terminalRequestId = some requestId) ||
    match b.inFlight with
    | some ⟨_, .notice queued⟩ => queued.terminalRequestId = some requestId
    | _ => false

/-- The notice settles a request that waits for it, or tells of one. -/
def awaitsNotice (notice : ClientNotice) (b : BridgeActor σ) : Bool :=
  match terminalRequestId notice with
  | some requestId => requestId ∈ b.pendingRequests && !b.terminalNoticeOutstanding requestId
  | none => notice.requestId.all (· ∈ b.pendingRequests)

/-- An error is a full queue, which ends the worker. -/
def handleNotice (delivers : Bool) (notice : UiNotice) (b : BridgeActor σ) :
    Except GuiIpcError Unit × BridgeActor σ :=
  match mapNotice notice with
  | .error _ => (.ok (), b)
  | .ok notice =>
    if b.awaitsNotice notice then
      andThen (queueNotice notice (terminalRequestId notice) b.observePendingProjections) fun b =>
        (.ok (), (b.pumpOutbound host delivers).2)
    else (.ok (), b)

def drainAvailableNotices (delivers : Bool) : List UiNotice → BridgeActor σ →
    Except GuiIpcError Unit × BridgeActor σ
  | [], b => (.ok (), b)
  | notice :: rest, b =>
    andThen (b.handleNotice host delivers notice) (drainAvailableNotices delivers rest)

def queueShutdownNotice (state : Client.ShutdownState) (b : BridgeActor σ) :
    Except GuiIpcError Unit × BridgeActor σ :=
  let alreadySent := match state with
    | .requested => b.shutdownRequestedNoticeSent
    | .ready => b.shutdownReadyNoticeSent
  if alreadySent then (.ok (), b)
  else
    match queueNotice (.shutdown state) none b with
    | (.error error, b) => (.error error, b)
    | (.ok (), b) =>
      match state with
      | .requested => (.ok (), { b with shutdownRequestedNoticeSent := true })
      | .ready => (.ok (), { b with shutdownReadyNoticeSent := true })

def admitShutdown (command : Option RequestId) (b : BridgeActor σ) :
    Except GuiIpcError Unit × BridgeActor σ :=
  match command with
  | none => (.ok (), b)
  | some requestId => queueNotice (.commandCommitted requestId) (some requestId)
      { b with pendingRequests := requestId :: b.pendingRequests }

def beginShutdown (delivers : Bool) (command : Option RequestId) (b : BridgeActor σ) :
    Except GuiIpcError Unit × BridgeActor σ :=
  if b.shutdownStarted then (.ok (), b)
  else
    let b := { b with
      shutdown := true
      shutdownStarted := true
      projectionDirty := true
      pendingResynchronization := none }.record .observed
    andThen (andThen (andThen (b.admitShutdown command) (queueShutdownNotice .requested))
      (queueShutdownNotice .ready)) (pumpOutbound host delivers)

/-- The frame in flight has arrived. -/
def settle (frame : InFlightFrame) (b : BridgeActor σ) : BridgeActor σ :=
  let b := { b with inFlight := none }.record (.acknowledged frame)
  match frame.payload with
  | .snapshot => b
  | .notice queued => { b with
      pendingRequests := match queued.terminalRequestId with
        | some requestId => b.pendingRequests.filter (· ≠ requestId)
        | none => b.pendingRequests
      shutdownReadyAcknowledged := b.shutdownReadyAcknowledged ||
        decide (queued.notice = ClientNotice.shutdown .ready) }

def acknowledgeFrame (delivers : Bool) (revision : TransportRevision) (b : BridgeActor σ) :
    Except GuiIpcError Unit × BridgeActor σ :=
  match b.inFlight with
  | none => (.error .invalidCommand, b)
  | some frame =>
    if frame.revision ≠ revision then (.error .invalidCommand, b)
    else (b.settle frame).pumpOutbound host delivers

/-- The answer of a queue that the bridge does not wait for. -/
inductive TrySend where
  | ok
  | full
  | closed

def sendIntent : TrySend → Except GuiIpcError Unit
  | .ok => .ok ()
  | .full => .error .busy
  | .closed => .error .disconnected

def admitIntent (accepts : TrySend) (requestId : RequestId) (b : BridgeActor σ) :
    Except GuiIpcError Unit × BridgeActor σ :=
  if b.pendingRequests.length ≥ maxPendingRequests then (.error .busy, b)
  else
    match sendIntent accepts with
    | .error error => (.error error, b)
    | .ok () => (.ok (), { b with pendingRequests := requestId :: b.pendingRequests }.record
        (.admitted requestId))

def issueRequestId (b : BridgeActor σ) : Except GuiIpcError (RequestId × BridgeActor σ) :=
  if h : 1 ≤ b.nextRequestId ∧ b.nextRequestId + 1 ≤ 18446744073709551615 then
    .ok (⟨b.nextRequestId, h.1, by omega⟩, { b with nextRequestId := b.nextRequestId + 1 })
  else .error .disconnected

def cancelAuthentication (accepts : TrySend) (requestId : RequestId) (b : BridgeActor σ) :
    Except GuiIpcError RequestId × BridgeActor σ :=
  if requestId ∉ b.pendingRequests then (.error .invalidCommand, b)
  else ((sendIntent accepts).map fun _ => requestId, b)

/-- A resynchronization that cannot be sent at once is withdrawn. -/
def dispatchResynchronize (delivers : Bool) (requestId : RequestId) (b : BridgeActor σ) :
    Except GuiIpcError RequestId × BridgeActor σ :=
  if b.pendingResynchronization.isSome || b.pendingRequests.length ≥ maxPendingRequests then
    (.error .busy, b)
  else
    match { b with
        pendingRequests := requestId :: b.pendingRequests
        pendingResynchronization := some requestId }.pumpOutbound host delivers with
    | (.ok (), b) => (.ok requestId, b.record (.admitted requestId))
    | (.error error, b) => (.error error, { b with
        pendingResynchronization := none
        pendingRequests := b.pendingRequests.filter (· ≠ requestId) })

def dispatchShutdown (delivers : Bool) (waiting : List UiNotice) (requestId : RequestId)
    (b : BridgeActor σ) : Except GuiIpcError RequestId × BridgeActor σ :=
  if b.pendingRequests.length ≥ maxPendingRequests then (.error .busy, b)
  else
    match b.drainAvailableNotices host delivers waiting with
    | (.error _, b) => (.error .disconnected, b)
    | (.ok (), b) =>
      match b.beginShutdown host delivers (some requestId) with
      | (.ok (), b) => (.ok requestId, b.record (.admitted requestId))
      | (.error error, b) => (.error error, b)

def perform (delivers : Bool) (accepts : TrySend) (waiting : List UiNotice) (requestId : RequestId)
    (b : BridgeActor σ) : CommandAction → Except GuiIpcError RequestId × BridgeActor σ
  | .intent =>
    let (result, b) := b.admitIntent accepts requestId
    (result.map fun _ => requestId, b)
  | .cancelAuthentication authentication => b.cancelAuthentication accepts authentication
  | .resynchronize => b.dispatchResynchronize host delivers requestId
  | .shutdown => b.dispatchShutdown host delivers waiting requestId

def dispatch (delivers : Bool) (accepts : TrySend) (waiting : List UiNotice) (command : κ)
    (b : BridgeActor σ) : Except GuiIpcError RequestId × BridgeActor σ :=
  if b.channel.isNone then (.error .disconnected, b)
  else if b.shutdownStarted then (.error .invalidCommand, b)
  else
    match b.issueRequestId with
    | .error error => (.error error, b)
    | .ok (requestId, b) =>
      match host.mapCommand command requestId b.source with
      | .error error => (.error error, b)
      | .ok action => b.perform host delivers accepts waiting requestId action

def dispatchCredential (accepts : TrySend) (ingress : γ) (b : BridgeActor σ) :
    Except GuiIpcError RequestId × BridgeActor σ :=
  if b.channel.isNone then (.error .disconnected, b)
  else if b.shutdownStarted then (.error .invalidCommand, b)
  else
    match b.snapshot host >>= fun snapshot => host.credentialTarget snapshot ingress with
    | .error error => (.error error, b)
    | .ok () =>
      match b.issueRequestId with
      | .error error => (.error error, b)
      | .ok (requestId, b) =>
        match host.credentialIntent ingress with
        | .error error => (.error error, b)
        | .ok () =>
          let (result, b) := b.admitIntent accepts requestId
          (result.map fun _ => requestId, b)

end Requests

section Run

variable (host : BridgeHost σ κ γ)

/-- What the loop of the bridge selects. A send on the channel succeeds or fails as `delivers` says;
`waiting` are the notices that stand in the queue of the coordinator. -/
inductive Event (σ κ γ : Type) where
  | acknowledge (revision : TransportRevision) (delivers : Bool)
  | cancelShutdown
  | shutdown (waiting : List UiNotice) (delivers : Bool)
  | connect (delivers : Bool)
  | dispatch (command : κ) (accepts : TrySend) (waiting : List UiNotice) (delivers : Bool)
  | credential (ingress : γ) (accepts : TrySend)
  | notice (notice : UiNotice) (delivers : Bool)
  | change (port : Port) (source : σ)
  | observe (port : Port)
  | tick (delivers : Bool)

def observe (port : Port) (b : BridgeActor σ) : BridgeActor σ :=
  if port ∈ b.unseen then
    { b with
      unseen := b.unseen.filter (· ≠ port)
      catalogGeneration := if port = Port.catalog then min (b.catalogGeneration + 1) 18446744073709551615
        else b.catalogGeneration
      projectionDirty := true }.record .observed
  else b

/-- An error ends the worker. -/
def orStop (result : Except GuiIpcError Unit × BridgeActor σ) : BridgeActor σ :=
  match result with
  | (.ok (), b) => b
  | (.error _, b) => { b with stopped := true }

def handleShutdown (delivers : Bool) (waiting : List UiNotice) (b : BridgeActor σ) : BridgeActor σ :=
  orStop (andThen (drainAvailableNotices host delivers waiting b) (beginShutdown host delivers none))

def step (b : BridgeActor σ) (event : Event σ κ γ) : BridgeActor σ :=
  if b.stopped || b.shutdownReadyAcknowledged then b
  else
    match event with
    | .acknowledge revision delivers => (b.acknowledgeFrame host delivers revision).2
    | .cancelShutdown => { b with shutdown := true }
    | .shutdown waiting delivers =>
      if b.shutdown && !b.shutdownStarted then b.handleShutdown host delivers waiting else b
    | .connect delivers => (b.connect host delivers).2
    | .dispatch command accepts waiting delivers =>
      (b.dispatch host delivers accepts waiting command).2
    | .credential ingress accepts => (b.dispatchCredential host accepts ingress).2
    | .notice notice delivers =>
      if b.shutdownStarted then b else orStop (b.handleNotice host delivers notice)
    | .change port source => { b with source := source, unseen := port :: b.unseen }
    | .observe port => if b.shutdownStarted then b else b.observe port
    | .tick delivers => (b.pumpOutbound host delivers).2

end Run

end BridgeActor

end AutoHarness
