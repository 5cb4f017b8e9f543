import AutoHarness.BridgeActor
import Mathlib.Logic.Relation

namespace AutoHarness.BridgeActor

open Client (ClientSnapshot ClientNotice RequestId ServerFrame FramePayload SnapshotReason
  TransportRevision ActiveSessionDelta)
open Relation (ReflTransGen)

variable {σ κ γ : Type}

section Moves

/-- The payloads that bring a client from the last snapshot to the given one. -/
inductive Carries (last : Option ClientSnapshot) (snapshot : ClientSnapshot) : FramePayload → Prop
  | delta {previous delta} (known : last = some previous)
      (found : ActiveSessionDelta.between previous snapshot = some delta) :
      Carries last snapshot (.activeSessionDelta delta)
  | whole {reason} (later : reason ≠ .initial) : Carries last snapshot (.snapshot reason snapshot)

/-- A frame has gone out. -/
def deliver (channel : Nat) (following : TransportRevision) (payload : FramePayload)
    (mark : InFlightPayload) (b : BridgeActor σ) : BridgeActor σ :=
  { b with nextRevision := following, inFlight := some ⟨b.nextRevision, mark⟩ }.record
    (.sent channel ⟨b.nextRevision, payload⟩)

/-- A frame was refused, and its revision is used up. -/
def lose (following : TransportRevision) (b : BridgeActor σ) : BridgeActor σ :=
  { b with nextRevision := following, channel := none }

def enqueue (notice : ClientNotice) (terminal : Option RequestId) (b : BridgeActor σ) :
    BridgeActor σ :=
  let wait := b.projectionDirty && (terminal.isSome || isShutdownNotice notice)
  let queued : QueuedNotice := ⟨notice, terminal, wait⟩
  { b with pendingNotices := b.pendingNotices ++ [queued] }.record (.received notice)

/-- Nothing changes that a client or a request depends on. -/
structure Quiet (b c : BridgeActor σ) : Prop where
  source : c.source = b.source
  channel : c.channel = b.channel
  connections : c.connections = b.connections
  lastSnapshot : c.lastSnapshot = b.lastSnapshot
  nextRequestId : c.nextRequestId = b.nextRequestId
  nextRevision : c.nextRevision = b.nextRevision
  pendingRequests : c.pendingRequests = b.pendingRequests
  pendingNotices : c.pendingNotices = b.pendingNotices
  inFlight : c.inFlight = b.inFlight
  resynchronization : c.pendingResynchronization = b.pendingResynchronization ∨
    c.pendingResynchronization = none
  projectionDirty : c.projectionDirty = b.projectionDirty
  shutdownStarted : c.shutdownStarted = b.shutdownStarted
  history : c.history = b.history

/-- A notice that settles a request comes for one that waits for it. -/
def Owed (b : BridgeActor σ) (notice : ClientNotice) : Prop :=
  ∀ requestId, terminalRequestId notice = some requestId →
    requestId ∈ b.pendingRequests ∧ b.terminalNoticeOutstanding requestId = false

/-- A notice replaces a queued one only if neither settles the request, and it does not settle the
request of a resynchronization, which the bridge answers itself. -/
def Plain (b : BridgeActor σ) (notice : ClientNotice) : Prop :=
  (∀ queued ∈ b.pendingNotices, sameAuthentication notice queued = true →
    terminalRequestId queued.notice = none ∧ terminalRequestId notice = none) ∧
  ∀ requestId, terminalRequestId notice = some requestId →
    b.pendingResynchronization ≠ some requestId

variable (host : BridgeHost σ κ γ) (strict : Prop)

/-- The single changes that the operations of the bridge are made of; under `strict`, the notices of
the coordinator are plain. -/
inductive Move : BridgeActor σ → BridgeActor σ → Prop
  | quiet {b c} (h : Quiet b c) : Move b c
  | observe {b} : Move b ({ b with projectionDirty := true }.record .observed)
  | clean {b snapshot} (last : b.lastSnapshot = some snapshot) : Move b (b.reflect snapshot)
  | lost {b following} (idle : b.inFlight = none) (next : b.nextRevision.next = .ok following) :
      Move b (b.lose following)
  | publish {b snapshot payload channel following} (idle : b.inFlight = none)
      (opened : b.channel = some channel) (next : b.nextRevision.next = .ok following)
      (taken : b.snapshot host = .ok snapshot) (carries : Carries b.lastSnapshot snapshot payload) :
      Move b ((b.deliver channel following payload .snapshot).reflect snapshot)
  | notice {b queued rest channel following} (idle : b.inFlight = none)
      (opened : b.channel = some channel) (next : b.nextRevision.next = .ok following)
      (front : b.pendingNotices = queued :: rest) (free : queued.waitForProjection = false) :
      Move b ({ b with pendingNotices := rest }.deliver channel following (.notice queued.notice)
        (.notice queued))
  | release {b queued rest} (front : b.pendingNotices = queued :: rest)
      (clean : b.projectionDirty = false) :
      Move b { b with pendingNotices := { queued with waitForProjection := false } :: rest }
  | enqueue {b notice} (owed : b.Owed notice) (plain : strict → b.Plain notice) :
      Move b (b.enqueue notice (terminalRequestId notice))
  | replace {b notice replaced} (owed : b.Owed notice) (plain : strict → b.Plain notice)
      (found : replaceNotice notice b.pendingNotices = some replaced) :
      Move b ({ b with pendingNotices := replaced }.record (.received notice))
  | commit {b requestId} (asked : b.pendingResynchronization = some requestId) :
      Move b { b.enqueue (.commandCommitted requestId) (some requestId) with
        pendingResynchronization := none }

abbrev Moves : BridgeActor σ → BridgeActor σ → Prop := ReflTransGen (Move host strict)

end Moves

section Outbound

variable {host : BridgeHost σ κ γ} {strict : Prop} {b : BridgeActor σ}
  {delivers : Bool}

theorem Quiet.moves {c : BridgeActor σ} (h : Quiet b c) : Moves host strict b c :=
  .single (.quiet h)

/-- What a send does while no frame is in flight. -/
theorem send_cases (idle : b.inFlight = none) (delivers : Bool) (payload : FramePayload)
    (mark : InFlightPayload) :
    (∃ error, send delivers payload mark b = (.error error, b)) ∨
      (∃ error following, b.nextRevision.next = .ok following ∧
        send delivers payload mark b = (.error error, b.lose following)) ∨
      ∃ channel following, b.channel = some channel ∧ b.nextRevision.next = .ok following ∧
        send delivers payload mark b = (.ok (), b.deliver channel following payload mark) := by
  unfold send
  cases next : b.nextRevision.next with
  | error failure => exact .inl ⟨_, rfl⟩
  | ok following =>
    have free : ¬ b.inFlight.isSome = true := by simp [idle]
    simp only [free, if_false, Bool.false_eq_true]
    split
    next closed =>
      have same : { b with nextRevision := following } = b.lose following := by simp [lose, closed]
      exact .inr (.inl ⟨.disconnected, following, rfl, by rw [same]⟩)
    next channel opened =>
      cases delivers with
      | false => exact .inr (.inl ⟨.disconnected, following, rfl, rfl⟩)
      | true => exact .inr (.inr ⟨channel, following, opened, rfl, rfl⟩)

theorem sendProjection_cases (idle : b.inFlight = none) (delivers : Bool) (snapshot : ClientSnapshot) :
    (∃ error, sendProjection delivers snapshot b = (.error error, b)) ∨
      (∃ error following, b.nextRevision.next = .ok following ∧
        sendProjection delivers snapshot b = (.error error, b.lose following)) ∨
      ∃ channel following payload, b.channel = some channel ∧ b.nextRevision.next = .ok following ∧
        Carries b.lastSnapshot snapshot payload ∧
        sendProjection delivers snapshot b =
          (.ok (), b.deliver channel following payload .snapshot) := by
  unfold sendProjection
  split
  next delta found =>
    obtain ⟨previous, known, found⟩ := Option.bind_eq_some_iff.mp found
    rcases send_cases idle delivers (.activeSessionDelta delta) .snapshot with
      failed | lost | ⟨channel, following, opened, next, made⟩
    · exact .inl failed
    · exact .inr (.inl lost)
    · exact .inr (.inr ⟨channel, following, _, opened, next, .delta known found, made⟩)
  next =>
    rcases send_cases idle delivers (.snapshot .projection snapshot) .snapshot with
      failed | lost | ⟨channel, following, opened, next, made⟩
    · exact .inl failed
    · exact .inr (.inl lost)
    · exact .inr (.inr ⟨channel, following, _, opened, next, .whole (by decide), made⟩)

/-- What a publication does, and what it says when nothing is left to publish. -/
theorem publishProjection_cases (b : BridgeActor σ) (delivers : Bool) :
    b.publishProjection host delivers = b ∨
      (∃ snapshot, b.lastSnapshot = some snapshot ∧
        b.publishProjection host delivers = b.reflect snapshot) ∨
      (∃ following, b.inFlight = none ∧ b.nextRevision.next = .ok following ∧
        b.publishProjection host delivers = b.lose following) ∨
      ∃ snapshot payload channel following, b.inFlight = none ∧ b.channel = some channel ∧
        b.nextRevision.next = .ok following ∧ b.snapshot host = .ok snapshot ∧
        Carries b.lastSnapshot snapshot payload ∧
        b.publishProjection host delivers =
          (b.deliver channel following payload .snapshot).reflect snapshot := by
  unfold publishProjection
  split
  next => exact .inl rfl
  next free =>
    have idle : b.inFlight = none := by
      simp only [Bool.or_eq_true, not_or, Bool.not_eq_true, Option.isSome_eq_false_iff,
        Option.isNone_iff_eq_none] at free
      exact free.1
    cases taken : b.snapshot host with
    | error error => exact .inl rfl
    | ok snapshot =>
      dsimp only
      split
      next same => exact .inr (.inl ⟨snapshot, same, rfl⟩)
      next =>
        rcases sendProjection_cases idle delivers snapshot with
          ⟨error, made⟩ | ⟨error, following, next, made⟩ |
          ⟨channel, following, payload, opened, next, carries, made⟩
        · rw [made]
          exact .inl rfl
        · rw [made]
          exact .inr (.inr (.inl ⟨following, idle, next, rfl⟩))
        · rw [made]
          exact .inr (.inr (.inr ⟨snapshot, payload, channel, following, idle, opened, next, rfl, carries,
            rfl⟩))

theorem publishProjection_moves (b : BridgeActor σ) (delivers : Bool) :
    Moves host strict b (b.publishProjection host delivers) := by
  rcases @publishProjection_cases _ _ _ host b delivers with
    same | ⟨snapshot, last, made⟩ | ⟨following, idle, next, made⟩ |
    ⟨snapshot, payload, channel, following, idle, opened, next, taken, carries, made⟩
  · rw [same]
  · rw [made]
    exact .single (.clean last)
  · rw [made]
    exact .single (.lost idle next)
  · rw [made]
    exact .single (.publish idle opened next taken carries)

theorem releaseFront_moves (clean : b.projectionDirty = false) :
    Moves host strict b b.releaseFront := by
  unfold releaseFront
  split
  next => exact .refl
  next queued rest front => exact .single (.release front clean)

theorem releaseFront_free {queued : QueuedNotice} {rest : List QueuedNotice}
    (front : b.releaseFront.pendingNotices = queued :: rest) : queued.waitForProjection = false := by
  unfold releaseFront at front
  split at front
  next empty =>
    rw [empty] at front
    cases front
  next =>
    cases front
    rfl

theorem releaseFront_inFlight : b.releaseFront.inFlight = b.inFlight := by
  unfold releaseFront
  split <;> rfl

theorem holdBack_moves (b : BridgeActor σ) (delivers : Bool) :
    Moves host strict b (b.holdBack host delivers).2 := by
  unfold holdBack
  split
  next =>
    split
    next =>
      dsimp only
      split
      next => exact publishProjection_moves b delivers
      next clean =>
        exact (publishProjection_moves b delivers).trans (releaseFront_moves (by simpa using clean))
    next clean => exact releaseFront_moves (by simpa using clean)
  next => exact .refl

/-- A notice that is not held back goes out from an idle bridge and waits for nothing. -/
theorem holdBack_free {c : BridgeActor σ} (idle : b.inFlight = none)
    (h : b.holdBack host delivers = (false, c)) :
    c.inFlight = none ∧
      ∀ queued rest, c.pendingNotices = queued :: rest → queued.waitForProjection = false := by
  unfold holdBack at h
  split at h
  next =>
    split at h
    next =>
      obtain ⟨passed, made⟩ := Prod.mk.inj h
      simp only [Bool.or_eq_false_iff, Option.isSome_eq_false_iff, Option.isNone_iff_eq_none] at passed
      obtain ⟨still, clean⟩ := passed
      subst made
      split at clean
      next dirty =>
        rw [dirty] at clean
        cases clean
      next settled =>
        rw [if_neg settled] at still ⊢
        exact ⟨still, fun queued rest front => releaseFront_free front⟩
    next =>
      cases h
      exact ⟨releaseFront_inFlight.trans idle, fun queued rest front => releaseFront_free front⟩
  next waits =>
    cases h
    refine ⟨idle, fun queued rest front => ?_⟩
    rw [frontWaits, front] at waits
    simpa using waits

theorem sendFront_moves (idle : b.inFlight = none)
    (free : ∀ queued rest, b.pendingNotices = queued :: rest → queued.waitForProjection = false) :
    Moves host strict b (b.sendFront host delivers).2 := by
  unfold sendFront
  split
  next =>
    split
    next => exact publishProjection_moves b delivers
    next => exact .refl
  next queued rest front =>
    have kept : { b with pendingNotices := queued :: rest } = b := by rw [← front]
    have idle' : ({ b with pendingNotices := rest } : BridgeActor σ).inFlight = none := idle
    unfold sendNotice
    rcases send_cases idle' delivers (.notice queued.notice) (.notice queued) with
      ⟨error, made⟩ | ⟨error, following, next, made⟩ | ⟨channel, following, opened, next, made⟩
    · rw [made]
      dsimp only
      rw [kept]
    · rw [made]
      have restored : ({ ({ b with pendingNotices := rest } : BridgeActor σ).lose following with
          pendingNotices := queued :: rest } : BridgeActor σ) = b.lose following := by
        simp [lose, front]
      dsimp only [lose] at restored ⊢
      rw [restored]
      exact .single (.lost idle next)
    · rw [made]
      exact .single (.notice idle opened next front (free queued rest front))

theorem replaceNotice_committed (requestId : RequestId) (queue : List QueuedNotice) :
    replaceNotice (.commandCommitted requestId) queue = none := by
  induction queue with
  | nil => rfl
  | cons queued rest ih =>
    have other : sameAuthentication (.commandCommitted requestId) queued = false := by
      simp [sameAuthentication]
    rw [replaceNotice, if_neg (by simp [other]), ih]
    rfl

theorem queueNotice_cases (notice : ClientNotice) (terminal : Option RequestId) (b : BridgeActor σ) :
    (∃ replaced, replaceNotice notice b.pendingNotices = some replaced ∧
      queueNotice notice terminal b =
        (.ok (), { b with pendingNotices := replaced }.record (.received notice))) ∨
      queueNotice notice terminal b = (.error .busy, b) ∨
      queueNotice notice terminal b = (.ok (), b.enqueue notice terminal) := by
  unfold queueNotice
  split
  next replaced found => exact .inl ⟨replaced, found, rfl⟩
  next =>
    split
    next => exact .inr (.inl rfl)
    next => exact .inr (.inr rfl)

theorem queueNotice_moves {notice : ClientNotice} (owed : b.Owed notice)
    (plain : strict → b.Plain notice) :
    Moves host strict b (queueNotice notice (terminalRequestId notice) b).2 := by
  rcases queueNotice_cases notice (terminalRequestId notice) b with
    ⟨replaced, found, made⟩ | made | made
  · rw [made]
    exact .single (.replace owed plain found)
  · rw [made]
  · rw [made]
    exact .single (.enqueue owed plain)

/-- The request of a resynchronization is answered once its snapshot has gone out. -/
theorem commit_moves {requestId : RequestId} (asked : b.pendingResynchronization = some requestId) :
    Moves host strict b (queueNotice (.commandCommitted requestId) (some requestId)
      { b with pendingResynchronization := none }).2 := by
  rcases queueNotice_cases (.commandCommitted requestId) (some requestId)
      { b with pendingResynchronization := none } with ⟨replaced, found, -⟩ | made | made
  · rw [replaceNotice_committed] at found
    cases found
  · rw [made]
    exact Quiet.moves ⟨rfl, rfl, rfl, rfl, rfl, rfl, rfl, rfl, rfl, .inr rfl, rfl, rfl, rfl⟩
  · rw [made]
    exact .single (.commit asked)

theorem resynchronize_moves {requestId : RequestId} (idle : b.inFlight = none)
    (asked : b.pendingResynchronization = some requestId) :
    Moves host strict b (b.resynchronize host delivers requestId).2 := by
  unfold resynchronize
  split
  next => exact .refl
  next snapshot taken =>
    unfold sendSnapshot
    rcases send_cases idle delivers (.snapshot .resynchronization snapshot) .snapshot with
      ⟨error, made⟩ | ⟨error, following, next, made⟩ | ⟨channel, following, opened, next, made⟩
    · rw [made]
    · rw [made]
      exact .single (.lost idle next)
    · rw [made]
      have later : SnapshotReason.resynchronization ≠ .initial := by decide
      have published : Move host strict b _ := .publish idle opened next taken (.whole later)
      exact (ReflTransGen.single published).trans (commit_moves asked)

theorem pumpOutbound_moves (b : BridgeActor σ) (delivers : Bool) :
    Moves host strict b (b.pumpOutbound host delivers).2 := by
  unfold pumpOutbound
  split
  next => exact .refl
  next free =>
    have idle : b.inFlight = none := by
      simp only [Bool.or_eq_true, not_or, Bool.not_eq_true, Option.isSome_eq_false_iff,
        Option.isNone_iff_eq_none] at free
      exact free.1
    split
    next requestId asked => exact resynchronize_moves idle asked
    next =>
      have held := @holdBack_moves _ _ _ host strict b delivers
      split
      next c h =>
        rw [h] at held
        exact held
      next c h =>
        rw [h] at held
        obtain ⟨still, free⟩ := holdBack_free idle h
        exact held.trans (sendFront_moves still free)

end Outbound

section Notices

variable {host : BridgeHost σ κ γ} {strict : Prop} {b : BridgeActor σ}
  {delivers : Bool}

/-- A notice that is going to be queued is plain. -/
def Permits (notice : UiNotice) (b : BridgeActor σ) : Prop :=
  ∀ mapped, mapNotice notice = .ok mapped → b.awaitsNotice mapped = true → b.Plain mapped

def PermitsAll (host : BridgeHost σ κ γ) (delivers : Bool) : List UiNotice → BridgeActor σ → Prop
  | [], _ => True
  | notice :: rest, b =>
    b.Permits notice ∧ PermitsAll host delivers rest (b.handleNotice host delivers notice).2

theorem observed_moves (b : BridgeActor σ) (unseen : List Port) (generation : Nat) :
    Moves host strict b ({ b with
      unseen := unseen
      catalogGeneration := generation
      projectionDirty := true }.record .observed) := by
  have seen : Moves host strict b { b with unseen := unseen, catalogGeneration := generation } :=
    Quiet.moves ⟨rfl, rfl, rfl, rfl, rfl, rfl, rfl, rfl, rfl, .inl rfl, rfl, rfl, rfl⟩
  exact seen.trans (.single .observe)

theorem observePendingProjections_moves (b : BridgeActor σ) :
    Moves host strict b b.observePendingProjections := by
  unfold observePendingProjections
  split
  next => exact .refl
  next => exact observed_moves b _ _

theorem observePendingProjections_kept (b : BridgeActor σ) :
    b.observePendingProjections.pendingRequests = b.pendingRequests ∧
      b.observePendingProjections.pendingNotices = b.pendingNotices ∧
      b.observePendingProjections.inFlight = b.inFlight ∧
      b.observePendingProjections.pendingResynchronization = b.pendingResynchronization := by
  unfold observePendingProjections
  split <;> exact ⟨rfl, rfl, rfl, rfl⟩

theorem owed_of_awaitsNotice {notice : ClientNotice} (h : b.awaitsNotice notice = true) :
    b.Owed notice := by
  intro requestId terminal
  rw [awaitsNotice, terminal] at h
  simp only [Bool.and_eq_true, decide_eq_true_eq, Bool.not_eq_true'] at h
  exact h

theorem andThen_snd (first : Except GuiIpcError Unit × BridgeActor σ)
    (next : BridgeActor σ → Except GuiIpcError Unit × BridgeActor σ) :
    (andThen first next).2 = first.2 ∨ (andThen first next).2 = (next first.2).2 := by
  obtain ⟨result, c⟩ := first
  cases result with
  | error error => exact .inl rfl
  | ok value => exact .inr rfl

theorem andThen_moves {first : Except GuiIpcError Unit × BridgeActor σ}
    {next : BridgeActor σ → Except GuiIpcError Unit × BridgeActor σ}
    (start : Moves host strict b first.2) (rest : Moves host strict first.2 (next first.2).2) :
    Moves host strict b (andThen first next).2 := by
  rcases andThen_snd first next with same | went
  · rw [same]
    exact start
  · rw [went]
    exact start.trans rest

theorem handleNotice_moves {notice : UiNotice} (permitted : strict → b.Permits notice) :
    Moves host strict b (b.handleNotice host delivers notice).2 := by
  unfold handleNotice
  split
  next => exact .refl
  next mapped made =>
    split
    next awaited =>
      obtain ⟨requests, notices, flight, asked⟩ := observePendingProjections_kept b
      have waits : b.observePendingProjections.awaitsNotice mapped = true := by
        rw [← awaited]
        simp only [awaitsNotice, terminalNoticeOutstanding, requests, notices, flight]
      have plain : strict → b.observePendingProjections.Plain mapped := by
        intro h
        unfold Plain
        rw [notices, asked]
        exact permitted h mapped made awaited
      exact andThen_moves ((observePendingProjections_moves b).trans
        (queueNotice_moves (owed_of_awaitsNotice waits) plain)) (pumpOutbound_moves _ delivers)
    next => exact .refl

theorem drainAvailableNotices_moves {waiting : List UiNotice}
    (permitted : strict → PermitsAll host delivers waiting b) :
    Moves host strict b (drainAvailableNotices host delivers waiting b).2 := by
  induction waiting generalizing b with
  | nil => exact .refl
  | cons notice rest ih =>
    exact andThen_moves (handleNotice_moves fun h => (permitted h).1) (ih fun h => (permitted h).2)

end Notices

end AutoHarness.BridgeActor
