import AutoHarness.BridgeEvents
import AutoHarness.FallibleRun
import Mathlib.Data.List.Chain

open EventRun (run Along)

namespace AutoHarness.BridgeActor

open Client (ClientSnapshot ClientNotice RequestId ServerFrame FramePayload SnapshotReason
  TransportRevision ActiveSessionDelta Produced Lossless ValidationError)
open Relation (ReflTransGen)

variable {σ κ γ : Type}

section Client

/-- A client applies every frame that follows the last one. -/
def Follows : Option TransportRevision → List ServerFrame → Prop
  | _, [] => True
  | last, frame :: rest => (frame.classifyAfter last).Applies ∧ Follows (some frame.revision) rest

theorem follows_concat {last : Option TransportRevision} {frames : List ServerFrame}
    {frame : ServerFrame} :
    Follows last (frames ++ [frame]) ↔ Follows last frames ∧
      (frame.classifyAfter ((frames.getLast?.map (·.revision)).or last)).Applies := by
  induction frames generalizing last with
  | nil => simp [Follows]
  | cons first rest ih =>
    rw [List.cons_append, Follows, Follows, ih, and_assoc]
    cases rest with
    | nil => simp
    | cons second rest => simp [List.getLast?_cons]

/-- What a client makes of one frame. -/
def applyServerFrame (client : Option ClientSnapshot) (frame : ServerFrame) :
    Except ValidationError (Option ClientSnapshot) :=
  match frame.payload with
  | .snapshot _ snapshot => .ok (some snapshot)
  | .activeSessionDelta delta =>
    match client with
    | none => .error (.inconsistent "session_delta_identity")
    | some client => (delta.applyTo client).map some
  | .notice _ => .ok client

/-- The state of a client that has applied the frames. -/
def clientView (frames : List ServerFrame) : Except ValidationError (Option ClientSnapshot) :=
  frames.foldlM applyServerFrame none

theorem clientView_concat (frames : List ServerFrame) (frame : ServerFrame) :
    clientView (frames ++ [frame]) = clientView frames >>= fun client => applyServerFrame client frame := by
  simp [clientView]

end Client

section Sent

def sentFrame : BridgeRecord → Option (Nat × ServerFrame)
  | .sent channel frame => some (channel, frame)
  | _ => none

def acknowledgedRevision : BridgeRecord → Option TransportRevision
  | .acknowledged frame => some frame.revision
  | _ => none

def sentFrames (history : List BridgeRecord) : List (Nat × ServerFrame) :=
  history.filterMap sentFrame

def acknowledgedRevisions (history : List BridgeRecord) : List TransportRevision :=
  history.filterMap acknowledgedRevision

/-- The frames of one channel, in order. -/
def framesOn (channel : Nat) (sent : List (Nat × ServerFrame)) : List ServerFrame :=
  (sent.filter (·.1 = channel)).map (·.2)

theorem framesOn_concat (channel other : Nat) (sent : List (Nat × ServerFrame)) (frame : ServerFrame) :
    framesOn channel (sent ++ [(other, frame)]) =
      if other = channel then framesOn channel sent ++ [frame] else framesOn channel sent := by
  by_cases same : other = channel <;> simp [framesOn, same]

def flightRevision (b : BridgeActor σ) : Option TransportRevision := b.inFlight.map (·.revision)

/-- What holds of the frames that a bridge has sent. -/
structure Delivers (b : BridgeActor σ) : Prop where
  unacknowledged : (sentFrames b.history).map (·.2.revision) =
    acknowledgedRevisions b.history ++ b.flightRevision.toList
  taken : ∀ sent ∈ sentFrames b.history, sent.2.revision.get < b.nextRevision.get ∧
    sent.1 < b.connections
  increasing : (sentFrames b.history).Pairwise fun left right =>
    left.2.revision.get < right.2.revision.get
  consecutive : ∀ channel, (framesOn channel (sentFrames b.history)).IsChain fun left right =>
    right.revision.get = left.revision.get + 1
  followed : ∀ channel, Follows none (framesOn channel (sentFrames b.history))
  current : ∀ channel, b.channel = some channel → channel < b.connections ∧
    ∃ last, (framesOn channel (sentFrames b.history)).getLast? = some last ∧
      last.revision.get + 1 = b.nextRevision.get

variable {host : BridgeHost σ κ γ} {strict : Prop}
  {b c : BridgeActor σ}

theorem delivers_new (source : σ) : (new source).Delivers where
  unacknowledged := rfl
  taken := fun sent listed => by cases listed
  increasing := .nil
  consecutive := fun _ => .nil
  followed := fun _ => trivial
  current := fun _ opened => by cases opened

theorem Delivers.of_same (d : b.Delivers) (sent : sentFrames c.history = sentFrames b.history)
    (acknowledged : acknowledgedRevisions c.history = acknowledgedRevisions b.history)
    (flying : c.flightRevision = b.flightRevision) (channel : c.channel = b.channel)
    (connections : c.connections = b.connections) (revision : c.nextRevision = b.nextRevision) :
    c.Delivers := by
  refine ⟨?_, ?_, ?_, ?_, ?_, ?_⟩
  · rw [sent, acknowledged, flying]
    exact d.unacknowledged
  · rw [sent, revision, connections]
    exact d.taken
  · rw [sent]
    exact d.increasing
  · rw [sent]
    exact d.consecutive
  · rw [sent]
    exact d.followed
  · rw [sent, channel, connections, revision]
    exact d.current

theorem next_get {revision following : TransportRevision} (h : revision.next = .ok following) :
    following.get = revision.get + 1 := by
  unfold TransportRevision.next at h
  split at h
  next =>
    cases Except.ok.inj h
    rfl
  next => cases h

/-- A frame right after the last one is the next, or a new baseline. -/
theorem classifyAfter_next {last revision : TransportRevision} {payload : FramePayload}
    (h : revision.get = last.get + 1) :
    ((⟨revision, payload⟩ : ServerFrame).classifyAfter (some last)).Applies := by
  unfold ServerFrame.classifyAfter
  dsimp only
  rw [if_neg (by omega)]
  split
  next => trivial
  next =>
    have room := revision.bounded
    rw [TransportRevision.next, dif_pos (by omega)]
    dsimp only
    rw [if_pos (TransportRevision.eq_of_get h)]
    trivial

theorem sentFrames_record (b : BridgeActor σ) (entry : BridgeRecord) :
    sentFrames (b.record entry).history = sentFrames b.history ++ (sentFrame entry).toList := by
  cases h : sentFrame entry <;> simp [sentFrames, record, h]

theorem acknowledgedRevisions_record (b : BridgeActor σ) (entry : BridgeRecord) :
    acknowledgedRevisions (b.record entry).history =
      acknowledgedRevisions b.history ++ (acknowledgedRevision entry).toList := by
  cases h : acknowledgedRevision entry <;> simp [acknowledgedRevisions, record, h]

theorem Delivers.lose (d : b.Delivers) {following : TransportRevision} (connections : Nat)
    (more : b.connections ≤ connections)
    (next : following = b.nextRevision ∨ b.nextRevision.next = .ok following) :
    ({ b with nextRevision := following, channel := none, connections := connections } :
      BridgeActor σ).Delivers := by
  have above : b.nextRevision.get ≤ following.get := by
    rcases next with rfl | next
    · exact Nat.le_refl _
    · have := next_get next
      omega
  refine ⟨d.unacknowledged, fun sent listed => ?_, d.increasing, d.consecutive, d.followed,
    fun channel opened => by cases opened⟩
  obtain ⟨low, known⟩ := d.taken sent listed
  exact ⟨Nat.lt_of_lt_of_le low above, Nat.lt_of_lt_of_le known more⟩

/-- One more frame on the channel, which is the next one, or the first of a new channel. -/
theorem Delivers.deliver (d : b.Delivers) {channel connections : Nat} {following : TransportRevision}
    {payload : FramePayload} {mark : InFlightPayload} (idle : b.inFlight = none)
    (next : b.nextRevision.next = .ok following) (more : b.connections ≤ connections)
    (known : channel < connections)
    (place : b.channel = some channel ∨ b.connections ≤ channel ∧ payload.isBaseline = true) :
    ({ b with channel := some channel, connections := connections }.deliver channel following payload
      mark).Delivers := by
  have above := next_get next
  have sent : sentFrames ({ b with channel := some channel, connections := connections }.deliver channel
      following payload mark).history = sentFrames b.history ++ [(channel, ⟨b.nextRevision, payload⟩)] :=
    sentFrames_record _ _
  have acknowledged : acknowledgedRevisions ({ b with channel := some channel, connections := connections
      }.deliver channel following payload mark).history = acknowledgedRevisions b.history := by
    refine (acknowledgedRevisions_record _ _).trans ?_
    simp [acknowledgedRevision]
  have none_new : b.connections ≤ channel → framesOn channel (sentFrames b.history) = [] := by
    intro new
    rw [framesOn, List.map_eq_nil_iff, List.filter_eq_nil_iff]
    intro entry listed
    have := (d.taken entry listed).2
    simp only [decide_eq_true_eq]
    omega
  refine ⟨?_, ?_, ?_, ?_, ?_, ?_⟩
  · rw [sent, acknowledged, List.map_append, d.unacknowledged, flightRevision, idle]
    simp [flightRevision, BridgeActor.deliver, record]
  · rw [sent]
    intro entry listed
    rcases List.mem_append.mp listed with old | new
    · obtain ⟨low, known⟩ := d.taken entry old
      exact ⟨show entry.2.revision.get < following.get by omega, Nat.lt_of_lt_of_le known more⟩
    · cases List.mem_singleton.mp new
      exact ⟨show b.nextRevision.get < following.get by omega, known⟩
  · rw [sent, List.pairwise_append]
    refine ⟨d.increasing, List.pairwise_singleton _ _, fun entry old other new => ?_⟩
    cases List.mem_singleton.mp new
    exact (d.taken entry old).1
  · intro other
    rw [sent, framesOn_concat]
    split
    next same =>
      subst same
      rcases place with opened | ⟨new, -⟩
      · obtain ⟨-, last, final, adjacent⟩ := d.current channel opened
        refine List.isChain_append.mpr ⟨d.consecutive channel, .singleton _, fun left h right h' => ?_⟩
        rw [final] at h
        cases Option.mem_some.mp h
        cases Option.mem_some.mp h'
        exact adjacent.symm
      · rw [none_new new]
        exact .singleton _
    next => exact d.consecutive other
  · intro other
    rw [sent, framesOn_concat]
    split
    next same =>
      subst same
      rw [follows_concat]
      refine ⟨d.followed channel, ?_⟩
      rcases place with opened | ⟨new, baseline⟩
      · obtain ⟨-, last, final, adjacent⟩ := d.current channel opened
        rw [final]
        exact classifyAfter_next adjacent.symm
      · rw [none_new new]
        simp [ServerFrame.classifyAfter, baseline, Client.FrameDisposition.Applies]
    next => exact d.followed other
  · intro other opened
    cases Option.some.inj opened
    refine ⟨known, ⟨b.nextRevision, payload⟩, ?_, above.symm⟩
    rw [sent, framesOn_concat, if_pos rfl]
    simp

end Sent

section Preserved

variable {host : BridgeHost σ κ γ} {strict : Prop}
  {b c : BridgeActor σ}

theorem Delivers.record (d : b.Delivers) {entry : BridgeRecord} (silent : sentFrame entry = none)
    (other : acknowledgedRevision entry = none) : (b.record entry).Delivers := by
  refine d.of_same ?_ ?_ rfl rfl rfl rfl
  · rw [sentFrames_record, silent, Option.toList_none, List.append_nil]
  · rw [acknowledgedRevisions_record, other, Option.toList_none, List.append_nil]

theorem Delivers.reflect (d : b.Delivers) (snapshot : ClientSnapshot) :
    (b.reflect snapshot).Delivers := by
  have same : ({ b with lastSnapshot := some snapshot, projectionDirty := false } :
      BridgeActor σ).Delivers := d.of_same rfl rfl rfl rfl rfl rfl
  exact same.record rfl rfl

theorem Delivers.onward (d : b.Delivers) {channel : Nat} {following : TransportRevision}
    {payload : FramePayload} {mark : InFlightPayload} (idle : b.inFlight = none)
    (opened : b.channel = some channel) (next : b.nextRevision.next = .ok following) :
    (b.deliver channel following payload mark).Delivers := by
  have same : { b with channel := some channel, connections := b.connections } = b := by
    rw [← opened]
  have more : ({ b with channel := some channel, connections := b.connections }.deliver channel
      following payload mark).Delivers :=
    d.deliver idle next (Nat.le_refl _) (d.current channel opened).1 (.inl opened)
  rw [same] at more
  exact more

theorem Move.delivers (h : Move host strict b c) (d : b.Delivers) : c.Delivers := by
  cases h with
  | quiet h =>
    refine d.of_same ?_ ?_ ?_ h.channel h.connections h.nextRevision
    · rw [h.history]
    · rw [h.history]
    · rw [flightRevision, h.inFlight, flightRevision]
  | observe =>
    have same : ({ b with projectionDirty := true } : BridgeActor σ).Delivers :=
      d.of_same rfl rfl rfl rfl rfl rfl
    exact same.record rfl rfl
  | clean last => exact d.reflect _
  | lost idle next => exact d.lose b.connections (Nat.le_refl _) (.inr next)
  | publish idle opened next taken carries => exact (d.onward idle opened next).reflect _
  | @notice queued rest channel following idle opened next front free =>
    have same : ({ b with pendingNotices := rest } : BridgeActor σ).Delivers :=
      d.of_same rfl rfl rfl rfl rfl rfl
    exact same.onward idle opened next
  | release front clean => exact d.of_same rfl rfl rfl rfl rfl rfl
  | @enqueue notice owed plain =>
    have same : ∀ queue, ({ b with pendingNotices := queue } : BridgeActor σ).Delivers := fun _ =>
      d.of_same rfl rfl rfl rfl rfl rfl
    exact (same _).record rfl rfl
  | @replace notice replaced owed plain found =>
    have same : ({ b with pendingNotices := replaced } : BridgeActor σ).Delivers :=
      d.of_same rfl rfl rfl rfl rfl rfl
    exact same.record rfl rfl
  | commit asked =>
    have same : ∀ queue, ({ b with
        pendingNotices := queue
        pendingResynchronization := none } : BridgeActor σ).Delivers := fun _ =>
      d.of_same rfl rfl rfl rfl rfl rfl
    exact (same _).record rfl rfl

theorem Action.delivers (h : Action host strict b c) (d : b.Delivers) : c.Delivers := by
  cases h with
  | move h => exact h.delivers d
  | issue => exact d.of_same rfl rfl rfl rfl rfl rfl
  | insert _ _ _ => exact d.of_same rfl rfl rfl rfl rfl rfl
  | ask _ _ _ => exact d.of_same rfl rfl rfl rfl rfl rfl
  | enroll _ _ => exact d.record rfl rfl
  | withdraw _ _ _ => exact d.of_same rfl rfl rfl rfl rfl rfl
  | start =>
    have same : ({ b with
        shutdown := true
        shutdownStarted := true
        projectionDirty := true
        pendingResynchronization := none } : BridgeActor σ).Delivers :=
      d.of_same rfl rfl rfl rfl rfl rfl
    exact same.record rfl rfl

theorem settle_kept (b : BridgeActor σ) (frame : InFlightFrame) :
    (b.settle frame).history = b.history ++ [.acknowledged frame] ∧
      (b.settle frame).inFlight = none ∧ (b.settle frame).channel = b.channel ∧
      (b.settle frame).connections = b.connections ∧
      (b.settle frame).nextRevision = b.nextRevision ∧ (b.settle frame).source = b.source ∧
      (b.settle frame).lastSnapshot = b.lastSnapshot := by
  unfold settle
  dsimp only
  split <;> exact ⟨rfl, rfl, rfl, rfl, rfl, rfl, rfl⟩

theorem Delivers.settle (d : b.Delivers) {frame : InFlightFrame} (flying : b.inFlight = some frame) :
    (b.settle frame).Delivers := by
  obtain ⟨history, idle, channel, connections, revision, -, -⟩ := settle_kept b frame
  have sent : sentFrames (b.settle frame).history = sentFrames b.history := by
    rw [history]
    exact (sentFrames_record b _).trans (List.append_nil _)
  have acknowledged : acknowledgedRevisions (b.settle frame).history =
      acknowledgedRevisions b.history ++ [frame.revision] := by
    rw [history]
    exact acknowledgedRevisions_record b _
  refine ⟨?_, ?_, ?_, ?_, ?_, ?_⟩
  · have before := d.unacknowledged
    rw [flightRevision, flying] at before
    rw [sent, acknowledged, flightRevision, idle, before]
    simp
  · rw [sent, revision, connections]
    exact d.taken
  · rw [sent]
    exact d.increasing
  · rw [sent]
    exact d.consecutive
  · rw [sent]
    exact d.followed
  · rw [sent, channel, connections, revision]
    exact d.current

theorem Path.delivers (h : Path host strict b c) (d : b.Delivers) : c.Delivers := by
  rcases h with reset | ⟨middle, opening, actions⟩
  · cases reset with
    | change => exact d.of_same rfl rfl rfl rfl rfl rfl
    | refused idle next => exact d.lose _ (Nat.le_succ _) next
    | connect idle next taken =>
      exact (d.deliver idle next (Nat.le_succ _) (Nat.lt_succ_self _) (.inr ⟨Nat.le_refl _, rfl⟩)).reflect _
  · have opened : middle.Delivers := by
      cases opening with
      | none => exact d
      | acknowledge flying => exact d.settle flying
    clear opening
    induction actions with
    | refl => exact opened
    | tail _ action ih => exact action.delivers ih

end Preserved

section Mirror

variable {host : BridgeHost σ κ γ} {strict : Prop}
  {b c : BridgeActor σ}

/-- The last snapshot is the state of a client that has applied every frame of the channel. -/
def Mirrors (b : BridgeActor σ) : Prop :=
  ∀ channel, b.channel = some channel → ∃ snapshot, b.lastSnapshot = some snapshot ∧
    clientView (framesOn channel (sentFrames b.history)) = .ok (some snapshot)

/-- Every delta that leads away from the last snapshot drops nothing. -/
def LosslessFrom (host : BridgeHost σ κ γ) (b : BridgeActor σ) : Prop :=
  ∀ previous, b.lastSnapshot = some previous → ∀ generation shuttingDown next,
    takeSnapshot host b.source generation shuttingDown = .ok next →
      ActiveSessionDelta.between previous next ≠ none → Lossless previous next

theorem takeSnapshot_produced {source : σ} {generation : Nat} {shuttingDown : Bool}
    {snapshot : ClientSnapshot} (h : takeSnapshot host source generation shuttingDown = .ok snapshot) :
    Produced host.pageBytes snapshot := by
  unfold takeSnapshot at h
  obtain ⟨parts, -, h⟩ := FallibleRun.bind_eq_ok_iff.mp h
  obtain ⟨bare, made, carried⟩ := FallibleRun.bind_eq_ok_iff.mp h
  have inner : ∀ {ε δ α : Type} {x : Except ε α} {f : ε → δ} {a : α}, x.mapError f = .ok a → x = .ok a := by
    intro ε δ α x f a h
    cases x with
    | error e => cases h
    | ok value =>
      cases h
      rfl
  exact .withMemory (.new (inner made)) (inner carried)

theorem Mirrors.of_same (m : b.Mirrors) (channel : c.channel = b.channel)
    (last : c.lastSnapshot = b.lastSnapshot)
    (sent : sentFrames c.history = sentFrames b.history) : c.Mirrors := by
  unfold Mirrors
  rw [channel, last, sent]
  exact m

theorem Mirrors.record (m : b.Mirrors) {entry : BridgeRecord} (silent : sentFrame entry = none) :
    (b.record entry).Mirrors := by
  refine m.of_same rfl rfl ?_
  rw [sentFrames_record, silent, Option.toList_none, List.append_nil]

/-- A frame leaves the client with what it carries. -/
theorem mirrors_deliver {channel : Nat} {following : TransportRevision} {payload : FramePayload}
    {mark : InFlightPayload} {snapshot : ClientSnapshot} (opened : b.channel = some channel)
    (applied : clientView (framesOn channel (sentFrames b.history) ++ [⟨b.nextRevision, payload⟩]) =
      .ok (some snapshot)) :
    ({ b.deliver channel following payload mark with lastSnapshot := some snapshot } :
      BridgeActor σ).Mirrors := by
  intro other current
  have same : some channel = some other := opened.symm.trans current
  cases Option.some.inj same
  refine ⟨snapshot, rfl, ?_⟩
  have sent : sentFrames (b.deliver channel following payload mark).history =
      sentFrames b.history ++ [(channel, ⟨b.nextRevision, payload⟩)] := sentFrames_record _ _
  show clientView (framesOn channel (sentFrames (b.deliver channel following payload mark).history)) = _
  rw [sent, framesOn_concat, if_pos rfl]
  exact applied

theorem Carries.applied {last : Option ClientSnapshot} {previous snapshot : ClientSnapshot}
    {payload : FramePayload} {revision : TransportRevision} (h : Carries last snapshot payload)
    (known : last = some previous) (produced : Produced host.pageBytes snapshot)
    (lossless : ActiveSessionDelta.between previous snapshot ≠ none → Lossless previous snapshot) :
    applyServerFrame (some previous) ⟨revision, payload⟩ = .ok (some snapshot) := by
  cases h with
  | @delta other delta same found =>
    cases Option.some.inj (known.symm.trans same)
    have reached := (Client.applyTo_between_iff produced found).mpr (lossless (by simp [found]))
    simp only [applyServerFrame]
    rw [reached]
    rfl
  | whole later => rfl

theorem Move.mirrors (h : Move host strict b c) (m : b.Mirrors)
    (lossless : b.inFlight = none → LosslessFrom host b) : c.Mirrors := by
  cases h with
  | quiet h => exact m.of_same h.channel h.lastSnapshot (by rw [h.history])
  | observe =>
    have same : ({ b with projectionDirty := true } : BridgeActor σ).Mirrors := m.of_same rfl rfl rfl
    exact same.record rfl
  | @clean snapshot last =>
    have same : ({ b with lastSnapshot := some snapshot, projectionDirty := false } :
        BridgeActor σ).Mirrors := m.of_same rfl last.symm rfl
    exact same.record rfl
  | lost idle next =>
    intro channel opened
    cases opened
  | @publish snapshot payload channel following idle opened next taken carries =>
    obtain ⟨previous, last, viewed⟩ := m channel opened
    have applied : clientView (framesOn channel (sentFrames b.history) ++ [⟨b.nextRevision, payload⟩]) =
        .ok (some snapshot) := by
      rw [clientView_concat, viewed, FallibleRun.ok_bind]
      exact carries.applied last (takeSnapshot_produced taken) (lossless idle previous last _ _ snapshot taken)
    have sent : ({ b.deliver channel following payload .snapshot with
        lastSnapshot := some snapshot } : BridgeActor σ).Mirrors := mirrors_deliver opened applied
    have clean : ({ b.deliver channel following payload .snapshot with
        lastSnapshot := some snapshot
        projectionDirty := false } : BridgeActor σ).Mirrors := sent.of_same rfl rfl rfl
    exact clean.record rfl
  | @notice queued rest channel following idle opened next front free =>
    obtain ⟨previous, last, viewed⟩ := m channel opened
    have applied : clientView (framesOn channel (sentFrames b.history) ++
        [⟨b.nextRevision, .notice queued.notice⟩]) = .ok (some previous) := by
      rw [clientView_concat, viewed, FallibleRun.ok_bind]
      rfl
    have sent := @mirrors_deliver σ b channel following _ (.notice queued) previous opened applied
    exact sent.of_same rfl last rfl
  | release front clean => exact m.of_same rfl rfl rfl
  | @enqueue notice owed plain =>
    have same : ∀ queue, ({ b with pendingNotices := queue } : BridgeActor σ).Mirrors := fun _ =>
      m.of_same rfl rfl rfl
    exact (same _).record rfl
  | @replace notice replaced owed plain found =>
    have same : ({ b with pendingNotices := replaced } : BridgeActor σ).Mirrors := m.of_same rfl rfl rfl
    exact same.record rfl
  | commit asked =>
    have same : ∀ queue, ({ b with
        pendingNotices := queue
        pendingResynchronization := none } : BridgeActor σ).Mirrors := fun _ => m.of_same rfl rfl rfl
    exact (same _).record rfl

/-- Until a frame is in flight, the projections and the last snapshot stay as they are. -/
def Steady (b c : BridgeActor σ) : Prop :=
  c.source = b.source ∧ (c.inFlight = none → c.lastSnapshot = b.lastSnapshot ∧ b.inFlight = none)

theorem Action.steady (h : Action host strict b c) : Steady b c := by
  cases h with
  | move h =>
    cases h with
    | quiet h => exact ⟨h.source, fun idle => ⟨h.lastSnapshot, h.inFlight ▸ idle⟩⟩
    | clean last => exact ⟨rfl, fun idle => ⟨last.symm, idle⟩⟩
    | publish idle opened next taken carries => exact ⟨rfl, fun idle => by cases idle⟩
    | notice idle opened next front free => exact ⟨rfl, fun idle => by cases idle⟩
    | _ => exact ⟨rfl, fun idle => ⟨rfl, idle⟩⟩
  | _ => exact ⟨rfl, fun idle => ⟨rfl, idle⟩⟩

theorem Action.mirrors (h : Action host strict b c) (m : b.Mirrors)
    (lossless : b.inFlight = none → LosslessFrom host b) : c.Mirrors := by
  cases h with
  | move h => exact h.mirrors m lossless
  | issue => exact m.of_same rfl rfl rfl
  | insert _ _ _ => exact m.of_same rfl rfl rfl
  | ask _ _ _ => exact m.of_same rfl rfl rfl
  | enroll _ _ => exact m.record rfl
  | withdraw _ _ _ => exact m.of_same rfl rfl rfl
  | start =>
    have same : ({ b with
        shutdown := true
        shutdownStarted := true
        projectionDirty := true
        pendingResynchronization := none } : BridgeActor σ).Mirrors := m.of_same rfl rfl rfl
    exact same.record rfl

theorem actions_mirrors (h : Actions host strict b c) (m : b.Mirrors)
    (lossless : LosslessFrom host b) : c.Mirrors ∧ Steady b c := by
  induction h with
  | refl => exact ⟨m, rfl, fun idle => ⟨rfl, idle⟩⟩
  | @tail d e _ action ih =>
    obtain ⟨mirrored, source, kept⟩ := ih
    obtain ⟨same, still⟩ := action.steady
    refine ⟨action.mirrors mirrored fun idle => ?_, same.trans source, fun idle => ?_⟩
    · unfold LosslessFrom
      rw [source, (kept idle).1]
      exact lossless
    · obtain ⟨last, before⟩ := still idle
      exact ⟨last.trans (kept before).1, (kept before).2⟩

theorem Reset.mirrors (h : Reset host b c) (m : b.Mirrors) (d : b.Delivers) : c.Mirrors := by
  cases h with
  | change => exact m.of_same rfl rfl rfl
  | refused idle next =>
    intro channel opened
    cases opened
  | @connect snapshot following idle next taken =>
    have empty : framesOn b.connections (sentFrames b.history) = [] := by
      rw [framesOn, List.map_eq_nil_iff, List.filter_eq_nil_iff]
      intro entry listed
      have := (d.taken entry listed).2
      simp only [decide_eq_true_eq]
      omega
    have applied : clientView (framesOn b.connections (sentFrames b.history) ++
        [⟨b.nextRevision, .snapshot .initial snapshot⟩]) = .ok (some snapshot) := by
      rw [empty]
      rfl
    have sent := @mirrors_deliver σ { b with
      channel := some b.connections
      connections := b.connections + 1 } b.connections following _ .snapshot snapshot rfl applied
    have clean : ({ { b with
        channel := some b.connections
        connections := b.connections + 1 }.deliver b.connections following
          (.snapshot .initial snapshot) .snapshot with
        lastSnapshot := some snapshot
        projectionDirty := false } : BridgeActor σ).Mirrors := sent.of_same rfl rfl rfl
    exact clean.record rfl

theorem Path.mirrors (h : Path host strict b c) (m : b.Mirrors) (d : b.Delivers)
    (lossless : LosslessFrom host b) : c.Mirrors := by
  rcases h with reset | ⟨middle, opening, actions⟩
  · exact reset.mirrors m d
  · cases opening with
    | none => exact (actions_mirrors actions m lossless).1
    | @acknowledge frame flying =>
      obtain ⟨history, -, channel, -, -, source, last⟩ := settle_kept b frame
      have sent : sentFrames (b.settle frame).history = sentFrames b.history := by
        rw [history]
        exact (sentFrames_record b _).trans (List.append_nil _)
      have kept : LosslessFrom host (b.settle frame) := by
        unfold LosslessFrom
        rw [source, last]
        exact lossless
      exact (actions_mirrors actions (m.of_same channel last sent) kept).1

end Mirror

section Runs

variable {host : BridgeHost σ κ γ} {b : BridgeActor σ}

/-- The events that publish the projections find nothing that a delta would drop. -/
def Event.Lossless (host : BridgeHost σ κ γ) (b : BridgeActor σ) : Event σ κ γ → Prop
  | .change _ _ | .connect _ | .cancelShutdown | .observe _ => True
  | _ => LosslessFrom host b

/-- Nothing is asked of the notices. -/
theorem step_path_any {event : Event σ κ γ} (numbered : b.Numbered) :
    Path host False b (b.step host event) :=
  step_path numbered False.elim

theorem step_mirrors {event : Event σ κ γ} (numbered : b.Numbered) (d : b.Delivers) (m : b.Mirrors)
    (lossless : event.Lossless host b) : (b.step host event).Mirrors := by
  have path := @step_path_any _ _ _ host b event numbered
  cases event with
  | change port source =>
    unfold step
    split
    next => exact m
    next => exact m.of_same rfl rfl rfl
  | connect delivers =>
    unfold step
    split
    next => exact m
    next =>
      dsimp only
      rcases @connect_cases _ _ _ host b delivers with same | reset
      · rw [same]
        exact m
      · exact reset.mirrors m d
  | cancelShutdown =>
    unfold step
    split
    next => exact m
    next => exact m.of_same rfl rfl rfl
  | observe port =>
    unfold step
    split
    next => exact m
    next =>
      dsimp only
      split
      next => exact m
      next =>
        unfold observe
        split
        next =>
          refine Mirrors.record ?_ rfl
          exact m.of_same rfl rfl rfl
        next => exact m
  | _ => exact path.mirrors m d lossless

theorem acknowledge_other {delivers : Bool} {revision : TransportRevision}
    (other : ∀ frame, b.inFlight = some frame → frame.revision ≠ revision) :
    b.step host (.acknowledge revision delivers) = b := by
  unfold step
  split
  next => rfl
  next =>
    simp only [acknowledgeFrame]
    split
    next => rfl
    next frame flying => rw [if_pos (other frame flying)]

/-- One frame is unacknowledged at most, the revisions of a channel are consecutive and grow from
channel to channel, and a client applies every frame it is sent; where no delta drops anything, the
last snapshot is what the client has. -/
theorem bridge_delivers (host : BridgeHost σ κ γ) (source : σ) (events : List (Event σ κ γ)) :
    (run (step host) (new source) events).Delivers ∧
    (∀ revision delivers, (∀ frame, (run (step host) (new source) events).inFlight = some frame →
      frame.revision ≠ revision) →
        (run (step host) (new source) events).step host (.acknowledge revision delivers) =
          run (step host) (new source) events) ∧
    (Along (step host) (fun b event => event.Lossless host b) (new source) events →
      ∀ before, before <+: events → (run (step host) (new source) before).Mirrors) := by
  have keeps : ∀ b : BridgeActor σ, ∀ event : Event σ κ γ, b.Numbered ∧ b.Delivers →
      (b.step host event).Numbered ∧ (b.step host event).Delivers := by
    rintro b event ⟨numbered, d⟩
    have path := @step_path_any _ _ _ host b event numbered
    exact ⟨path.numbered numbered, path.delivers d⟩
  have start : (new source).Numbered ∧ (new source).Delivers := ⟨numbered_new source, delivers_new source⟩
  have free : Along (step host) (fun _ _ => True) (new source) events :=
    EventRun.along_of_forall fun _ _ => trivial
  have always := EventRun.forall_prefix (I := fun b : BridgeActor σ => b.Numbered ∧ b.Delivers)
    (fun b event held _ => keeps b event held) start free (List.prefix_refl events)
  refine ⟨always.2, fun revision delivers other => acknowledge_other other, fun lossless before h => ?_⟩
  have mirrored := EventRun.forall_prefix
    (I := fun b : BridgeActor σ => (b.Numbered ∧ b.Delivers) ∧ b.Mirrors)
    (fun b event held met => ⟨keeps b event held.1, step_mirrors held.1.1 held.1.2 held.2 met⟩)
    ⟨start, fun channel opened => by cases opened⟩ lossless h
  exact mirrored.2

end Runs

section Sample

open Client (sampleSnapshot samplePrompt samplePage sampleSession sampleSummary sampleSettings)

/-- One session with the given rows, and the given memory page. -/
def sampleParts (memory : Client.MemoryProjection) (transcript : List Client.TranscriptItem)
    (checked : Client.checkSession transcript [] = .ok ()) : SnapshotParts where
  lifecycle := .ready
  activeSessionId := some sampleSession
  sessions := [sampleSummary]
  activeSession := some ⟨sampleSession, 1, none, transcript, [], checked⟩
  catalog := .loading
  providers := []
  settings := sampleSettings
  providerRecoveryPending := 0
  memory := memory

/-- A host whose projections are the parts themselves. -/
def sampleHost : BridgeHost SnapshotParts CommandAction Unit where
  pageBytes := fun _ => 2
  parts := fun source _ _ => .ok source
  mapCommand := fun action _ _ => .ok action
  credentialTarget := fun _ _ => .ok ()
  credentialIntent := fun _ => .ok ()

def promptedParts (memory : Client.MemoryProjection) : SnapshotParts :=
  sampleParts memory [samplePrompt] rfl

/-- A client connects, and a prompt arrives. -/
def prompted (memory : Client.MemoryProjection) : List (Event SnapshotParts CommandAction Unit) :=
  [.connect true, .acknowledge .initial true, .change .session (promptedParts memory),
    .observe .session, .tick true]

theorem bridge_delivers_prompted :
    (run (step sampleHost) (new (sampleParts .default [] rfl)) (prompted .default)).Mirrors := by
  refine (bridge_delivers sampleHost (sampleParts .default [] rfl) (prompted .default)).2.2 ?_ _
    (List.prefix_refl _)
  refine ⟨trivial, ?_, trivial, trivial, ?_, trivial⟩
  · intro previous last generation shuttingDown next taken _
    cases Option.some.inj last
    cases Except.ok.inj taken
    exact ⟨rfl, rfl⟩
  · intro previous last generation shuttingDown next taken _
    cases Option.some.inj last
    cases Except.ok.inj taken
    exact ⟨rfl, rfl⟩

theorem prompted_loses_memory :
    ¬ (run (step sampleHost) (new (sampleParts samplePage [] rfl)) (prompted samplePage)).Mirrors := by
  intro mirrors
  obtain ⟨snapshot, last, viewed⟩ := mirrors 0 rfl
  have kept : snapshot.memory = samplePage := by
    cases Option.some.inj last
    rfl
  have shown : (clientView (framesOn 0 (sentFrames (run (step sampleHost)
      (new (sampleParts samplePage [] rfl)) (prompted samplePage)).history))).map
        (Option.map (·.memory)) = .ok (some .default) := rfl
  rw [viewed] at shown
  have lost : snapshot.memory = .default := Option.some.inj (Except.ok.inj shown)
  rw [kept] at lost
  cases lost

end Sample

end AutoHarness.BridgeActor
