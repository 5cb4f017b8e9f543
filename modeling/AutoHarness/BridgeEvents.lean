import AutoHarness.BridgePath

namespace AutoHarness.BridgeActor

open Client (ClientSnapshot ClientNotice RequestId FramePayload SnapshotReason TransportRevision)
open Relation (ReflTransGen)

variable {σ κ γ : Type}

section Events

variable {host : BridgeHost σ κ γ} {strict : Prop}
  {b c : BridgeActor σ} {delivers : Bool} {requestId : RequestId}

theorem queueShutdownNotice_moves (state : Client.ShutdownState) (b : BridgeActor σ) :
    Moves host strict b (queueShutdownNotice state b).2 := by
  have owed : b.Owed (.shutdown state) := by
    intro requestId terminal
    cases terminal
  have plain : strict → b.Plain (.shutdown state) := by
    intro _
    refine ⟨fun queued _ same => ?_, fun requestId terminal => by cases terminal⟩
    simp [sameAuthentication] at same
  have queued : Moves host strict b (queueNotice (.shutdown state) none b).2 :=
    queueNotice_moves owed plain
  have flagged : ∀ c : BridgeActor σ, Moves host strict c { c with shutdownRequestedNoticeSent := true } ∧
      Moves host strict c { c with shutdownReadyNoticeSent := true } := fun c =>
    ⟨Quiet.moves ⟨rfl, rfl, rfl, rfl, rfl, rfl, rfl, rfl, rfl, .inl rfl, rfl, rfl, rfl⟩,
      Quiet.moves ⟨rfl, rfl, rfl, rfl, rfl, rfl, rfl, rfl, rfl, .inl rfl, rfl, rfl, rfl⟩⟩
  cases state with
  | requested =>
    simp only [queueShutdownNotice]
    split
    next => exact .refl
    next =>
      split
      next error c made =>
        rw [made] at queued
        exact queued
      next c made =>
        rw [made] at queued
        exact queued.trans (flagged c).1
  | ready =>
    simp only [queueShutdownNotice]
    split
    next => exact .refl
    next =>
      split
      next error c made =>
        rw [made] at queued
        exact queued
      next c made =>
        rw [made] at queued
        exact queued.trans (flagged c).2

/-- The notices of a shutdown, after the request for it has been admitted. -/
theorem shutdownNotices_moves {first : Except GuiIpcError Unit × BridgeActor σ}
    (start : Moves host strict b first.2) :
    Moves host strict b (andThen (andThen (andThen first (queueShutdownNotice .requested))
      (queueShutdownNotice .ready)) (pumpOutbound host delivers)).2 :=
  andThen_moves (andThen_moves (andThen_moves start (queueShutdownNotice_moves _ _))
    (queueShutdownNotice_moves _ _)) (pumpOutbound_moves _ delivers)

theorem beginShutdown_actions (b : BridgeActor σ) (delivers : Bool) :
    Actions host strict b (b.beginShutdown host delivers none).2 := by
  unfold beginShutdown
  split
  next => exact .refl
  next =>
    exact (ReflTransGen.single .start).trans
      (actions_of_moves (shutdownNotices_moves (.refl : Moves host strict _ _)))

theorem mentions_start (h : Mentions requestId ({ b with
      shutdown := true
      shutdownStarted := true
      projectionDirty := true
      pendingResynchronization := none }.record .observed)) : Mentions requestId b := by
  rcases mentions_record h rfl rfl with waits | asked | rest
  · exact .inl waits
  · cases asked
  · exact .inr (.inr rest)

/-- The request of a shutdown waits for its notice from then on. -/
theorem requestShutdown_actions (issued : requestId.get < b.nextRequestId)
    (fresh : ¬ Mentions requestId b) (running : b.shutdownStarted = false) (delivers : Bool) :
    Actions host strict b (b.beginShutdown host delivers (some requestId)).2 ∧
      requestId ∈ (b.beginShutdown host delivers (some requestId)).2.pendingRequests := by
  have started : Action host strict b _ := .start
  unfold beginShutdown
  rw [if_neg (by simp [running])]
  dsimp only
  generalize hc : ({ b with
    shutdown := true
    shutdownStarted := true
    projectionDirty := true
    pendingResynchronization := none }.record .observed : BridgeActor σ) = c at started ⊢
  have unknown : ¬ Mentions requestId c := fun new => fresh (mentions_start (hc ▸ new))
  have known : requestId.get < c.nextRequestId := by
    rw [← hc]
    exact issued
  have inserted : Action host strict c { c with pendingRequests := requestId :: c.pendingRequests } :=
    .insert requestId known unknown
  have owed : ({ c with pendingRequests := requestId :: c.pendingRequests } : BridgeActor σ).Owed
      (.commandCommitted requestId) := by
    intro other terminal
    cases terminal
    refine ⟨List.mem_cons_self, Bool.eq_false_iff.mpr fun outstanding => unknown ?_⟩
    rcases terminalNoticeOutstanding_iff.mp outstanding with marked | flying
    · exact .inr (.inr (.inl marked))
    · exact .inr (.inr (.inr (.inl flying)))
  have plain : strict → ({ c with pendingRequests := requestId :: c.pendingRequests } :
      BridgeActor σ).Plain (.commandCommitted requestId) := by
    intro _
    refine ⟨fun queued _ same => ?_, fun other _ asked => ?_⟩
    · simp [sameAuthentication] at same
    · rw [← hc] at asked
      cases asked
  have queued : Moves host strict _ _ := queueNotice_moves owed plain
  have moved := @shutdownNotices_moves _ _ _ host strict _ delivers _ queued
  refine ⟨(ReflTransGen.single started).trans ((ReflTransGen.single inserted).trans
    (actions_of_moves moved)), ?_⟩
  exact (congrArg (requestId ∈ ·) (moves_pendingRequests moved)).mpr List.mem_cons_self

theorem connect_cases (b : BridgeActor σ) (delivers : Bool) :
    (b.connect host delivers).2 = b ∨ Reset host b (b.connect host delivers).2 := by
  unfold connect
  split
  next => exact .inl rfl
  next busy =>
    have idle : b.inFlight = none := by simpa using busy
    have refused : ∀ revision, (revision = b.nextRevision ∨ b.nextRevision.next = .ok revision) →
        Reset host b { b with
          channel := none
          connections := b.connections + 1
          nextRevision := revision
          inFlight := none } := by
      intro revision next
      have opened : Reset host b _ := .refused idle next
      rw [idle] at opened
      exact opened
    dsimp only
    split
    next => exact .inr (refused b.nextRevision (.inl rfl))
    next snapshot taken =>
      have free : ({ b with channel := some b.connections, connections := b.connections + 1 } :
        BridgeActor σ).inFlight = none := idle
      unfold sendSnapshot
      rcases send_cases free delivers (.snapshot .initial snapshot) .snapshot with
        ⟨error, made⟩ | ⟨error, following, next, made⟩ | ⟨channel, following, opened, next, made⟩
      · rw [made]
        exact .inr (refused b.nextRevision (.inl rfl))
      · rw [made]
        exact .inr (refused following (.inr next))
      · rw [made]
        cases Option.some.inj opened
        exact .inr (.connect idle next taken)

/-- A resynchronization that cannot be sent leaves no notice behind. -/
theorem pumpOutbound_error {error : GuiIpcError} (asked : b.pendingResynchronization = some requestId)
    (h : b.pumpOutbound host delivers = (.error error, c)) :
    receivedIds c.history = receivedIds b.history ∧ admittedIds c.history = admittedIds b.history := by
  unfold pumpOutbound at h
  split at h
  next => cases h
  next free =>
    have idle : b.inFlight = none := by
      simp only [Bool.or_eq_true, not_or, Bool.not_eq_true, Option.isSome_eq_false_iff,
        Option.isNone_iff_eq_none] at free
      exact free.1
    rw [asked] at h
    dsimp only at h
    unfold resynchronize at h
    split at h
    next =>
      cases h
      exact ⟨rfl, rfl⟩
    next snapshot taken =>
      unfold sendSnapshot at h
      rcases send_cases idle delivers (.snapshot .resynchronization snapshot) .snapshot with
        ⟨failure, made⟩ | ⟨failure, following, next, made⟩ | ⟨channel, following, opened, next, made⟩
      · rw [made] at h
        cases h
        exact ⟨rfl, rfl⟩
      · rw [made] at h
        cases h
        exact ⟨rfl, rfl⟩
      · rw [made] at h
        dsimp only at h
        rcases queueNotice_cases (.commandCommitted requestId) (some requestId)
            { (b.deliver channel following (.snapshot .resynchronization snapshot) .snapshot).reflect
              snapshot with pendingResynchronization := none } with
          ⟨replaced, -, queued⟩ | queued | queued
        · rw [queued] at h
          cases h
        · rw [queued] at h
          cases h
          simp [reflect, deliver, record, receivedIds, admittedIds, receivedId, admittedId]
        · rw [queued] at h
          cases h

theorem dispatchResynchronize_actions (issued : requestId.get < b.nextRequestId)
    (fresh : ¬ Mentions requestId b) (delivers : Bool) :
    Actions host strict b (b.dispatchResynchronize host delivers requestId).2 := by
  have silent : requestId ∉ receivedIds b.history := fun received =>
    fresh (.inr (.inr (.inr (.inr (.inl received)))))
  have unknown : requestId ∉ admittedIds b.history := fun admitted =>
    fresh (.inr (.inr (.inr (.inr (.inr admitted)))))
  unfold dispatchResynchronize
  split
  next => exact .refl
  next =>
    have inserted : Action host strict b { b with pendingRequests := requestId :: b.pendingRequests } :=
      .insert requestId issued fresh
    have asked : Actions host strict b { b with
        pendingRequests := requestId :: b.pendingRequests
        pendingResynchronization := some requestId } :=
      (ReflTransGen.single inserted).tail (.ask requestId List.mem_cons_self silent)
    have moved := @pumpOutbound_moves _ _ _ host strict { b with
        pendingRequests := requestId :: b.pendingRequests
        pendingResynchronization := some requestId } delivers
    split
    next c made =>
      rw [made] at moved
      refine (asked.trans (actions_of_moves moved)).tail (.enroll requestId ?_)
      rw [moves_pendingRequests moved]
      exact List.mem_cons_self
    next error c made =>
      obtain ⟨received, admitted⟩ := pumpOutbound_error rfl made
      rw [made] at moved
      refine (asked.trans (actions_of_moves moved)).tail (.withdraw requestId ?_ ?_)
      · rw [received]
        exact silent
      · rw [admitted]
        exact unknown

theorem admitIntent_actions (issued : requestId.get < b.nextRequestId)
    (fresh : ¬ Mentions requestId b) (accepts : TrySend) :
    Actions host strict b (b.admitIntent accepts requestId).2 := by
  unfold admitIntent
  split
  next => exact .refl
  next =>
    split
    next => exact .refl
    next =>
      have inserted : Action host strict b { b with pendingRequests := requestId :: b.pendingRequests } :=
        .insert requestId issued fresh
      exact (ReflTransGen.single inserted).tail (.enroll requestId List.mem_cons_self)

theorem dispatchShutdown_actions {waiting : List UiNotice} (issued : requestId.get < b.nextRequestId)
    (fresh : ¬ Mentions requestId b) (running : b.shutdownStarted = false)
    (permitted : strict → PermitsAll host delivers waiting b) :
    Actions host strict b (b.dispatchShutdown host delivers waiting requestId).2 := by
  unfold dispatchShutdown
  split
  next => exact .refl
  next =>
    have drained := drainAvailableNotices_moves permitted
    split
    next error c made =>
      rw [made] at drained
      exact actions_of_moves drained
    next c made =>
      rw [made] at drained
      obtain ⟨same, still⟩ := moves_kept drained
      have unknown : ¬ Mentions requestId c := fun new => fresh (moves_mentions drained new)
      obtain ⟨requested, waits⟩ := @requestShutdown_actions _ _ _ host strict c requestId
        (same.symm ▸ issued) unknown (still.trans running) delivers
      split
      next d begun =>
        rw [begun] at requested waits
        exact ((actions_of_moves drained).trans requested).tail (.enroll requestId waits)
      next error d begun =>
        rw [begun] at requested
        exact (actions_of_moves drained).trans requested

theorem perform_actions {waiting : List UiNotice} {accepts : TrySend} {action : CommandAction}
    (issued : requestId.get < b.nextRequestId) (fresh : ¬ Mentions requestId b)
    (running : b.shutdownStarted = false)
    (permitted : strict → action = .shutdown → PermitsAll host delivers waiting b) :
    Actions host strict b (b.perform host delivers accepts waiting requestId action).2 := by
  cases action with
  | intent => exact admitIntent_actions issued fresh accepts
  | cancelAuthentication other =>
    simp only [perform, cancelAuthentication]
    split <;> exact .refl
  | resynchronize => exact dispatchResynchronize_actions issued fresh delivers
  | shutdown => exact dispatchShutdown_actions issued fresh running fun h => permitted h rfl

/-- The identity that is issued next is new. -/
theorem issueRequestId_fresh (numbered : b.Numbered) (h : b.issueRequestId = .ok (requestId, c)) :
    c = { b with nextRequestId := b.nextRequestId + 1 } ∧ requestId.get < c.nextRequestId ∧
      ¬ Mentions requestId c := by
  unfold issueRequestId at h
  split at h
  next room =>
    obtain ⟨rfl, rfl⟩ := Prod.mk.inj (Except.ok.inj h)
    refine ⟨rfl, Nat.lt_succ_self _, fun mentioned => ?_⟩
    exact Nat.lt_irrefl _ (numbered _ mentioned)
  next => cases h

/-- The notices that an event brings are plain where they are handled. -/
def Event.Permitted (host : BridgeHost σ κ γ) (b : BridgeActor σ) : Event σ κ γ → Prop
  | .notice arriving _ => b.Permits arriving
  | .shutdown waiting delivers => PermitsAll host delivers waiting b
  | .dispatch command _ waiting delivers => ∀ requestId c, b.issueRequestId = .ok (requestId, c) →
      host.mapCommand command requestId c.source = .ok .shutdown →
        PermitsAll host delivers waiting c
  | _ => True

theorem dispatch_actions {waiting : List UiNotice} {accepts : TrySend} {command : κ}
    (numbered : b.Numbered) (permitted : strict → ∀ requestId c,
      b.issueRequestId = .ok (requestId, c) →
        host.mapCommand command requestId c.source = .ok .shutdown →
          PermitsAll host delivers waiting c) :
    Actions host strict b (b.dispatch host delivers accepts waiting command).2 := by
  unfold dispatch
  split
  next => exact .refl
  next =>
    split
    next => exact .refl
    next running =>
      split
      next => exact .refl
      next requestId c issue =>
        obtain ⟨rfl, issued, fresh⟩ := issueRequestId_fresh numbered issue
        split
        next => exact .single .issue
        next action mapped =>
          refine (ReflTransGen.single .issue).trans
            (perform_actions issued fresh (by simpa using running) fun h shutdown => ?_)
          exact permitted h _ _ issue (shutdown ▸ mapped)

theorem dispatchCredential_actions {accepts : TrySend} {ingress : γ} (numbered : b.Numbered) :
    Actions host strict b (b.dispatchCredential host accepts ingress).2 := by
  unfold dispatchCredential
  split
  next => exact .refl
  next =>
    split
    next => exact .refl
    next =>
      split
      next => exact .refl
      next =>
        split
        next => exact .refl
        next requestId c issue =>
          obtain ⟨rfl, issued, fresh⟩ := issueRequestId_fresh numbered issue
          split
          next => exact .single .issue
          next => exact (ReflTransGen.single .issue).trans (admitIntent_actions issued fresh accepts)

theorem orStop_actions {result : Except GuiIpcError Unit × BridgeActor σ}
    (h : Actions host strict b result.2) : Actions host strict b (orStop result) := by
  obtain ⟨outcome, c⟩ := result
  cases outcome with
  | ok value => exact h
  | error error =>
    have stopped : Quiet c { c with stopped := true } :=
      ⟨rfl, rfl, rfl, rfl, rfl, rfl, rfl, rfl, rfl, .inl rfl, rfl, rfl, rfl⟩
    exact h.tail (.move (.quiet stopped))

/-- What an event does to the bridge. -/
theorem step_path {event : Event σ κ γ} (numbered : b.Numbered)
    (permitted : strict → event.Permitted host b) : Path host strict b (b.step host event) := by
  unfold step
  split
  next => exact path_of_actions .refl
  next =>
    cases event with
    | acknowledge revision delivers =>
      simp only [acknowledgeFrame]
      split
      next => exact path_of_actions .refl
      next frame flying =>
        split
        next => exact path_of_actions .refl
        next => exact .inr ⟨_, .acknowledge flying, actions_of_moves (pumpOutbound_moves _ delivers)⟩
    | cancelShutdown =>
      refine path_of_actions (.single (.move (.quiet ?_)))
      exact ⟨rfl, rfl, rfl, rfl, rfl, rfl, rfl, rfl, rfl, .inl rfl, rfl, rfl, rfl⟩
    | shutdown waiting delivers =>
      dsimp only
      split
      next =>
        have drained := drainAvailableNotices_moves permitted
        refine path_of_actions (orStop_actions ?_)
        rcases andThen_snd (drainAvailableNotices host delivers waiting b)
          (beginShutdown host delivers none) with same | went
        · rw [same]
          exact actions_of_moves drained
        · rw [went]
          exact (actions_of_moves drained).trans (beginShutdown_actions _ delivers)
      next => exact path_of_actions .refl
    | connect delivers =>
      dsimp only
      rcases @connect_cases _ _ _ host b delivers with same | reset
      · rw [same]
        exact path_of_actions .refl
      · exact .inl reset
    | dispatch command accepts waiting delivers =>
      exact path_of_actions (dispatch_actions numbered permitted)
    | credential ingress accepts => exact path_of_actions (dispatchCredential_actions numbered)
    | notice notice delivers =>
      dsimp only
      split
      next => exact path_of_actions .refl
      next => exact path_of_actions (orStop_actions (actions_of_moves (handleNotice_moves permitted)))
    | change port source => exact .inl .change
    | observe port =>
      dsimp only
      split
      next => exact path_of_actions .refl
      next =>
        unfold observe
        split
        next => exact path_of_actions (actions_of_moves (observed_moves b _ _))
        next => exact path_of_actions .refl
    | tick delivers => exact path_of_actions (actions_of_moves (pumpOutbound_moves b delivers))

theorem mentions_settle {frame : InFlightFrame} (h : Mentions requestId (b.settle frame)) :
    Mentions requestId b := by
  have waiting : requestId ∈ (b.settle frame).pendingRequests → requestId ∈ b.pendingRequests := by
    unfold settle
    dsimp only
    split
    next => exact id
    next =>
      dsimp only
      split
      next => exact fun kept => List.mem_of_mem_filter kept
      next => exact id
  have rest : (b.settle frame).pendingResynchronization = b.pendingResynchronization ∧
      (b.settle frame).marks = b.marks ∧ (b.settle frame).flightMark = none ∧
      receivedIds (b.settle frame).history = receivedIds b.history ∧
      admittedIds (b.settle frame).history = admittedIds b.history := by
    unfold settle
    dsimp only
    split <;> simp [marks, flightMark, record, receivedIds, admittedIds, receivedId, admittedId]
  obtain ⟨asked, marked, flying, received, admitted⟩ := rest
  unfold Mentions at h ⊢
  rw [asked, marked, flying, received, admitted] at h
  rcases h with waits | other | other | other | others
  · exact .inl (waiting waits)
  · exact .inr (.inl other)
  · exact .inr (.inr (.inl other))
  · cases other
  · exact .inr (.inr (.inr (.inr others)))

theorem Action.numbered (h : Action host strict b c) (numbered : b.Numbered) : c.Numbered := by
  intro requestId new
  cases h with
  | move h =>
    rw [h.kept.1]
    exact numbered requestId (h.mentions new)
  | issue => exact Nat.lt_succ_of_lt (numbered requestId new)
  | insert inserted issued fresh =>
    rcases new with waits | rest
    · rcases List.mem_cons.mp waits with rfl | waits
      · exact issued
      · exact numbered requestId (.inl waits)
    · exact numbered requestId (.inr rest)
  | ask asking waits silent =>
    rcases new with other | asked | rest
    · exact numbered requestId (.inl other)
    · cases asked
      exact numbered requestId (.inl waits)
    · exact numbered requestId (.inr (.inr rest))
  | enroll admitting waits =>
    rcases new with other | other | other | other | other | admitted
    · exact numbered requestId (.inl other)
    · exact numbered requestId (.inr (.inl other))
    · exact numbered requestId (.inr (.inr (.inl other)))
    · exact numbered requestId (.inr (.inr (.inr (.inl other))))
    · refine numbered requestId (.inr (.inr (.inr (.inr (.inl ?_)))))
      simpa [receivedIds, record, receivedId] using other
    · simp only [admittedIds, record, List.filterMap_append, List.mem_append, List.mem_filterMap,
        List.mem_singleton] at admitted
      rcases admitted with old | ⟨entry, rfl, made⟩
      · exact numbered requestId (.inr (.inr (.inr (.inr (.inr (List.mem_filterMap.mpr old))))))
      · cases made
        exact numbered requestId (.inl waits)
  | withdraw withdrawn silent unknown =>
    rcases new with waits | asked | rest
    · exact numbered requestId (.inl (List.mem_of_mem_filter waits))
    · cases asked
    · exact numbered requestId (.inr (.inr rest))
  | start => exact numbered requestId (mentions_start new)

theorem Path.numbered (h : Path host strict b c) (numbered : b.Numbered) : c.Numbered := by
  rcases h with reset | ⟨middle, opening, actions⟩
  · intro requestId new
    cases reset with
    | change => exact numbered requestId new
    | refused idle next => exact numbered requestId new
    | @connect snapshot following idle next taken =>
      have sent : Mentions requestId ({ b with
          channel := some b.connections
          connections := b.connections + 1 }.deliver b.connections following
            (.snapshot .initial snapshot) .snapshot) := mentions_record new rfl rfl
      rcases mentions_record sent rfl rfl with other | other | other | flying | others
      · exact numbered requestId (.inl other)
      · exact numbered requestId (.inr (.inl other))
      · exact numbered requestId (.inr (.inr (.inl other)))
      · cases flying
      · exact numbered requestId (.inr (.inr (.inr (.inr others))))
  · have opened : middle.Numbered := by
      cases opening with
      | none => exact numbered
      | @acknowledge frame flying =>
        intro requestId new
        have same : (b.settle frame).nextRequestId = b.nextRequestId := by
          unfold settle
          dsimp only
          split <;> rfl
        rw [same]
        exact numbered requestId (mentions_settle new)
    clear opening
    induction actions with
    | refl => exact opened
    | tail _ action ih => exact action.numbered ih

theorem numbered_new (source : σ) : (new source).Numbered := by
  intro requestId mentioned
  rcases mentioned with other | other | other | other | other | other <;> cases other

end Events

end AutoHarness.BridgeActor
