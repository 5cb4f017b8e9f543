import AutoHarness.BridgeMoves

namespace AutoHarness.BridgeActor

open Client (ClientSnapshot ClientNotice RequestId FramePayload SnapshotReason TransportRevision)
open Relation (ReflTransGen)

variable {σ κ γ : Type}

section History

def receivedId : BridgeRecord → Option RequestId
  | .received notice => terminalRequestId notice
  | _ => none

def admittedId : BridgeRecord → Option RequestId
  | .admitted requestId => some requestId
  | _ => none

/-- The requests whose terminal notice has been queued, in order. -/
def receivedIds (history : List BridgeRecord) : List RequestId := history.filterMap receivedId

def admittedIds (history : List BridgeRecord) : List RequestId := history.filterMap admittedId

/-- The requests that the queued notices are marked to settle. -/
def marks (b : BridgeActor σ) : List RequestId := b.pendingNotices.filterMap (·.terminalRequestId)

def flightMark (b : BridgeActor σ) : Option RequestId :=
  match b.inFlight with
  | some ⟨_, .notice queued⟩ => queued.terminalRequestId
  | _ => none

theorem terminalNoticeOutstanding_iff {b : BridgeActor σ} {requestId : RequestId} :
    b.terminalNoticeOutstanding requestId = true ↔
      requestId ∈ b.marks ∨ b.flightMark = some requestId := by
  simp only [terminalNoticeOutstanding, marks, flightMark, Bool.or_eq_true, List.any_eq_true,
    List.mem_filterMap, decide_eq_true_eq]
  refine or_congr Iff.rfl ?_
  cases b.inFlight with
  | none => simp
  | some frame =>
    obtain ⟨revision, payload⟩ := frame
    cases payload with
    | snapshot => simp
    | notice queued => simp

/-- The bridge has dealt with a request. -/
def Mentions (requestId : RequestId) (b : BridgeActor σ) : Prop :=
  requestId ∈ b.pendingRequests ∨ b.pendingResynchronization = some requestId ∨
    requestId ∈ b.marks ∨ b.flightMark = some requestId ∨ requestId ∈ receivedIds b.history ∨
    requestId ∈ admittedIds b.history

/-- Every request has been issued. -/
def Numbered (b : BridgeActor σ) : Prop :=
  ∀ requestId, Mentions requestId b → requestId.get < b.nextRequestId

theorem replaceNotice_marks {notice : ClientNotice} {queue replaced : List QueuedNotice}
    (h : replaceNotice notice queue = some replaced) :
    replaced.filterMap (·.terminalRequestId) = queue.filterMap (·.terminalRequestId) := by
  induction queue generalizing replaced with
  | nil => cases h
  | cons queued rest ih =>
    unfold replaceNotice at h
    split at h
    next =>
      cases Option.some.inj h
      rfl
    next =>
      obtain ⟨replaced, found, rfl⟩ := Option.map_eq_some_iff.mp h
      rw [List.filterMap_cons, List.filterMap_cons, ih found]

variable {host : BridgeHost σ κ γ} {strict : Prop} {b c : BridgeActor σ}
  {requestId : RequestId}

theorem Owed.mentions {notice : ClientNotice} (owed : b.Owed notice)
    (terminal : terminalRequestId notice = some requestId) : Mentions requestId b := by
  exact .inl (owed requestId terminal).1

theorem mentions_record {entry : BridgeRecord} (h : Mentions requestId (b.record entry))
    (silent : receivedId entry = none) (other : admittedId entry = none) : Mentions requestId b := by
  simpa [Mentions, record, receivedIds, admittedIds, marks, flightMark, silent, other] using h

theorem mentions_enqueue {notice : ClientNotice}
    (h : Mentions requestId (b.enqueue notice (terminalRequestId notice))) :
    Mentions requestId b ∨ terminalRequestId notice = some requestId := by
  rcases h with waits | asked | marked | flying | received | admitted
  · exact .inl (.inl waits)
  · exact .inl (.inr (.inl asked))
  · simp only [marks, BridgeActor.enqueue, record, List.filterMap_append, List.mem_append,
      List.mem_filterMap, List.mem_singleton] at marked
    rcases marked with old | ⟨queued, rfl, terminal⟩
    · exact .inl (.inr (.inr (.inl (List.mem_filterMap.mpr old))))
    · exact .inr terminal
  · exact .inl (.inr (.inr (.inr (.inl flying))))
  · simp only [receivedIds, BridgeActor.enqueue, record, List.filterMap_append, List.mem_append,
      List.mem_filterMap, List.mem_singleton] at received
    rcases received with old | ⟨entry, rfl, terminal⟩
    · exact .inl (.inr (.inr (.inr (.inr (.inl (List.mem_filterMap.mpr old))))))
    · exact .inr terminal
  · refine .inl (.inr (.inr (.inr (.inr (.inr ?_)))))
    simpa [admittedIds, BridgeActor.enqueue, record, admittedId] using admitted

/-- No single change brings up a request that was not there. -/
theorem Move.mentions (h : Move host strict b c) (new : Mentions requestId c) :
    Mentions requestId b := by
  cases h with
  | quiet h =>
    unfold Mentions marks flightMark at new ⊢
    rw [h.pendingRequests, h.pendingNotices, h.inFlight, h.history] at new
    rcases new with waits | asked | rest
    · exact .inl waits
    · rcases h.resynchronization with same | gone
      · exact .inr (.inl (same ▸ asked))
      · rw [gone] at asked
        cases asked
    · exact .inr (.inr rest)
  | observe => exact mentions_record new rfl rfl
  | clean last => exact mentions_record new rfl rfl
  | lost idle next => exact new
  | @publish snapshot payload channel following idle opened next taken carries =>
    have sent : Mentions requestId (b.deliver channel following payload .snapshot) :=
      mentions_record new rfl rfl
    rcases mentions_record sent rfl rfl with waits | asked | marked | flying | rest
    · exact .inl waits
    · exact .inr (.inl asked)
    · exact .inr (.inr (.inl marked))
    · cases flying
    · exact .inr (.inr (.inr (.inr rest)))
  | @notice queued rest channel following idle opened next front free =>
    rcases mentions_record new rfl rfl with waits | asked | marked | flying | others
    · exact .inl waits
    · exact .inr (.inl asked)
    · refine .inr (.inr (.inl ?_))
      obtain ⟨other, listed, marked⟩ := List.mem_filterMap.mp marked
      rw [marks, front]
      exact List.mem_filterMap.mpr ⟨other, List.mem_cons_of_mem _ listed, marked⟩
    · refine .inr (.inr (.inl ?_))
      rw [marks, front]
      exact List.mem_filterMap.mpr ⟨queued, by simp, flying⟩
    · exact .inr (.inr (.inr (.inr others)))
  | @release queued rest front clean =>
    have same : ({ b with pendingNotices := { queued with waitForProjection := false } :: rest } :
        BridgeActor σ).marks = b.marks := by
      simp [marks, front, List.filterMap_cons]
    rcases new with waits | asked | marked | others
    · exact .inl waits
    · exact .inr (.inl asked)
    · exact .inr (.inr (.inl (same ▸ marked)))
    · exact .inr (.inr (.inr others))
  | @enqueue notice owed plain =>
    rcases mentions_enqueue new with old | terminal
    · exact old
    · exact owed.mentions terminal
  | @replace notice replaced owed plain found =>
    have kept := replaceNotice_marks found
    rcases new with waits | asked | marked | flying | received | admitted
    · exact .inl waits
    · exact .inr (.inl asked)
    · refine .inr (.inr (.inl ?_))
      rw [marks, ← kept]
      exact marked
    · exact .inr (.inr (.inr (.inl flying)))
    · simp only [receivedIds, record, List.filterMap_append, List.mem_append,
        List.mem_filterMap, List.mem_singleton] at received
      rcases received with old | ⟨entry, rfl, terminal⟩
      · exact .inr (.inr (.inr (.inr (.inl (List.mem_filterMap.mpr old)))))
      · exact owed.mentions terminal
    · refine .inr (.inr (.inr (.inr (.inr ?_))))
      simpa [admittedIds, record, admittedId] using admitted
  | @commit asking asked =>
    rcases new with waits | gone | rest
    · exact .inl waits
    · cases gone
    · rcases mentions_enqueue (.inr (.inr rest)) with old | terminal
      · exact old
      · cases terminal
        exact .inr (.inl asked)

end History

section Actions

variable (host : BridgeHost σ κ γ) (strict : Prop)

/-- What an event may begin with. -/
inductive Opening : BridgeActor σ → BridgeActor σ → Prop
  | none {b} : Opening b b
  | acknowledge {b frame} (flying : b.inFlight = some frame) : Opening b (b.settle frame)

/-- A change of the projections, or of the channel. -/
inductive Reset : BridgeActor σ → BridgeActor σ → Prop
  | change {b port source} : Reset b { b with source := source, unseen := port :: b.unseen }
  | refused {b revision} (idle : b.inFlight = none)
      (next : revision = b.nextRevision ∨ b.nextRevision.next = .ok revision) :
      Reset b { b with
        channel := none
        connections := b.connections + 1
        nextRevision := revision }
  | connect {b snapshot following} (idle : b.inFlight = none)
      (next : b.nextRevision.next = .ok following) (taken : b.snapshot host = .ok snapshot) :
      Reset b (({ b with channel := some b.connections, connections := b.connections + 1 }.deliver
        b.connections following (.snapshot .initial snapshot) .snapshot).reflect snapshot)

/-- The changes of a request of the renderer, beside those of the frames. -/
inductive Action : BridgeActor σ → BridgeActor σ → Prop
  | move {b c} (h : Move host strict b c) : Action b c
  | issue {b} : Action b { b with nextRequestId := b.nextRequestId + 1 }
  | insert {b} (requestId : RequestId) (issued : requestId.get < b.nextRequestId)
      (fresh : ¬ Mentions requestId b) :
      Action b { b with pendingRequests := requestId :: b.pendingRequests }
  | ask {b} (requestId : RequestId) (waits : requestId ∈ b.pendingRequests)
      (silent : requestId ∉ receivedIds b.history) :
      Action b { b with pendingResynchronization := some requestId }
  | enroll {b} (requestId : RequestId) (waits : requestId ∈ b.pendingRequests) :
      Action b (b.record (.admitted requestId))
  | withdraw {b} (requestId : RequestId) (silent : requestId ∉ receivedIds b.history)
      (unknown : requestId ∉ admittedIds b.history) :
      Action b { b with
        pendingResynchronization := none
        pendingRequests := b.pendingRequests.filter (· ≠ requestId) }

  | start {b} : Action b ({ b with
      shutdown := true
      shutdownStarted := true
      projectionDirty := true
      pendingResynchronization := none }.record .observed)

abbrev Actions : BridgeActor σ → BridgeActor σ → Prop := ReflTransGen (Action host strict)

/-- An event resets the channel or the projections, or it opens and goes on. -/
def Path (b c : BridgeActor σ) : Prop :=
  Reset host b c ∨ ∃ middle, Opening b middle ∧ Actions host strict middle c

variable {host strict} {b c : BridgeActor σ} {delivers : Bool} {requestId : RequestId}

theorem actions_of_moves (h : Moves host strict b c) : Actions host strict b c := by
  induction h with
  | refl => exact .refl
  | tail _ move ih => exact ih.tail (.move move)

theorem path_of_actions (h : Actions host strict b c) : Path host strict b c :=
  .inr ⟨b, .none, h⟩

theorem moves_mentions (h : Moves host strict b c) (new : Mentions requestId c) :
    Mentions requestId b := by
  induction h with
  | refl => exact new
  | tail _ move ih => exact ih (move.mentions new)

theorem Move.pendingRequests (h : Move host strict b c) : c.pendingRequests = b.pendingRequests := by
  cases h with
  | quiet h => exact h.pendingRequests
  | _ => rfl

theorem Move.kept (h : Move host strict b c) :
    c.nextRequestId = b.nextRequestId ∧ c.shutdownStarted = b.shutdownStarted := by
  cases h with
  | quiet h => exact ⟨h.nextRequestId, h.shutdownStarted⟩
  | _ => exact ⟨rfl, rfl⟩

theorem moves_kept (h : Moves host strict b c) :
    c.nextRequestId = b.nextRequestId ∧ c.shutdownStarted = b.shutdownStarted := by
  induction h with
  | refl => exact ⟨rfl, rfl⟩
  | tail _ move ih => exact ⟨move.kept.1.trans ih.1, move.kept.2.trans ih.2⟩

theorem moves_pendingRequests (h : Moves host strict b c) : c.pendingRequests = b.pendingRequests := by
  induction h with
  | refl => rfl
  | tail _ move ih => exact move.pendingRequests.trans ih

end Actions

end AutoHarness.BridgeActor
