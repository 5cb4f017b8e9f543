import AutoHarness.BridgeDelivery

open EventRun (run Along)

namespace AutoHarness.BridgeActor

open Client (ClientSnapshot ClientNotice RequestId ServerFrame FramePayload TransportRevision)

variable {σ κ γ : Type}

section Records

def sentId : BridgeRecord → Option RequestId
  | .sent _ ⟨_, .notice notice⟩ => terminalRequestId notice
  | _ => none

def acknowledgedId : BridgeRecord → Option RequestId
  | .acknowledged ⟨_, .notice queued⟩ => terminalRequestId queued.notice
  | _ => none

/-- The requests whose terminal notice has been sent, in order. -/
def sentIds (history : List BridgeRecord) : List RequestId := history.filterMap sentId

def acknowledgedIds (history : List BridgeRecord) : List RequestId :=
  history.filterMap acknowledgedId

/-- Whether a change of the projections has been observed that no frame reflects yet. -/
def stale (history : List BridgeRecord) : Bool :=
  history.foldl (fun dirty entry =>
    match entry with
    | .observed => true
    | .reflected => false
    | _ => dirty) true

/-- What had been observed when the notice arrived has been reflected by now. -/
def Reflects (history : List BridgeRecord) (notice : ClientNotice) : Prop :=
  ∀ earlier later, history = earlier ++ .received notice :: later →
    stale earlier = false ∨ BridgeRecord.reflected ∈ later

theorem stale_append (earlier later : List BridgeRecord)
    (reflected : BridgeRecord.reflected ∉ later) (dirty : stale earlier = true) :
    stale (earlier ++ later) = true := by
  induction later using List.reverseRecOn with
  | nil => simpa using dirty
  | append_singleton later entry ih =>
    simp only [List.mem_append, List.mem_singleton, not_or] at reflected
    have before := ih reflected.1
    simp only [stale, ← List.append_assoc, List.foldl_append, List.foldl_cons, List.foldl_nil]
    simp only [stale, List.foldl_append] at before
    cases entry with
    | reflected => exact absurd rfl reflected.2
    | observed => rfl
    | _ => exact before

theorem reflects_of_clean {history : List BridgeRecord} (clean : stale history = false)
    (notice : ClientNotice) : Reflects history notice := by
  rintro earlier later rfl
  by_contra neither
  simp only [not_or, Bool.not_eq_false] at neither
  have dirty := stale_append earlier (.received notice :: later) (by simp [neither.2]) neither.1
  rw [clean] at dirty
  cases dirty

/-- The last entry of a history is the one looked for, or it comes after it. -/
theorem concat_eq_split {history earlier later : List BridgeRecord} {last entry : BridgeRecord}
    (h : history ++ [last] = earlier ++ entry :: later) :
    (history = earlier ∧ last = entry ∧ later = []) ∨
      ∃ rest, later = rest ++ [last] ∧ history = earlier ++ entry :: rest := by
  cases later using List.reverseRecOn with
  | nil =>
    obtain ⟨same, final⟩ := List.append_inj' h rfl
    exact .inl ⟨same, List.cons.inj final |>.1, rfl⟩
  | append_singleton rest other =>
    rw [← List.cons_append, ← List.append_assoc] at h
    obtain ⟨same, final⟩ := List.append_inj' h rfl
    cases (List.cons.inj final).1
    exact .inr ⟨rest, rfl, same⟩

theorem Reflects.concat {history : List BridgeRecord} {notice : ClientNotice} {entry : BridgeRecord}
    (h : Reflects history notice) (other : entry ≠ .received notice) :
    Reflects (history ++ [entry]) notice := by
  intro earlier later split
  rcases concat_eq_split split with ⟨-, same, -⟩ | ⟨rest, rfl, before⟩
  · exact absurd same other
  · rcases h earlier rest before with clean | reflected
    · exact .inl clean
    · exact .inr (List.mem_append_left _ reflected)

end Records

section Invariant

/-- What holds of the requests that wait for their notices. -/
structure Settles (b : BridgeActor σ) : Prop where
  marked : ∀ queued ∈ b.pendingNotices, queued.terminalRequestId = terminalRequestId queued.notice
  carried : ∀ revision queued, b.inFlight = some ⟨revision, .notice queued⟩ →
    queued.terminalRequestId = terminalRequestId queued.notice
  received : receivedIds b.history = sentIds b.history ++ b.marks
  sent : sentIds b.history = acknowledgedIds b.history ++ b.flightMark.toList
  once : (receivedIds b.history).Nodup
  waits : ∀ requestId, requestId ∈ b.marks ∨ b.flightMark = some requestId →
    requestId ∈ b.pendingRequests
  settled : ∀ requestId ∈ acknowledgedIds b.history, requestId ∉ b.pendingRequests
  admitted : ∀ requestId ∈ admittedIds b.history,
    requestId ∈ b.pendingRequests ∨ requestId ∈ acknowledgedIds b.history
  asked : ∀ requestId, b.pendingResynchronization = some requestId →
    requestId ∈ b.pendingRequests ∧ requestId ∉ receivedIds b.history
  dirty : b.projectionDirty = stale b.history
  held : ∀ queued ∈ b.pendingNotices, (terminalRequestId queued.notice).isSome = true →
    queued.waitForProjection = true ∨ Reflects b.history queued.notice
  reflected : ∀ earlier channel revision notice later,
    b.history = earlier ++ .sent channel ⟨revision, .notice notice⟩ :: later →
      (terminalRequestId notice).isSome = true → Reflects earlier notice

variable {host : BridgeHost σ κ γ} {b c : BridgeActor σ}

theorem settles_new (source : σ) : (new source).Settles where
  marked := fun _ listed => by cases listed
  carried := fun _ _ flying => by cases flying
  received := rfl
  sent := rfl
  once := .nil
  waits := fun _ h => by rcases h with h | h <;> cases h
  settled := fun _ listed => by cases listed
  admitted := fun _ listed => by cases listed
  asked := fun _ asked => by cases asked
  dirty := rfl
  held := fun _ listed => by cases listed
  reflected := fun earlier _ _ _ _ split => by cases earlier <;> cases split

/-- An entry that says nothing of requests and frames, and leaves the rest as it was. -/
theorem Settles.note (s : b.Settles) {entry : BridgeRecord} (history : c.history = b.history ++ [entry])
    (received : receivedId entry = none) (sent : sentId entry = none)
    (acknowledged : acknowledgedId entry = none)
    (known : ∀ requestId, admittedId entry = some requestId → requestId ∈ b.pendingRequests)
    (unseen : ∀ queued ∈ b.pendingNotices, (terminalRequestId queued.notice).isSome = true →
      entry ≠ .received queued.notice)
    (notices : c.pendingNotices = b.pendingNotices) (flight : c.flightMark = b.flightMark)
    (carried : ∀ revision queued, c.inFlight = some ⟨revision, .notice queued⟩ →
      b.inFlight = some ⟨revision, .notice queued⟩)
    (requests : c.pendingRequests = b.pendingRequests)
    (resync : c.pendingResynchronization = b.pendingResynchronization ∨
      c.pendingResynchronization = none)
    (dirty : c.projectionDirty = stale (b.history ++ [entry])) : c.Settles := by
  have receivedSame : receivedIds c.history = receivedIds b.history := by
    rw [history]
    simp [receivedIds, received]
  have sentSame : sentIds c.history = sentIds b.history := by
    rw [history]
    simp [sentIds, sent]
  have acknowledgedSame : acknowledgedIds c.history = acknowledgedIds b.history := by
    rw [history]
    simp [acknowledgedIds, acknowledged]
  have admittedMore : ∀ requestId ∈ admittedIds c.history,
      requestId ∈ admittedIds b.history ∨ requestId ∈ b.pendingRequests := by
    intro requestId listed
    rw [history, admittedIds, List.filterMap_append] at listed
    rcases List.mem_append.mp listed with old | new
    · exact .inl old
    · obtain ⟨other, listed, made⟩ := List.mem_filterMap.mp new
      cases List.mem_singleton.mp listed
      exact .inr (known requestId made)
  have marksSame : c.marks = b.marks := by rw [marks, notices, marks]
  refine ⟨?_, ?_, ?_, ?_, ?_, ?_, ?_, ?_, ?_, ?_, ?_, ?_⟩
  · rw [notices]
    exact s.marked
  · exact fun revision queued flying => s.carried revision queued (carried revision queued flying)
  · rw [receivedSame, sentSame, marksSame]
    exact s.received
  · rw [sentSame, acknowledgedSame, flight]
    exact s.sent
  · rw [receivedSame]
    exact s.once
  · rw [marksSame, flight, requests]
    exact s.waits
  · rw [acknowledgedSame, requests]
    exact s.settled
  · rw [acknowledgedSame, requests]
    intro requestId listed
    rcases admittedMore requestId listed with old | new
    · exact s.admitted requestId old
    · exact .inl new
  · rw [receivedSame, requests]
    intro requestId asked
    rcases resync with same | gone
    · exact s.asked requestId (same ▸ asked)
    · rw [gone] at asked
      cases asked
  · rw [history]
    exact dirty
  · rw [notices, history]
    intro queued listed terminal
    rcases s.held queued listed terminal with wait | reflects
    · exact .inl wait
    · exact .inr (reflects.concat (unseen queued listed terminal))
  · rw [history]
    intro earlier channel revision notice later split terminal
    rcases concat_eq_split split with ⟨-, rfl, -⟩ | ⟨rest, -, before⟩
    · rw [sentId] at sent
      rw [sent] at terminal
      cases terminal
    · exact s.reflected earlier channel revision notice rest before terminal

theorem stale_concat (history : List BridgeRecord) (entry : BridgeRecord) :
    stale (history ++ [entry]) = match entry with
      | .observed => true
      | .reflected => false
      | _ => stale history := by
  simp only [stale, List.foldl_append, List.foldl_cons, List.foldl_nil]

/-- Nothing that the invariant reads has changed. -/
theorem Settles.of_same (s : b.Settles) (history : c.history = b.history)
    (notices : c.pendingNotices = b.pendingNotices) (flight : c.inFlight = b.inFlight)
    (requests : c.pendingRequests = b.pendingRequests)
    (resync : c.pendingResynchronization = b.pendingResynchronization ∨
      c.pendingResynchronization = none)
    (dirty : c.projectionDirty = b.projectionDirty) : c.Settles := by
  have marksSame : c.marks = b.marks := by rw [marks, notices, marks]
  have flightSame : c.flightMark = b.flightMark := by rw [flightMark, flight, flightMark]
  refine ⟨?_, ?_, ?_, ?_, ?_, ?_, ?_, ?_, ?_, ?_, ?_, ?_⟩
  · rw [notices]
    exact s.marked
  · rw [flight]
    exact s.carried
  · rw [history, marksSame]
    exact s.received
  · rw [history, flightSame]
    exact s.sent
  · rw [history]
    exact s.once
  · rw [marksSame, flightSame, requests]
    exact s.waits
  · rw [history, requests]
    exact s.settled
  · rw [history, requests]
    exact s.admitted
  · rw [history, requests]
    intro requestId asked
    rcases resync with same | gone
    · exact s.asked requestId (same ▸ asked)
    · rw [gone] at asked
      cases asked
  · rw [history, dirty]
    exact s.dirty
  · rw [history, notices]
    exact s.held
  · rw [history]
    exact s.reflected

theorem Settles.reflect (s : b.Settles) (snapshot : ClientSnapshot) :
    (b.reflect snapshot).Settles := by
  refine s.note rfl rfl rfl rfl (fun _ h => by cases h) (fun _ _ _ h => by cases h) rfl rfl (fun _ _ flying => flying) rfl
    (.inl rfl) ?_
  rw [stale_concat]
  rfl

/-- A frame that carries no notice. -/
theorem Settles.deliver (s : b.Settles) {channel : Nat} {following : TransportRevision}
    {payload : FramePayload} (idle : b.inFlight = none)
    (silent : sentId (.sent channel ⟨b.nextRevision, payload⟩) = none) :
    (b.deliver channel following payload .snapshot).Settles := by
  refine s.note rfl rfl silent rfl (fun _ h => by cases h) (fun _ _ _ h => by cases h) rfl ?_ ?_ rfl (.inl rfl) ?_
  · simp [flightMark, BridgeActor.deliver, record, idle]
  · intro revision queued flying
    cases flying
  · rw [stale_concat]
    exact s.dirty

theorem Carries.silent {last : Option ClientSnapshot} {snapshot : ClientSnapshot}
    {payload : FramePayload} (h : Carries last snapshot payload) (channel : Nat)
    (revision : TransportRevision) : sentId (.sent channel ⟨revision, payload⟩) = none := by
  cases h <;> rfl

/-- The first queued notice goes out. -/
theorem Settles.sendNotice (s : b.Settles) {queued : QueuedNotice} {rest : List QueuedNotice}
    {channel : Nat} {following : TransportRevision} (idle : b.inFlight = none)
    (front : b.pendingNotices = queued :: rest) (free : queued.waitForProjection = false) :
    ({ b with pendingNotices := rest }.deliver channel following (.notice queued.notice)
      (.notice queued)).Settles := by
  have mark := s.marked queued (by simp [front])
  have landed : b.flightMark = none := by rw [flightMark, idle]
  have marksSplit : b.marks = queued.terminalRequestId.toList ++
      rest.filterMap (·.terminalRequestId) := by
    rw [marks, front, List.filterMap_cons]
    cases queued.terminalRequestId <;> rfl
  have sentMore : sentIds (b.history ++ [.sent channel ⟨b.nextRevision, .notice queued.notice⟩]) =
      sentIds b.history ++ queued.terminalRequestId.toList := by
    rw [sentIds, List.filterMap_append, mark]
    simp only [sentIds, List.filterMap_cons, List.filterMap_nil, sentId]
    cases terminalRequestId queued.notice <;> rfl
  have kept : ∀ f : BridgeRecord → Option RequestId,
      f (.sent channel ⟨b.nextRevision, .notice queued.notice⟩) = none →
      (b.history ++ [BridgeRecord.sent channel ⟨b.nextRevision, .notice queued.notice⟩]).filterMap f =
        b.history.filterMap f := by
    intro f silent
    simp [silent]
  have receivedSame := kept receivedId rfl
  have acknowledgedSame := kept acknowledgedId rfl
  have admittedSame := kept admittedId rfl
  refine ⟨?_, ?_, ?_, ?_, ?_, ?_, ?_, ?_, ?_, ?_, ?_, ?_⟩
  · exact fun other listed => s.marked other (by rw [front]; exact List.mem_cons_of_mem _ listed)
  · intro revision other flying
    cases flying
    exact mark
  · show receivedIds (b.history ++ _) = sentIds (b.history ++ _) ++ rest.filterMap (·.terminalRequestId)
    rw [receivedIds, receivedSame, sentMore, List.append_assoc, ← marksSplit]
    exact s.received
  · show sentIds (b.history ++ _) = acknowledgedIds (b.history ++ _) ++ queued.terminalRequestId.toList
    have before := s.sent
    rw [landed, Option.toList_none, List.append_nil] at before
    rw [sentMore, acknowledgedIds, acknowledgedSame, before]
    rfl
  · show (receivedIds (b.history ++ _)).Nodup
    rw [receivedIds, receivedSame]
    exact s.once
  · intro requestId h
    refine s.waits requestId (.inl ?_)
    rw [marksSplit]
    rcases h with marked | flying
    · exact List.mem_append_right _ marked
    · have flies : queued.terminalRequestId = some requestId := flying
      simp [flies]
  · show ∀ requestId ∈ acknowledgedIds (b.history ++ _), _
    rw [acknowledgedIds, acknowledgedSame]
    exact s.settled
  · show ∀ requestId ∈ admittedIds (b.history ++ _), _ ∨ requestId ∈ acknowledgedIds (b.history ++ _)
    rw [admittedIds, acknowledgedIds, admittedSame, acknowledgedSame]
    exact s.admitted
  · show ∀ requestId, _ → _ ∧ requestId ∉ receivedIds (b.history ++ _)
    rw [receivedIds, receivedSame]
    exact s.asked
  · show b.projectionDirty = stale (b.history ++ _)
    rw [stale_concat]
    exact s.dirty
  · intro other listed terminal
    rcases s.held other (by rw [front]; exact List.mem_cons_of_mem _ listed) terminal with wait | reflects
    · exact .inl wait
    · exact .inr (reflects.concat fun h => by cases h)
  · intro earlier onChannel revision notice later split terminal
    rcases concat_eq_split split with ⟨rfl, same, -⟩ | ⟨others, -, before⟩
    · cases same
      rcases s.held queued (by simp [front]) terminal with wait | reflects
      · rw [free] at wait
        cases wait
      · exact reflects
    · exact s.reflected earlier onChannel revision notice others before terminal

theorem Settles.release (s : b.Settles) {queued : QueuedNotice} {rest : List QueuedNotice}
    (front : b.pendingNotices = queued :: rest) (clean : b.projectionDirty = false) :
    ({ b with pendingNotices := { queued with waitForProjection := false } :: rest } :
      BridgeActor σ).Settles := by
  have marksSame : ({ b with pendingNotices := { queued with waitForProjection := false } :: rest } :
      BridgeActor σ).marks = b.marks := by
    simp [marks, front, List.filterMap_cons]
  have listed : ∀ other ∈ ({ queued with waitForProjection := false } :: rest : List QueuedNotice),
      ∃ old ∈ b.pendingNotices, old.notice = other.notice ∧
        old.terminalRequestId = other.terminalRequestId := by
    intro other h
    rw [front]
    rcases List.mem_cons.mp h with rfl | h
    · exact ⟨queued, by simp, rfl, rfl⟩
    · exact ⟨other, List.mem_cons_of_mem _ h, rfl, rfl⟩
  refine ⟨?_, s.carried, ?_, s.sent, s.once, ?_, s.settled, s.admitted, s.asked, s.dirty, ?_, s.reflected⟩
  · intro other h
    obtain ⟨old, known, notice, mark⟩ := listed other h
    rw [← notice, ← mark]
    exact s.marked old known
  · rw [marksSame]
    exact s.received
  · rw [marksSame]
    exact s.waits
  · intro other _ _
    exact .inr (reflects_of_clean (s.dirty.symm.trans clean) other.notice)

/-- A notice is queued for a request that waits for it and has been sent none. -/
theorem Settles.enqueue (s : b.Settles) {notice : ClientNotice}
    (waits : ∀ requestId, terminalRequestId notice = some requestId →
      requestId ∈ b.pendingRequests ∧ requestId ∉ receivedIds b.history)
    (resync : ∀ requestId, c.pendingResynchronization = some requestId →
      b.pendingResynchronization = some requestId ∧ terminalRequestId notice ≠ some requestId)
    (made : c = { b.enqueue notice (terminalRequestId notice) with
      pendingResynchronization := c.pendingResynchronization }) : c.Settles := by
  have history : c.history = b.history ++ [.received notice] := by rw [made]; rfl
  have notices : c.pendingNotices = b.pendingNotices ++ [⟨notice, terminalRequestId notice,
      b.projectionDirty && ((terminalRequestId notice).isSome || isShutdownNotice notice)⟩] := by
    rw [made]
    rfl
  have flight : c.inFlight = b.inFlight := by rw [made]; rfl
  have requests : c.pendingRequests = b.pendingRequests := by rw [made]; rfl
  have dirty : c.projectionDirty = b.projectionDirty := by rw [made]; rfl
  have flightSame : c.flightMark = b.flightMark := by rw [flightMark, flight, flightMark]
  have marksMore : c.marks = b.marks ++ (terminalRequestId notice).toList := by
    rw [marks, notices, List.filterMap_append]
    cases h : terminalRequestId notice <;> simp [marks]
  have receivedMore : receivedIds c.history = receivedIds b.history ++
      (terminalRequestId notice).toList := by
    rw [history, receivedIds, List.filterMap_append]
    cases h : terminalRequestId notice <;> simp [receivedIds, receivedId, h]
  have sentSame : sentIds c.history = sentIds b.history := by
    rw [history]
    simp [sentIds, sentId]
  have acknowledgedSame : acknowledgedIds c.history = acknowledgedIds b.history := by
    rw [history]
    simp [acknowledgedIds, acknowledgedId]
  have admittedSame : admittedIds c.history = admittedIds b.history := by
    rw [history]
    simp [admittedIds, admittedId]
  refine ⟨?_, ?_, ?_, ?_, ?_, ?_, ?_, ?_, ?_, ?_, ?_, ?_⟩
  · rw [notices]
    intro queued listed
    rcases List.mem_append.mp listed with old | new
    · exact s.marked queued old
    · cases List.mem_singleton.mp new
      rfl
  · rw [flight]
    exact s.carried
  · rw [receivedMore, sentSame, marksMore, s.received, List.append_assoc]
  · rw [sentSame, acknowledgedSame, flightSame]
    exact s.sent
  · rw [receivedMore]
    cases terminal : terminalRequestId notice with
    | none => simpa using s.once
    | some requestId =>
      have fresh := (waits requestId terminal).2
      refine List.nodup_append.mpr ⟨s.once, by simp, fun other old new h => ?_⟩
      intro same
      cases List.mem_singleton.mp h
      exact fresh (same ▸ old)
  · rw [marksMore, flightSame, requests]
    rintro requestId (marked | flying)
    · rcases List.mem_append.mp marked with old | new
      · exact s.waits requestId (.inl old)
      · exact (waits requestId (by simpa [eq_comm] using new)).1
    · exact s.waits requestId (.inr flying)
  · rw [acknowledgedSame, requests]
    exact s.settled
  · rw [admittedSame, acknowledgedSame, requests]
    exact s.admitted
  · rw [receivedMore, requests]
    intro requestId asked
    obtain ⟨before, other⟩ := resync requestId asked
    obtain ⟨waiting, silent⟩ := s.asked requestId before
    refine ⟨waiting, fun listed => ?_⟩
    rcases List.mem_append.mp listed with old | new
    · exact silent old
    · exact other (by simpa [eq_comm] using new)
  · rw [dirty, history, stale_concat]
    exact s.dirty
  · rw [notices, history]
    intro queued listed terminal
    rcases List.mem_append.mp listed with old | new
    · rcases s.held queued old terminal with wait | reflects
      · exact .inl wait
      · refine .inr (reflects.concat fun h => ?_)
        obtain ⟨requestId, settles⟩ := Option.isSome_iff_exists.mp terminal
        have same : notice = queued.notice := by cases h; rfl
        have mark : requestId ∈ b.marks := List.mem_filterMap.mpr
          ⟨queued, old, (s.marked queued old).trans settles⟩
        refine (waits requestId (same ▸ settles)).2 ?_
        rw [s.received]
        exact List.mem_append_right _ mark
    · cases List.mem_singleton.mp new
      by_cases clean : b.projectionDirty = true
      · exact .inl (by simp [clean, terminal])
      · refine .inr fun earlier later split => ?_
        have unstale : stale b.history = false := by
          rw [← s.dirty]
          simpa using clean
        rcases concat_eq_split split with ⟨rfl, -, -⟩ | ⟨rest, rfl, before⟩
        · exact .inl unstale
        · rcases reflects_of_clean unstale notice earlier rest before with old | reflected
          · exact .inl old
          · exact .inr (List.mem_append_left _ reflected)
  · rw [history]
    intro earlier channel revision other later split terminal
    rcases concat_eq_split split with ⟨-, h, -⟩ | ⟨rest, -, before⟩
    · cases h
    · exact s.reflected earlier channel revision other rest before terminal

theorem mem_replaceNotice {notice : ClientNotice} {queue replaced : List QueuedNotice}
    (h : replaceNotice notice queue = some replaced) :
    (∃ old ∈ queue, sameAuthentication notice old = true) ∧ ∀ queued ∈ replaced, queued ∈ queue ∨
      ∃ old ∈ queue, sameAuthentication notice old = true ∧ queued = { old with notice := notice } := by
  induction queue generalizing replaced with
  | nil => cases h
  | cons first rest ih =>
    unfold replaceNotice at h
    split at h
    next same =>
      cases Option.some.inj h
      refine ⟨⟨first, by simp, same⟩, fun queued listed => ?_⟩
      rcases List.mem_cons.mp listed with rfl | listed
      · exact .inr ⟨first, by simp, same, rfl⟩
      · exact .inl (List.mem_cons_of_mem _ listed)
    next =>
      obtain ⟨replaced, found, rfl⟩ := Option.map_eq_some_iff.mp h
      obtain ⟨⟨old, known, same⟩, all⟩ := ih found
      refine ⟨⟨old, List.mem_cons_of_mem _ known, same⟩, fun queued listed => ?_⟩
      rcases List.mem_cons.mp listed with rfl | listed
      · exact .inl (by simp)
      · rcases all queued listed with kept | ⟨old, known, same, made⟩
        · exact .inl (List.mem_cons_of_mem _ kept)
        · exact .inr ⟨old, List.mem_cons_of_mem _ known, same, made⟩

/-- A notice that settles nothing takes the place of another such one. -/
theorem Settles.replace (s : b.Settles) {notice : ClientNotice} {replaced : List QueuedNotice}
    (found : replaceNotice notice b.pendingNotices = some replaced) (plain : b.Plain notice) :
    ({ b with pendingNotices := replaced }.record (.received notice)).Settles := by
  obtain ⟨⟨first, known, same⟩, all⟩ := mem_replaceNotice found
  have open_ : terminalRequestId notice = none := (plain.1 first known same).2
  have marksSame : ({ b with pendingNotices := replaced } : BridgeActor σ).marks = b.marks :=
    replaceNotice_marks found
  have listed : ∀ queued ∈ replaced, (terminalRequestId queued.notice).isSome = true →
      queued ∈ b.pendingNotices := by
    intro queued h terminal
    rcases all queued h with old | ⟨old, -, -, rfl⟩
    · exact old
    · rw [open_] at terminal
      cases terminal
  have plainly : ({ b with pendingNotices := replaced } : BridgeActor σ).Settles := by
    refine ⟨?_, s.carried, ?_, s.sent, s.once, ?_, s.settled, s.admitted, s.asked, s.dirty, ?_,
      s.reflected⟩
    · intro queued h
      rcases all queued h with old | ⟨old, member, match_, rfl⟩
      · exact s.marked queued old
      · have before := (plain.1 old member match_).1
        show old.terminalRequestId = terminalRequestId notice
        rw [s.marked old member, before, open_]
    · rw [marksSame]
      exact s.received
    · rw [marksSame]
      exact s.waits
    · exact fun queued h terminal => s.held queued (listed queued h terminal) terminal
  refine plainly.note rfl open_ rfl rfl (fun _ h => by cases h) ?_ rfl rfl (fun _ _ flying => flying) rfl (.inl rfl) ?_
  · intro queued _ terminal h
    cases h
    rw [open_] at terminal
    cases terminal
  · rw [stale_concat]
    exact s.dirty

/-- The frame in flight has arrived, and settles the request that it was for. -/
theorem mem_settle_pendingRequests {revision : TransportRevision} {queued : QueuedNotice}
    {requestId : RequestId} :
    requestId ∈ (b.settle ⟨revision, .notice queued⟩).pendingRequests ↔
      requestId ∈ b.pendingRequests ∧ queued.terminalRequestId ≠ some requestId := by
  obtain ⟨notice, mark⟩ := queued
  cases mark with
  | none => simp [BridgeActor.settle, record]
  | some settled =>
    simp only [BridgeActor.settle, record, List.mem_filter, decide_eq_true_eq, ne_eq,
      Option.some.injEq]
    exact and_congr_right fun _ => not_congr eq_comm

theorem Settles.settle (s : b.Settles) {frame : InFlightFrame} (flying : b.inFlight = some frame) :
    (b.settle frame).Settles := by
  obtain ⟨revision, payload⟩ := frame
  cases payload with
  | snapshot =>
    refine s.note rfl rfl rfl rfl (fun _ h => by cases h) (fun _ _ _ h => by cases h) rfl ?_ ?_ rfl (.inl rfl) ?_
    · rw [flightMark, flightMark, flying]
      rfl
    · intro other queued h
      cases h
    · rw [stale_concat]
      exact s.dirty
  | notice queued =>
    have mark := s.carried revision queued flying
    have landing : b.flightMark = queued.terminalRequestId := by rw [flightMark, flying]
    have flown := s.sent
    rw [landing] at flown
    have acknowledgedMore : acknowledgedIds (b.history ++ [.acknowledged ⟨revision, .notice queued⟩]) =
        acknowledgedIds b.history ++ queued.terminalRequestId.toList := by
      rw [acknowledgedIds, List.filterMap_append, mark]
      simp only [acknowledgedIds, List.filterMap_cons, List.filterMap_nil, acknowledgedId]
      cases terminalRequestId queued.notice <;> rfl
    have kept : ∀ f : BridgeRecord → Option RequestId,
        f (.acknowledged ⟨revision, .notice queued⟩) = none →
        (b.history ++ [BridgeRecord.acknowledged ⟨revision, .notice queued⟩]).filterMap f =
          b.history.filterMap f := by
      intro f silent
      simp [silent]
    have receivedSame := kept receivedId rfl
    have sentSame := kept sentId rfl
    have admittedSame := kept admittedId rfl
    have requests : ∀ requestId, requestId ∈ (b.settle ⟨revision, .notice queued⟩).pendingRequests ↔
        requestId ∈ b.pendingRequests ∧ queued.terminalRequestId ≠ some requestId :=
      fun _ => mem_settle_pendingRequests
    have distinct : ∀ requestId, queued.terminalRequestId = some requestId → requestId ∉ b.marks := by
      intro requestId settles listed
      have once := s.once
      rw [s.received, flown, settles] at once
      have apart := (List.nodup_append.mp once).2.2 requestId (by simp) requestId listed
      exact apart rfl
    refine ⟨s.marked, (fun other queued h => by cases h), ?_, ?_, ?_, ?_, ?_, ?_, ?_, ?_, ?_, ?_⟩
    · show receivedIds (b.history ++ _) = sentIds (b.history ++ _) ++ b.marks
      rw [receivedIds, sentIds, receivedSame, sentSame]
      exact s.received
    · show sentIds (b.history ++ _) = acknowledgedIds (b.history ++ _) ++ []
      rw [sentIds, sentSame, acknowledgedMore, List.append_nil]
      exact flown
    · show (receivedIds (b.history ++ _)).Nodup
      rw [receivedIds, receivedSame]
      exact s.once
    · rintro requestId (marked | h)
      · have listed : requestId ∈ b.marks := marked
        exact (requests requestId).mpr ⟨s.waits requestId (.inl listed), fun settles =>
          distinct requestId settles listed⟩
      · cases h
    · show ∀ requestId ∈ acknowledgedIds (b.history ++ _), _
      rw [acknowledgedMore]
      intro requestId listed waits
      obtain ⟨waiting, other⟩ := (requests requestId).mp waits
      rcases List.mem_append.mp listed with old | new
      · exact s.settled requestId old waiting
      · exact other (by simpa using new)
    · show ∀ requestId ∈ admittedIds (b.history ++ _), _ ∨ requestId ∈ acknowledgedIds (b.history ++ _)
      rw [admittedIds, admittedSame, acknowledgedMore]
      intro requestId listed
      rcases s.admitted requestId listed with waits | gone
      · by_cases settles : queued.terminalRequestId = some requestId
        · exact .inr (List.mem_append_right _ (by simp [settles]))
        · exact .inl ((requests requestId).mpr ⟨waits, settles⟩)
      · exact .inr (List.mem_append_left _ gone)
    · show ∀ requestId, _ → _ ∧ requestId ∉ receivedIds (b.history ++ _)
      rw [receivedIds, receivedSame]
      intro requestId asked
      obtain ⟨waits, silent⟩ := s.asked requestId asked
      refine ⟨(requests requestId).mpr ⟨waits, fun settles => silent ?_⟩, silent⟩
      show requestId ∈ receivedIds b.history
      rw [s.received, flown, settles]
      simp
    · show b.projectionDirty = stale (b.history ++ _)
      rw [stale_concat]
      exact s.dirty
    · intro other listed terminal
      rcases s.held other listed terminal with wait | reflects
      · exact .inl wait
      · exact .inr (reflects.concat fun h => by cases h)
    · intro earlier channel other notice later split terminal
      rcases concat_eq_split split with ⟨-, h, -⟩ | ⟨rest, -, before⟩
      · cases h
      · exact s.reflected earlier channel other notice rest before terminal

end Invariant

section Runs

variable {host : BridgeHost σ κ γ} {b c : BridgeActor σ}

theorem Move.settles (h : Move host True b c) (s : b.Settles) : c.Settles := by
  cases h with
  | quiet h =>
    exact s.of_same h.history h.pendingNotices h.inFlight h.pendingRequests h.resynchronization
      h.projectionDirty
  | observe =>
    refine s.note rfl rfl rfl rfl (fun _ h => by cases h) (fun _ _ _ h => by cases h) rfl rfl (fun _ _ flying => flying) rfl
      (.inl rfl) ?_
    rw [stale_concat]
    rfl
  | clean last => exact s.reflect _
  | lost idle next => exact s.of_same rfl rfl rfl rfl (.inl rfl) rfl
  | publish idle opened next taken carries => exact (s.deliver idle (carries.silent _ _)).reflect _
  | notice idle opened next front free => exact s.sendNotice idle front free
  | release front clean => exact s.release front clean
  | @enqueue notice owed plain =>
    refine s.enqueue (fun requestId settles => ?_) (fun requestId asked => ?_) rfl
    · obtain ⟨waits, silent⟩ := owed requestId settles
      refine ⟨waits, fun listed => ?_⟩
      rw [s.received, s.sent] at listed
      simp only [List.mem_append, Option.mem_toList] at listed
      have outstanding : ¬ (requestId ∈ b.marks ∨ b.flightMark = some requestId) := by
        rw [← terminalNoticeOutstanding_iff, silent]
        simp
      rcases listed with (gone | flying) | marked
      · exact s.settled requestId gone waits
      · exact outstanding (.inr flying)
      · exact outstanding (.inl marked)
    · exact ⟨asked, fun settles => (plain trivial).2 requestId settles asked⟩
  | replace owed plain found => exact s.replace found (plain trivial)
  | @commit requestId asked =>
    have waits : ∀ other, terminalRequestId (.commandCommitted requestId) = some other →
        other ∈ b.pendingRequests ∧ other ∉ receivedIds b.history := by
      intro other settles
      cases settles
      exact s.asked requestId asked
    exact s.enqueue waits (fun other asked => by cases asked) rfl

theorem Action.settles (h : Action host True b c) (s : b.Settles) : c.Settles := by
  cases h with
  | move h => exact h.settles s
  | issue => exact s.of_same rfl rfl rfl rfl (.inl rfl) rfl
  | insert requestId issued fresh =>
    have unsettled : requestId ∉ acknowledgedIds b.history := by
      intro gone
      refine fresh (.inr (.inr (.inr (.inr (.inl ?_)))))
      rw [s.received, s.sent]
      simp [gone]
    refine ⟨s.marked, s.carried, s.received, s.sent, s.once, ?_, ?_, ?_, ?_, s.dirty, s.held, s.reflected⟩
    · exact fun other h => List.mem_cons_of_mem _ (s.waits other h)
    · intro other gone waits
      rcases List.mem_cons.mp waits with rfl | waits
      · exact unsettled gone
      · exact s.settled other gone waits
    · intro other listed
      rcases s.admitted other listed with waits | gone
      · exact .inl (List.mem_cons_of_mem _ waits)
      · exact .inr gone
    · intro other asked
      obtain ⟨waits, silent⟩ := s.asked other asked
      exact ⟨List.mem_cons_of_mem _ waits, silent⟩
  | ask requestId waits silent =>
    refine ⟨s.marked, s.carried, s.received, s.sent, s.once, s.waits, s.settled, s.admitted, ?_, s.dirty,
      s.held, s.reflected⟩
    intro other asked
    cases asked
    exact ⟨waits, silent⟩
  | enroll requestId waits =>
    refine s.note rfl rfl rfl rfl (fun other h => ?_) (fun _ _ _ h => by cases h) rfl rfl
      (fun _ _ flying => flying) rfl (.inl rfl) ?_
    · cases h
      exact waits
    · rw [stale_concat]
      exact s.dirty
  | withdraw requestId silent unknown =>
    have others : ∀ other, other ∈ b.pendingRequests → other ≠ requestId →
        other ∈ b.pendingRequests.filter (· ≠ requestId) :=
      fun other waits apart => List.mem_filter.mpr ⟨waits, by simpa using apart⟩
    refine ⟨s.marked, s.carried, s.received, s.sent, s.once, ?_, ?_, ?_, (fun other asked => by cases asked),
      s.dirty, s.held, s.reflected⟩
    · intro other h
      refine others other (s.waits other h) ?_
      rintro rfl
      refine silent ?_
      rw [s.received, s.sent]
      rcases h with marked | flying
      · exact List.mem_append_right _ marked
      · have flies : b.flightMark = some other := flying
        simp [flies]
    · exact fun other gone waits => s.settled other gone (List.mem_of_mem_filter waits)
    · intro other listed
      rcases s.admitted other listed with waits | gone
      · refine .inl (others other waits ?_)
        rintro rfl
        exact unknown listed
      · exact .inr gone
  | start =>
    refine s.note rfl rfl rfl rfl (fun _ h => by cases h) (fun _ _ _ h => by cases h) rfl rfl (fun _ _ flying => flying) rfl
      (.inr rfl) ?_
    rw [stale_concat]
    rfl

theorem Path.settles (h : Path host True b c) (s : b.Settles) : c.Settles := by
  rcases h with reset | ⟨middle, opening, actions⟩
  · cases reset with
    | change => exact s.of_same rfl rfl rfl rfl (.inl rfl) rfl
    | refused idle next => exact s.of_same rfl rfl rfl rfl (.inl rfl) rfl
    | connect idle next taken =>
      have opened : ({ b with channel := some b.connections, connections := b.connections + 1 } :
          BridgeActor σ).Settles := s.of_same rfl rfl rfl rfl (.inl rfl) rfl
      exact (opened.deliver idle rfl).reflect _
  · have opened : middle.Settles := by
      cases opening with
      | none => exact s
      | acknowledge flying => exact s.settle flying
    clear opening
    induction actions with
    | refl => exact opened
    | tail _ action ih => exact action.settles ih

/-- An admitted request waits until its terminal notice is acknowledged and no longer, no terminal
notice is sent twice, and none is sent before what had been observed when it arrived. -/
structure Settled (b : BridgeActor σ) : Prop where
  waiting : ∀ requestId ∈ admittedIds b.history,
    (requestId ∈ b.pendingRequests ↔ requestId ∉ acknowledgedIds b.history)
  once : (sentIds b.history).Nodup
  reflected : ∀ earlier channel revision notice later,
    b.history = earlier ++ .sent channel ⟨revision, .notice notice⟩ :: later →
      (terminalRequestId notice).isSome = true → Reflects earlier notice

theorem Settles.outcome (s : b.Settles) : b.Settled := by
  refine ⟨fun requestId listed => ?_, ?_, s.reflected⟩
  · constructor
    · exact fun waits gone => s.settled requestId gone waits
    · exact fun pending => (s.admitted requestId listed).resolve_right pending
  · have once := s.once
    rw [s.received] at once
    exact (List.nodup_append.mp once).1

/-- Requests are settled in every run whose notices are plain. -/
theorem bridge_settles (host : BridgeHost σ κ γ) (source : σ) (events : List (Event σ κ γ))
    (plain : Along (step host) (fun b event => event.Permitted host b) (new source) events) :
    ∀ before, before <+: events → (run (step host) (new source) before).Settled := by
  intro before h
  have start : (new source).Numbered ∧ (new source).Settles := ⟨numbered_new source, settles_new source⟩
  have held := EventRun.forall_prefix (I := fun b : BridgeActor σ => b.Numbered ∧ b.Settles)
    (fun b event held permitted => by
      have path := @step_path _ _ _ host True b event held.1 fun _ => permitted
      exact ⟨path.numbered held.1, path.settles held.2⟩) start plain h
  exact held.2.outcome

end Runs

section Sample

open Client (firstRequest secondRevision thirdRevision)

/-- A command is committed and its notice acknowledged. -/
def committed : List (Event SnapshotParts CommandAction Unit) :=
  [.connect true, .acknowledge .initial true, .dispatch .intent .ok [] true,
    .notice (.intentCommitted 1) true, .acknowledge secondRevision true]

/-- A login completes while the news of its browser still waits behind a frame. -/
def overtakenLogin : List (Event SnapshotParts CommandAction Unit) :=
  [.connect true, .acknowledge .initial true, .dispatch .intent .ok [] true,
    .change .session (promptedParts .default), .observe .session, .tick true,
    .notice (.codexLoginBrowserOpened 1) true, .notice (.codexLoginCompleted 1) true,
    .acknowledge secondRevision true, .acknowledge thirdRevision true]

theorem bridge_settles_committed :
    (run (step sampleHost) (new (sampleParts .default [] rfl)) committed).Settled := by
  refine bridge_settles sampleHost (sampleParts .default [] rfl) committed ?_ _ (List.prefix_refl _)
  refine ⟨trivial, trivial, ?_, ?_, trivial, trivial⟩
  · intro requestId c _ shutdown
    cases shutdown
  · intro mapped made _
    exact ⟨(fun queued listed => by cases listed), (fun requestId _ asked => by cases asked)⟩

theorem overtakenLogin_unsettled :
    ¬ (run (step sampleHost) (new (sampleParts .default [] rfl)) overtakenLogin).Settled := by
  intro settled
  have exact_ := settled.waiting firstRequest (by decide)
  exact exact_.mp (by decide) (by decide)

end Sample

end AutoHarness.BridgeActor
