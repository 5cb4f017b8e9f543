import AutoHarness.ClientStore
import AutoHarness.FallibleRun

open EventRun (run Along)

namespace AutoHarness.Gui

open Client (TransportRevision SnapshotReason)

/-- What reaches the store: frames, and the answers to what it asked for. -/
inductive StoreEvent where
  | start
  | connected (result : Except String GuiSnapshot)
  | frame (frame : ClientFrame)
  | requestResync
  | responded (result : Except String GuiSnapshot)
  | transportError (message : String)
  | close

namespace ClientStore

/-- A baseline is older than what has been applied. -/
def outdates (store : ClientStore) (baseline : GuiSnapshot) : Bool :=
  store.transportRevision.any fun current => baseline.transportRevision.get < current.get

def connected (store : ClientStore) : Except String GuiSnapshot → ClientStore
  | .error message => store.fail message
  | .ok baseline =>
    if store.closed || store.lifecycle = .failed || store.outdates baseline then store
    else { store with
      lifecycle := .ready
      projection := some baseline
      transportRevision := some baseline.transportRevision
      notice := none
      commandError := none }

def responded (store : ClientStore) : Except String GuiSnapshot → ClientStore
  | .error message => store.fail message
  | .ok baseline =>
    if store.closed || store.outdates baseline then store
    else { store with
      lifecycle := .ready
      projection := some baseline
      transportRevision := some baseline.transportRevision
      notice := some ⟨none, .info, "projection_resynchronized",
        "The local view was repaired from the durable host snapshot."⟩ }

/-- An answer comes once for each request. -/
def step (store : ClientStore) : StoreEvent → ClientStore
  | .start => if store.started then store else { store with started := true, connecting := true }
  | .connected result =>
    if store.connecting then { store with connecting := false }.connected result else store
  | .frame frame => store.applyFrame frame
  | .requestResync => store.requestResync
  | .responded result =>
    if store.resync then { store with resync := false }.responded result else store
  | .transportError message => store.fail message
  | .close => { store with closed := true }

section Frames

variable {validateMemory : Client.MemoryProjection → Except String Unit}
  {server : Client.ServerFrame} {frame : ClientFrame} {store : ClientStore}

/-- A frame keeps its revision and its kind on the wire. -/
theorem frameFromWire_eq_ok (h : frameFromWire validateMemory server = .ok frame) :
    frame.revision = server.revision ∧ isBaseline none frame = server.payload.isBaseline ∧
      ∀ current, isBaseline (some current) frame = server.payload.isResynchronization := by
  obtain ⟨revision, payload⟩ := server
  cases payload with
  | snapshot reason snapshot =>
    simp only [frameFromWire] at h
    cases made : snapshotFromWire validateMemory snapshot revision with
    | error message =>
      rw [made] at h
      cases h
    | ok view =>
      rw [made] at h
      cases Except.ok.inj h
      cases reason <;> exact ⟨rfl, rfl, fun _ => rfl⟩
  | activeSessionDelta delta =>
    simp only [frameFromWire, activeSessionDeltaFromWire] at h
    split at h
    next => cases h
    next =>
      cases Except.ok.inj h
      exact ⟨rfl, rfl, fun _ => rfl⟩
  | notice notice =>
    cases Except.ok.inj h
    exact ⟨rfl, rfl, fun _ => rfl⟩

/-- The store and the host admit the same frames. -/
theorem admitted_iff_applies (h : frameFromWire validateMemory server = .ok frame)
    (current : Option TransportRevision) :
    admission current frame = .admitted ↔ (server.classifyAfter current).Applies := by
  obtain ⟨revised, initial, later⟩ := frameFromWire_eq_ok h
  cases current with
  | none =>
    rw [admission, Client.ServerFrame.classifyAfter, initial]
    cases server.payload.isBaseline <;> simp [Client.FrameDisposition.Applies]
  | some current =>
    rw [admission_eq_admitted_iff, Client.ServerFrame.classifyAfter, revised, later]
    by_cases old : server.revision.get ≤ current.get
    · rw [if_pos old]
      simp only [Client.FrameDisposition.Applies, iff_false]
      omega
    · rw [if_neg old]
      by_cases whole : server.payload.isResynchronization = true
      · rw [if_pos whole]
        simp only [whole, Client.FrameDisposition.Applies, true_or, and_true, iff_true]
        omega
      · rw [if_neg whole, TransportRevision.next]
        have room := server.revision.bounded
        rw [dif_pos (by omega)]
        dsimp only
        by_cases consecutive : server.revision.get = current.get + 1
        · rw [if_pos (TransportRevision.eq_of_get consecutive)]
          simp only [Client.FrameDisposition.Applies, consecutive, or_true, and_true, iff_true]
          omega
        · have other : server.revision ≠ ⟨current.get + 1, by omega, by omega⟩ :=
            fun same => consecutive (congrArg TransportRevision.get same)
          rw [if_neg other]
          simp [Client.FrameDisposition.Applies, whole, consecutive]

/-- The content of the frame is installed; where it does not fit, the store fails. -/
def Takes (store : ClientStore) (frame : ClientFrame) : Prop :=
  store.applyFrame frame = match store.install frame with
    | .ok reached => reached
    | .error message => store.fail message

/-- The frame changes neither the projection nor the revision, and the store goes on. -/
def Leaves (store : ClientStore) (frame : ClientFrame) : Prop :=
  (store.applyFrame frame).projection = store.projection ∧
    (store.applyFrame frame).transportRevision = store.transportRevision ∧
    (store.applyFrame frame).lifecycle ≠ .failed

theorem observeGapNotice_kept (store : ClientStore) (frame : ClientFrame) :
    (store.observeGapNotice frame).projection = store.projection ∧
      (store.observeGapNotice frame).transportRevision = store.transportRevision ∧
      (store.observeGapNotice frame).lifecycle = store.lifecycle ∧
      (store.observeGapNotice frame).resync = store.resync := by
  cases frame <;> exact ⟨rfl, rfl, rfl, rfl⟩

theorem requestResync_kept (store : ClientStore) :
    store.requestResync.projection = store.projection ∧
      store.requestResync.transportRevision = store.transportRevision ∧
      (store.requestResync.lifecycle = store.lifecycle ∧ store.requestResync.resync = store.resync ∨
        store.requestResync.lifecycle = .resyncing ∧ store.requestResync.resync = true) := by
  unfold requestResync
  split
  next => exact ⟨rfl, rfl, .inl ⟨rfl, rfl⟩⟩
  next => exact ⟨rfl, rfl, .inr ⟨rfl, rfl⟩⟩

/-- A frame is looked at by a store that runs, and only there. -/
theorem applyFrame_cases (store : ClientStore) (frame : ClientFrame) :
    store.applyFrame frame = store ∨
      (store.applyFrame frame = (store.observeGapNotice frame).requestResync ∧
        store.lifecycle ≠ .failed) ∨
      admission store.transportRevision frame = .admitted ∧
        ((∃ reached, store.install frame = .ok reached ∧ store.applyFrame frame = reached) ∨
          ∃ message, store.applyFrame frame = store.fail message) := by
  unfold applyFrame
  split
  next => exact .inl rfl
  next running =>
    have alive : store.lifecycle ≠ .failed := by simpa using fun failed => running (by simp [failed])
    cases admission store.transportRevision frame with
    | ignored => exact .inl rfl
    | missing => exact .inr (.inl ⟨rfl, alive⟩)
    | admitted =>
      refine .inr (.inr ⟨rfl, ?_⟩)
      cases store.install frame with
      | ok reached => exact .inl ⟨reached, rfl, rfl⟩
      | error message => exact .inr ⟨message, rfl⟩

theorem install_eq_ok {reached : ClientStore} (h : store.install frame = .ok reached) :
    reached.transportRevision = some frame.revision ∧ reached.resync = store.resync ∧
      (reached.lifecycle = .resyncing → store.lifecycle = .resyncing) := by
  cases frame with
  | snapshot reason revision snapshot =>
    simp only [install] at h
    split at h
    next => cases h
    next =>
      cases Except.ok.inj h
      refine ⟨rfl, rfl, fun resyncing => ?_⟩
      dsimp only at resyncing
      split at resyncing
      next both => exact both.1
      next => cases resyncing
  | activeSessionDelta delta =>
    simp only [install] at h
    split at h
    next => cases h
    next projection _ =>
      obtain ⟨applied, -, made⟩ := FallibleRun.bind_eq_ok_iff.mp h
      cases Except.ok.inj made
      refine ⟨rfl, rfl, fun resyncing => ?_⟩
      dsimp only at resyncing
      split at resyncing
      next same => exact same
      next => cases resyncing
  | notice revision notice =>
    cases Except.ok.inj h
    refine ⟨rfl, rfl, fun resyncing => ?_⟩
    dsimp only at resyncing
    split at resyncing
    next same => exact same
    next =>
      split at resyncing
      next => cases resyncing
      next => exact resyncing

/-- A running store takes the frames that the host's classifier applies, and leaves the others. -/
theorem applyFrame_classified (h : frameFromWire validateMemory server = .ok frame)
    (opened : store.closed = false) (running : store.lifecycle ≠ .failed) :
    ((server.classifyAfter store.transportRevision).Applies → store.Takes frame) ∧
      (¬ (server.classifyAfter store.transportRevision).Applies → store.Leaves frame) := by
  rw [← admitted_iff_applies h]
  have looked : ¬ (store.closed || decide (store.lifecycle = .failed)) = true := by
    simp [opened, running]
  constructor
  · intro admitted
    unfold Takes applyFrame
    cases store.install frame with
    | ok reached =>
      refine (if_neg looked).trans ?_
      simp only [admitted]
    | error message =>
      refine (if_neg looked).trans ?_
      simp only [admitted]
  · intro refused
    rcases applyFrame_cases store frame with same | ⟨asked, -⟩ | ⟨admitted, -⟩
    · unfold Leaves
      rw [same]
      exact ⟨rfl, rfl, running⟩
    · obtain ⟨projection, revision, lifecycle, -⟩ := observeGapNotice_kept store frame
      obtain ⟨shown, reached, state⟩ := requestResync_kept (store.observeGapNotice frame)
      unfold Leaves
      rw [asked, shown, reached]
      refine ⟨projection, revision, ?_⟩
      rcases state with ⟨same, -⟩ | ⟨resyncing, -⟩
      · rw [same, lifecycle]
        exact running
      · rw [resyncing]
        decide
    · exact absurd admitted refused

end Frames

section Runs

variable {store : ClientStore} {event : StoreEvent}

/-- One revision does not precede another. -/
def NotBefore (earlier later : Option TransportRevision) : Prop :=
  ∀ old, earlier = some old → ∃ new, later = some new ∧ old.get ≤ new.get

theorem NotBefore.refl (revision : Option TransportRevision) : NotBefore revision revision :=
  fun old h => ⟨old, h, Nat.le_refl _⟩

theorem NotBefore.trans {a b c : Option TransportRevision} (first : NotBefore a b)
    (second : NotBefore b c) : NotBefore a c := by
  intro old h
  obtain ⟨middle, hm, low⟩ := first old h
  obtain ⟨new, hn, high⟩ := second middle hm
  exact ⟨new, hn, Nat.le_trans low high⟩

theorem notBefore_of_outdates {baseline : GuiSnapshot} (h : store.outdates baseline = false) :
    NotBefore store.transportRevision (some baseline.transportRevision) := by
  intro old current
  rw [outdates, current, Option.any_some, decide_eq_false_iff_not] at h
  exact ⟨_, rfl, by omega⟩

theorem notBefore_applyFrame (store : ClientStore) (frame : ClientFrame) :
    NotBefore store.transportRevision (store.applyFrame frame).transportRevision := by
  rcases applyFrame_cases store frame with same | ⟨asked, -⟩ | ⟨admitted, taken⟩
  · rw [same]
    exact .refl _
  · rw [asked, (requestResync_kept _).2.1, (observeGapNotice_kept store frame).2.1]
    exact .refl _
  · rcases taken with ⟨reached, installed, made⟩ | ⟨message, made⟩
    · rw [made, (install_eq_ok installed).1]
      intro old current
      rw [current, admission_eq_admitted_iff] at admitted
      exact ⟨_, rfl, by omega⟩
    · rw [made]
      exact .refl _

theorem notBefore_step (store : ClientStore) (event : StoreEvent) :
    NotBefore store.transportRevision (store.step event).transportRevision := by
  cases event with
  | start =>
    simp only [step]
    split <;> exact .refl _
  | connected result =>
    simp only [step]
    split
    next =>
      cases result with
      | error message => exact .refl _
      | ok baseline =>
        simp only [connected]
        split
        next => exact .refl _
        next newer =>
          simp only [Bool.or_eq_true, not_or, Bool.not_eq_true] at newer
          exact notBefore_of_outdates newer.2
    next => exact .refl _
  | frame frame => exact notBefore_applyFrame store frame
  | requestResync =>
    rw [step, (requestResync_kept store).2.1]
    exact .refl _
  | responded result =>
    simp only [step]
    split
    next =>
      cases result with
      | error message => exact .refl _
      | ok baseline =>
        simp only [responded]
        split
        next => exact .refl _
        next newer =>
          simp only [Bool.or_eq_true, not_or, Bool.not_eq_true] at newer
          exact notBefore_of_outdates newer.2
    next => exact .refl _
  | transportError message => exact .refl _
  | close => exact .refl _

theorem notBefore_run (store : ClientStore) (events : List StoreEvent) :
    NotBefore store.transportRevision (run step store events).transportRevision := by
  induction events generalizing store with
  | nil => exact .refl _
  | cons event rest ih => exact (notBefore_step store event).trans (ih (store.step event))

/-- A store that resynchronizes has a request that is not answered. -/
def Awaits (store : ClientStore) : Prop :=
  store.lifecycle = .resyncing → store.resync = true

/-- An answer that reaches a store that resynchronizes is one that the store takes. -/
def Settles (store : ClientStore) : StoreEvent → Prop
  | .responded (.ok baseline) => store.lifecycle = .resyncing →
      store.closed = false ∧ store.outdates baseline = false
  | _ => True

theorem awaits_applyFrame (held : store.Awaits) (frame : ClientFrame) :
    (store.applyFrame frame).Awaits := by
  unfold Awaits at held ⊢
  rcases applyFrame_cases store frame with same | ⟨asked, -⟩ | ⟨-, taken⟩
  · rw [same]
    exact held
  · obtain ⟨-, -, lifecycle, resync⟩ := observeGapNotice_kept store frame
    rw [asked]
    rcases (requestResync_kept (store.observeGapNotice frame)).2.2 with ⟨same, kept⟩ | ⟨-, sent⟩
    · rw [same, kept, lifecycle, resync]
      exact held
    · exact fun _ => sent
  · rcases taken with ⟨reached, installed, made⟩ | ⟨message, made⟩
    · obtain ⟨-, resync, lifecycle⟩ := install_eq_ok installed
      rw [made, resync]
      exact fun resyncing => held (lifecycle resyncing)
    · rw [made]
      intro resyncing
      cases resyncing

theorem awaits_step_iff (store : ClientStore) (event : StoreEvent) (held : store.Awaits) :
    (store.step event).Awaits ↔ store.Settles event := by
  cases event with
  | start =>
    simp only [Settles, iff_true, step]
    split <;> exact held
  | connected result =>
    simp only [Settles, iff_true, step]
    split
    next =>
      cases result with
      | error message => exact fun resyncing => by cases resyncing
      | ok baseline =>
        simp only [connected]
        split
        next => exact held
        next => exact fun resyncing => by cases resyncing
    next => exact held
  | frame frame =>
    simp only [Settles, iff_true, step]
    exact awaits_applyFrame held frame
  | requestResync =>
    simp only [Settles, iff_true, step]
    rcases (requestResync_kept store).2.2 with ⟨same, kept⟩ | ⟨-, sent⟩
    · rw [Awaits, same, kept]
      exact held
    · exact fun _ => sent
  | responded result =>
    cases result with
    | error message =>
      simp only [Settles, iff_true, step]
      split
      next => exact fun resyncing => by cases resyncing
      next => exact held
    | ok baseline =>
      simp only [Settles, step]
      by_cases resyncing : store.lifecycle = .resyncing
      · rw [if_pos (held resyncing), responded]
        split
        next left =>
          have unsettled : ¬ (store.closed = false ∧ store.outdates baseline = false) := by
            rintro ⟨opened, newer⟩
            have passed : (store.closed || store.outdates baseline) = true := left
            rw [opened, newer] at passed
            cases passed
          simp [Awaits, resyncing, unsettled]
        next taken =>
          have settled : store.closed = false ∧ store.outdates baseline = false := by
            have passed : ¬ (store.closed || store.outdates baseline) = true := taken
            simpa using passed
          simp [Awaits, settled]
      · have kept : ∀ reached : ClientStore, (reached.lifecycle = store.lifecycle ∨
            reached.lifecycle = .ready) → reached.Awaits := by
          rintro reached (same | ready) other
          · exact absurd (same ▸ other) resyncing
          · rw [ready] at other
            cases other
        simp only [resyncing, false_implies, iff_true]
        apply kept
        split
        next =>
          simp only [responded]
          split
          next => exact .inl rfl
          next => exact .inr rfl
        next => exact .inl rfl
  | transportError message =>
    simp only [Settles, iff_true, step]
    exact fun resyncing => by cases resyncing
  | close =>
    simp only [Settles, iff_true, step]
    exact held

/-- The revision never decreases, the store applies what the host's classifier applies, and a
resynchronization ends exactly when each answer to it can be taken. -/
theorem store_runs (validateMemory : Client.MemoryProjection → Except String Unit)
    (events : List StoreEvent) :
    (∀ before later, before ++ later = events →
      NotBefore (run step new before).transportRevision (run step new events).transportRevision) ∧
    (∀ (store : ClientStore) server frame, frameFromWire validateMemory server = .ok frame →
      store.closed = false → store.lifecycle ≠ .failed →
        ((server.classifyAfter store.transportRevision).Applies → store.Takes frame) ∧
        (¬ (server.classifyAfter store.transportRevision).Applies → store.Leaves frame)) ∧
    ((∀ before, before <+: events → (run step new before).Awaits) ↔ Along step Settles new events) := by
  refine ⟨?_, fun store server frame h opened running => applyFrame_classified h opened running, ?_⟩
  · rintro before later rfl
    rw [EventRun.run_append]
    exact notBefore_run _ later
  · have start : new.Awaits := fun resyncing => by cases resyncing
    exact EventRun.forall_prefix_iff awaits_step_iff start

end Runs

section Sample

open Client (sampleSnapshot secondRevision thirdRevision)

def sampleBaseline (revision : TransportRevision) : GuiSnapshot :=
  .ofWire (sampleSnapshot .default [] rfl) revision

def sampleFrame (revision : TransportRevision) : StoreEvent :=
  .frame (.notice revision (shutdownNotice .requested))

/-- A frame is missing, and the answer repairs it. -/
def repaired : List StoreEvent :=
  [.start, .connected (.ok (sampleBaseline .initial)),
    sampleFrame thirdRevision,
    .responded (.ok (sampleBaseline thirdRevision))]

/-- The missing frame arrives late, and the answer later still. -/
def overtaken : List StoreEvent :=
  [.start, .connected (.ok (sampleBaseline .initial)),
    sampleFrame thirdRevision, sampleFrame secondRevision,
    sampleFrame thirdRevision,
    .responded (.ok (sampleBaseline secondRevision))]

theorem store_runs_repaired : ∀ before, before <+: repaired → (run step new before).Awaits := by
  refine (store_runs (fun _ => .ok ()) repaired).2.2.mpr ?_
  exact ⟨trivial, trivial, trivial, fun _ => ⟨rfl, rfl⟩, trivial⟩

theorem overtaken_left_resyncing : (run step new overtaken).lifecycle = .resyncing ∧
    (run step new overtaken).resync = false ∧ (run step new overtaken).connecting = false ∧
    (run step new overtaken).closed = false :=
  ⟨rfl, rfl, rfl, rfl⟩

end Sample

end ClientStore

end AutoHarness.Gui
