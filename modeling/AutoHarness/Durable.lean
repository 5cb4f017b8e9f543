import AutoHarness.Engine
import AutoHarness.Paging
import AutoHarness.StorePort

namespace AutoHarness

/-- Failure while recovering or durably executing a session command. -/
inductive DurableEngineError where
  | engine (source : EngineError)
  | store (source : StoreError)
  | replay (source : ReplayError)
  | storeInvariant
deriving DecidableEq, Repr

/-- Headless engine that commits authoritative events before publishing state. -/
structure DurableEngine (S M : Type) where
  store : S
  inner : InMemoryEngine M

variable {S M C B : Type}

def DurableEngine.new (store : S) (metadataSource : M) : DurableEngine S M :=
  ⟨store, .new metadataSource⟩

/-- The metadata source that `prepare` left behind. -/
def DurableEngine.withSource (engine : DurableEngine S M) (source : M) : DurableEngine S M :=
  { engine with inner := { engine.inner with metadataSource := source } }

/-- `u64::checked_add`. -/
def checkedAdd (a b : Nat) : Option Nat :=
  if a + b < 2 ^ 64 then some (a + b) else none

section Recover

variable [SessionStore S]

/-- The page loop of one session. Nothing in the port bounds it, so it runs on fuel. -/
def loadSession (fuel : Nat) (store : S) (summary : SessionSummary) :
    Option (Except DurableEngineError (List EventEnvelope)) :=
  Paging.readAll (fun event : EventEnvelope => event.sequence.get)
    (fun after => (SessionStore.loadEvents store summary.sessionId after
      defaultEventPageSize).mapError .store)
    .storeInvariant summary.lastSequence.get fuel 0

/-- The loop over the listed sessions. -/
def loadSessions (fuel : Nat) (store : S) :
    List SessionSummary → Option (Except DurableEngineError (List EventEnvelope))
  | [] => some (.ok [])
  | summary :: summaries =>
    match loadSession fuel store summary with
    | none => none
    | some (.error e) => some (.error e)
    | some (.ok events) =>
      (loadSessions fuel store summaries).map fun tail => tail.map fun rest => events ++ rest

/-- Replays every stored session before accepting commands. -/
def DurableEngine.recover (fuel : Nat) (store : S) (metadataSource : M) :
    Option (Except DurableEngineError (DurableEngine S M)) :=
  match SessionStore.listSessions store with
  | .error e => some (.error (.store e))
  | .ok summaries =>
    (loadSessions fuel store summaries).map fun loaded => do
      let events ← loaded
      let inner ← (InMemoryEngine.replay metadataSource events).mapError .replay
      .ok ⟨store, inner⟩

end Recover

/-- The end of both commit paths: what the store answered decides whether the prepared command
is published. The engine already carries the metadata source that `prepare` left behind. -/
def DurableEngine.publish (engine : DurableEngine S M) (prepared : PreparedCommand)
    (expectedReceipt : Nat) :
    Except StoreError Nat × S → Except DurableEngineError (List EventEnvelope) × DurableEngine S M
  | (.error e, store) => (.error (.store e), { engine with store })
  | (.ok lastSequence, store) =>
    if lastSequence ≠ expectedReceipt then (.error .storeInvariant, { engine with store })
    else (.ok prepared.events, ⟨store, engine.inner.commitPrepared prepared⟩)

variable [EventMetadataSource M]

/-- Validates, appends, then publishes one command's complete event batch. -/
def DurableEngine.execute [SessionStore S] (engine : DurableEngine S M)
    (command : CommandEnvelope) :
    Except DurableEngineError (List EventEnvelope) × DurableEngine S M :=
  match engine.inner.prepare command with
  | (.error e, rest) => (.error (.engine e), engine.withSource rest)
  | (.ok prepared, rest) =>
    let engine := engine.withSource rest
    match checkedAdd prepared.expectedLastSequence prepared.events.length with
    | none => (.error .storeInvariant, engine)
    | some expectedReceipt =>
      let (answer, store) := SessionStore.append engine.store
        ⟨prepared.sessionId, prepared.expectedLastSequence, prepared.events⟩
      engine.publish prepared expectedReceipt (answer.map AppendReceipt.lastSequence, store)

/-- The event is the binding of the turn that the context request commits. -/
def EventEnvelope.bindsTurn (event : EventEnvelope) (turn : ContextTurnKey) : Bool :=
  match event.payload with
  | .contextTurnBound attemptId runTurn contextTurnId manifestHash =>
    event.sessionId == turn.sessionId && attemptId == turn.attemptId && runTurn == turn.runTurn &&
      contextTurnId == turn.contextTurnId && manifestHash == turn.manifestHash
  | _ => false

def DurableEngine.commitContextTurnAndBindInner [ContextStore S C B] (engine : DurableEngine S M)
    (context : ContextTurnCommitRequest C) (compactionBoundary : Option B)
    (command : CommandEnvelope) :
    Except DurableEngineError (List EventEnvelope) × DurableEngine S M :=
  match engine.inner.prepare command with
  | (.error e, rest) => (.error (.engine e), engine.withSource rest)
  | (.ok prepared, rest) =>
    let engine := engine.withSource rest
    match prepared.events with
    | [bindingEvent] =>
      if !bindingEvent.bindsTurn context.turn then (.error .storeInvariant, engine)
      else
        match checkedAdd prepared.expectedLastSequence 1 with
        | none => (.error .storeInvariant, engine)
        | some expectedReceipt =>
          if bindingEvent.sequence.get ≠ expectedReceipt then (.error .storeInvariant, engine)
          else
            let (answer, store) := ContextStore.commitContextTurnAndBind engine.store
              ⟨context, bindingEvent, compactionBoundary⟩
            engine.publish prepared expectedReceipt
              (answer.map BoundContextTurnCommitReceipt.lastSequence, store)
    | _ => (.error .storeInvariant, engine)

/-- Atomically commits a provider-turn context and its authoritative binding event. -/
def DurableEngine.commitContextTurnAndBind (B : Type) [ContextStore S C B]
    (engine : DurableEngine S M) (context : ContextTurnCommitRequest C)
    (command : CommandEnvelope) :
    Except DurableEngineError (List EventEnvelope) × DurableEngine S M :=
  engine.commitContextTurnAndBindInner context (none : Option B) command

/-- Atomically commits a verified compaction context and its authoritative binding event. -/
def DurableEngine.commitCompactionContextTurnAndBind [ContextStore S C B]
    (engine : DurableEngine S M) (context : ContextTurnCommitRequest C) (boundary : B)
    (command : CommandEnvelope) :
    Except DurableEngineError (List EventEnvelope) × DurableEngine S M :=
  engine.commitContextTurnAndBindInner context (some boundary) command

/-- The mutating calls of the durable engine. -/
inductive DurableCall (C B : Type) where
  | execute (command : CommandEnvelope)
  | commitContextTurnAndBind (context : ContextTurnCommitRequest C) (command : CommandEnvelope)
  | commitCompactionContextTurnAndBind (context : ContextTurnCommitRequest C) (boundary : B)
      (command : CommandEnvelope)

/-- The command that a call hands to the engine. -/
def DurableCall.command : DurableCall C B → CommandEnvelope
  | .execute command | .commitContextTurnAndBind _ command
  | .commitCompactionContextTurnAndBind _ _ command => command

variable [SessionStore S] [ContextStore S C B]

def DurableEngine.call (engine : DurableEngine S M) : DurableCall C B →
    Except DurableEngineError (List EventEnvelope) × DurableEngine S M
  | .execute command => engine.execute command
  | .commitContextTurnAndBind context command => engine.commitContextTurnAndBind B context command
  | .commitCompactionContextTurnAndBind context boundary command =>
    engine.commitCompactionContextTurnAndBind context boundary command

/-- The engine after a sequence of calls, whatever they were answered. -/
def DurableEngine.callAll (engine : DurableEngine S M) (calls : List (DurableCall C B)) :
    DurableEngine S M :=
  calls.foldl (fun engine call => (engine.call call).2) engine

end AutoHarness
