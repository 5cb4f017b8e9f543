import AutoHarness.AggregateApply
import AutoHarness.AggregateDecide

namespace AutoHarness

/-- Event identity and observation time supplied by application composition. -/
structure GeneratedEventMetadata where
  eventId : EventId
  occurredAt : TimestampMillis
deriving DecidableEq, Repr

/-- A stateful supplier of event metadata. -/
class EventMetadataSource (M : Type) where
  nextEventMetadata : M → GeneratedEventMetadata × M

export EventMetadataSource (nextEventMetadata)

structure InMemoryEngine (M : Type) where
  metadataSource : M
  sessions : Finmap fun _ : SessionId => SessionAggregate
  events : List EventEnvelope
  eventIds : Finset EventId
  commandIds : Finset CommandId

structure PreparedCommand where
  sessionId : SessionId
  commandId : CommandId
  expectedLastSequence : Nat
  candidate : SessionAggregate
  events : List EventEnvelope
  eventIds : Finset EventId

variable {M : Type}

def InMemoryEngine.new (metadataSource : M) : InMemoryEngine M where
  metadataSource := metadataSource
  sessions := ∅
  events := []
  eventIds := ∅
  commandIds := ∅

def InMemoryEngine.session (engine : InMemoryEngine M) (sessionId : SessionId) :
    Option SessionAggregate :=
  engine.sessions.lookup sessionId

/-- The aggregate a command or a replayed event meets. -/
def InMemoryEngine.current (engine : InMemoryEngine M) (sessionId : SessionId) :
    SessionAggregate :=
  (engine.session sessionId).getD (.empty sessionId)

/-- One round of the replay loop. -/
def InMemoryEngine.replayOne (engine : InMemoryEngine M) (event : EventEnvelope) :
    Except ReplayError (InMemoryEngine M) := do
  if event.eventId ∈ engine.eventIds then .error (.duplicateEventId event.eventId)
  else
    let aggregate ← (engine.current event.sessionId).applyUncommittedBatch [event]
    match event.causation with
    | .command commandId =>
      if commandId ∈ engine.commandIds then
        .error (.duplicateCommandCausation event.eventId commandId)
      else
        .ok { engine with
          sessions := engine.sessions.insert event.sessionId aggregate
          events := engine.events ++ [event]
          eventIds := insert event.eventId engine.eventIds
          commandIds := insert commandId engine.commandIds }
    | .event _ =>
      .ok { engine with
        sessions := engine.sessions.insert event.sessionId aggregate
        events := engine.events ++ [event]
        eventIds := insert event.eventId engine.eventIds }

/-- Replay events in supplied order and prepare the engine for later commands. -/
def InMemoryEngine.replay (metadataSource : M) (events : List EventEnvelope) :
    Except ReplayError (InMemoryEngine M) :=
  FallibleRun.run InMemoryEngine.replayOne (.new metadataSource) events

/-- The accumulators of the enveloping loop in `prepare`. -/
structure EventBatch where
  nextSequence : SessionSequence
  events : List EventEnvelope
  eventIds : Finset EventId

/-- The sequence of the next envelope: only rounds after the first advance it. -/
def EventBatch.advance (batch : EventBatch) : Option SessionSequence :=
  if batch.events.isEmpty then some batch.nextSequence else batch.nextSequence.checkedNext

/-- The direct cause of the next envelope: the command, then each time the prior event. -/
def EventBatch.cause (batch : EventBatch) (command : CommandEnvelope) : Causation :=
  match batch.events.getLast? with
  | none => .command command.commandId
  | some prior => .event prior.eventId

/-- The sequence after the last applied event, or `none` at exhaustion. -/
def SessionAggregate.nextSequence (s : SessionAggregate) : Option SessionSequence :=
  match s.lastSequence with
  | some sequence => sequence.checkedNext
  | none => some SessionSequence.first

section Prepare

variable [EventMetadataSource M]

/-- One round of the enveloping loop. -/
def EventBatch.push (batch : EventBatch) (known : Finset EventId) (command : CommandEnvelope)
    (payload : EventPayload) (source : M) : Except EngineError EventBatch × M :=
  match batch.advance with
  | none => (.error (.sequenceExhausted command.sessionId), source)
  | some sequence =>
    let (generated, rest) := nextEventMetadata source
    if generated.eventId ∈ known ∨ generated.eventId ∈ batch.eventIds then
      (.error (.eventIdCollision generated.eventId), rest)
    else
      (.ok
        { nextSequence := sequence
          events := batch.events ++ [.newV1 generated.eventId command.sessionId sequence
            generated.occurredAt (batch.cause command) command.correlationId payload]
          eventIds := insert generated.eventId batch.eventIds }, rest)

def EventBatch.pushAll (batch : EventBatch) (known : Finset EventId) (command : CommandEnvelope) :
    List EventPayload → M → Except EngineError EventBatch × M
  | [], source => (.ok batch, source)
  | payload :: payloads, source =>
    match batch.push known command payload source with
    | (.error e, rest) => (.error e, rest)
    | (.ok next, rest) => next.pushAll known command payloads rest

/-- The metadata source is returned in the state the call leaves it in. -/
def InMemoryEngine.prepare (engine : InMemoryEngine M) (command : CommandEnvelope) :
    Except EngineError PreparedCommand × M :=
  if command.commandId ∈ engine.commandIds then
    (.error (.commandRejected (.duplicateCommand command.commandId)), engine.metadataSource)
  else
    let current := engine.current command.sessionId
    match current.decide command with
    | .error rejection => (.error (.commandRejected rejection), engine.metadataSource)
    | .ok payloads =>
      match current.nextSequence with
      | none => (.error (.sequenceExhausted command.sessionId), engine.metadataSource)
      | some nextSequence =>
        let start : EventBatch := ⟨nextSequence, [], ∅⟩
        match start.pushAll engine.eventIds command payloads engine.metadataSource with
        | (.error e, rest) => (.error e, rest)
        | (.ok batch, rest) =>
          match current.applyUncommittedBatch batch.events with
          | .error source => (.error (.invariantViolation source), rest)
          | .ok candidate =>
            (.ok
              { sessionId := command.sessionId
                commandId := command.commandId
                expectedLastSequence := (current.lastSequence.map SessionSequence.get).getD 0
                candidate
                events := batch.events
                eventIds := batch.eventIds }, rest)

end Prepare

def InMemoryEngine.commitPrepared (engine : InMemoryEngine M) (prepared : PreparedCommand) :
    InMemoryEngine M :=
  { engine with
    sessions := engine.sessions.insert prepared.sessionId prepared.candidate
    commandIds := insert prepared.commandId engine.commandIds
    eventIds := engine.eventIds ∪ prepared.eventIds
    events := engine.events ++ prepared.events }

/-- The answer of one command and the engine after it. -/
def InMemoryEngine.execute [EventMetadataSource M] (engine : InMemoryEngine M)
    (command : CommandEnvelope) : Except EngineError (List EventEnvelope) × InMemoryEngine M :=
  match engine.prepare command with
  | (.error e, rest) => (.error e, { engine with metadataSource := rest })
  | (.ok prepared, rest) =>
    (.ok prepared.events, { engine with metadataSource := rest }.commitPrepared prepared)

/-- Engines that some sequence of commands leads to, whatever they were answered. -/
inductive Reachable [EventMetadataSource M] : InMemoryEngine M → Prop
  | new (metadataSource : M) : Reachable (.new metadataSource)
  | execute {engine : InMemoryEngine M} (command : CommandEnvelope) :
      Reachable engine → Reachable (engine.execute command).2

end AutoHarness
