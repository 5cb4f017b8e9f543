import AutoHarness.Event

namespace AutoHarness

/-- The durable identity whose uniqueness was violated. -/
inductive IdentityKind where
  | event
  | command
  | input
  | attempt
  | memory
  | memoryRevision
  | memoryOperation
  | contextEpoch
  | contextTurn
  | contextAdmission
  | constraint
deriving DecidableEq, Repr

/-- The safe category of persisted data that failed validation. -/
inductive CorruptionArea where
  | event
  | eventSequence
  | sessionProjection
  | inputProjection
  | attemptProjection
  | transcriptProjection
  | catalogCache
  | migrationHistory
  | memoryLedger
  | memoryProjection
  | contextLedger
  | memorySearch
deriving DecidableEq, Repr

/-- A sanitized durable-store failure. -/
inductive StoreError where
  | emptyAppend
  | mixedSessions
  | sequenceOutOfRange
  | nonContiguousBatch
  | invalidCausation
  | invalidSessionTransition
  | invalidMemoryTransition
  | invalidContextTransition
  | limitExceeded
  | unsupportedEventSchema (found : UInt16)
  | unsupportedMemorySchema (found : UInt16)
  | versionConflict (sessionId : SessionId) (expected actual : Nat)
  | memoryVersionConflict (memoryId : MemoryId) (expected actual : Nat)
  | contextGenerationConflict (expected actual : Nat)
  | identityConflict (kind : IdentityKind)
  | corruptData (area : CorruptionArea)
  | busy
  | newerSchema (found supported : UInt32)
  | configuration
  | migration
  | backend
deriving DecidableEq, Repr

/-- Default upper bound for one event-log read. -/
def defaultEventPageSize : UInt32 := 512

/-- An atomic compare-and-append request for one session event stream. -/
structure AppendRequest where
  sessionId : SessionId
  expectedLastSequence : Nat
  events : List EventEnvelope
deriving DecidableEq

inductive AppendDisposition where
  | committed
  | alreadyCommitted
deriving DecidableEq, Repr

/-- Result of an atomic event append, with the last durable sequence after it. -/
structure AppendReceipt where
  disposition : AppendDisposition
  lastSequence : Nat
deriving DecidableEq, Repr

/-- The part of a session projection that recovery reads. -/
structure SessionSummary where
  sessionId : SessionId
  lastSequence : SessionSequence
deriving DecidableEq, Repr

/-- The session transactions and reads that the durable engine uses. -/
class SessionStore (S : Type) where
  append : S → AppendRequest → Except StoreError AppendReceipt × S
  loadEvents : S → SessionId → Nat → UInt32 → Except StoreError (List EventEnvelope)
  listSessions : S → Except StoreError (List SessionSummary)

/-- The fields of a context-turn manifest that a binding event repeats. -/
structure ContextTurnKey where
  sessionId : SessionId
  attemptId : AttemptId
  runTurn : UInt32
  contextTurnId : ContextTurnId
  manifestHash : Sha256Digest
deriving DecidableEq, Repr

/-- One context-turn request. The engine reads the key of the turn and hands the rest of the
manifest, the epoch and the renderings on to the store. -/
structure ContextTurnCommitRequest (C : Type) where
  turn : ContextTurnKey
  carried : C

/-- One atomic commit of a context turn, its session binding event and, for a compaction epoch,
the durable-facts boundary. -/
structure BoundContextTurnCommitRequest (C B : Type) where
  context : ContextTurnCommitRequest C
  bindingEvent : EventEnvelope
  compactionBoundary : Option B

inductive ContextCommitDisposition where
  | committed
  | alreadyCommitted
deriving DecidableEq, Repr

structure BoundContextTurnCommitReceipt where
  disposition : ContextCommitDisposition
  lastSequence : Nat
deriving DecidableEq, Repr

/-- The context transaction that the durable engine uses. -/
class ContextStore (S C B : Type) where
  commitContextTurnAndBind : S → BoundContextTurnCommitRequest C B →
    Except StoreError BoundContextTurnCommitReceipt × S

end AutoHarness
