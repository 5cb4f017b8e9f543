import AutoHarness.Tool
import AutoHarness.Event
import AutoHarness.FallibleRun
import AutoHarness.Identifier
import AutoHarness.SortedMap
import Mathlib.Data.Finmap

namespace AutoHarness

inductive PendingSessionFactKind where
  | input
  | permission
  | tool
deriving DecidableEq, Repr

/-- Contentless hashes of one authoritative unsettled session fact. -/
structure PendingSessionFact where
  kind : PendingSessionFactKind
  identityHash : Sha256Digest
  stateHash : Sha256Digest
deriving DecidableEq, Repr

structure InputState where
  prompt : PromptText
  deliveryMode : DeliveryMode
  promoted : Bool
deriving DecidableEq, Repr

inductive PendingToolStage where
  | proposed
  | permissionPending
  | authorized
  | deniedPending
  | running
  | settled
deriving DecidableEq, Repr

structure PendingToolState where
  attemptId : AttemptId
  call : ToolCallSpec
  stage : PendingToolStage
  policyDecision : Option (PermissionDecisionId × PermissionOutcome)
  humanAnswer : Option (PermissionDecisionId × PermissionAnswer)
deriving DecidableEq

section Facts

variable (codec : FactCodec)

def DeliveryMode.code : DeliveryMode → String
  | .nextTurn => "next_turn"

def PendingToolStage.code : PendingToolStage → String
  | .proposed => "proposed"
  | .permissionPending => "permission_pending"
  | .authorized => "authorized"
  | .deniedPending => "denied_pending"
  | .running => "running"
  | .settled => "settled"

def PermissionOutcome.code : PermissionOutcome → String
  | .deny => "deny"
  | .ask => "ask"
  | .allow => "allow"

def PermissionAnswer.code : PermissionAnswer → String
  | .allowOnce => "allow_once"
  | .deny => "deny"

def factIdentityHash (kind identity : String) : Sha256Digest :=
  ((CanonicalEncoder.new.field "kind" (utf8Bytes kind)).field "identity"
    (utf8Bytes identity)).finish codec

def pendingInputFact (inputId : InputId) (input : InputState) : PendingSessionFact where
  kind := .input
  identityHash := factIdentityHash codec "input" inputId.value
  stateHash :=
    ((((CanonicalEncoder.new.field "kind" (utf8Bytes "input")).field "input_id"
      (utf8Bytes inputId.value)).field "prompt" (utf8Bytes input.prompt.value)).field
      "delivery_mode" (utf8Bytes input.deliveryMode.code)).finish codec

def pendingPermissionFact (toolCallId : ToolCallId) (tool : PendingToolState) :
    Except MemoryError PendingSessionFact :=
  match tool.policyDecision with
  | none => .error .invalidCompactionEventStream
  | some (decisionId, outcome) =>
    if outcome ≠ .ask ∨ tool.humanAnswer.isSome then .error .invalidCompactionEventStream
    else .ok
      { kind := .permission
        identityHash := factIdentityHash codec "permission" toolCallId.value
        stateHash :=
          ((((CanonicalEncoder.new.field "kind" (utf8Bytes "permission")).field "tool_call_id"
            (utf8Bytes toolCallId.value)).field "decision_id" (utf8Bytes decisionId.value)).field
            "outcome" (utf8Bytes outcome.code)).finish codec }

/-- The policy fields of a tool fact; an absent decision leaves both empty. -/
def encodePolicyDecision (state : CanonicalEncoder) :
    Option (PermissionDecisionId × PermissionOutcome) → CanonicalEncoder
  | some (decisionId, outcome) =>
    (state.field "policy_decision_id" (utf8Bytes decisionId.value)).field "policy_outcome"
      (utf8Bytes outcome.code)
  | none => (state.field "policy_decision_id" []).field "policy_outcome" []

def encodeHumanAnswer (state : CanonicalEncoder) :
    Option (PermissionDecisionId × PermissionAnswer) → CanonicalEncoder
  | some (decisionId, answer) =>
    (state.field "human_decision_id" (utf8Bytes decisionId.value)).field "human_answer"
      (utf8Bytes answer.code)
  | none => (state.field "human_decision_id" []).field "human_answer" []

def pendingToolFact (toolCallId : ToolCallId) (tool : PendingToolState) : PendingSessionFact where
  kind := .tool
  identityHash := factIdentityHash codec "tool" toolCallId.value
  stateHash :=
    let identified := ((CanonicalEncoder.new.field "kind" (utf8Bytes "tool")).field "tool_call_id"
      (utf8Bytes toolCallId.value)).field "attempt_id" (utf8Bytes tool.attemptId.value)
    let staged := (identified.field "call" (codec.callJson tool.call)).field "stage"
      (utf8Bytes tool.stage.code)
    (encodeHumanAnswer (encodePolicyDecision staged tool.policyDecision) tool.humanAnswer).finish
      codec

end Facts

/-- The accumulators of the prefix check. -/
structure PrefixScan where
  index : Nat
  eventIds : Finmap fun _ : EventId => CorrelationId
  commandIds : Finset CommandId

def PrefixScan.start : PrefixScan := ⟨0, ∅, ∅⟩

def PrefixScan.admitCause (scan : PrefixScan) (event : EventEnvelope) :
    Except MemoryError (Finset CommandId) :=
  match event.causation with
  | .event cause =>
    if scan.eventIds.lookup cause ≠ some event.correlationId then
      .error .invalidCompactionEventStream
    else .ok scan.commandIds
  | .command commandId =>
    if commandId ∈ scan.commandIds then .error .invalidCompactionEventStream
    else .ok (insert commandId scan.commandIds)

/-- One round of the loop in `validate_event_prefix`. -/
def PrefixScan.step (sessionId : SessionId) (scan : PrefixScan) (event : EventEnvelope) :
    Except MemoryError PrefixScan := do
  if event.schemaVersion ≠ eventSchemaV1 ∨ event.sessionId ≠ sessionId ∨
      event.sequence.get ≠ scan.index + 1 ∨ event.eventId ∈ scan.eventIds then
    .error .invalidCompactionEventStream
  else
    let commandIds ← scan.admitCause event
    .ok ⟨scan.index + 1, scan.eventIds.insert event.eventId event.correlationId, commandIds⟩

def validateEventPrefix (sessionId : SessionId) (expectedLastSequence : SessionSequence)
    (events : List EventEnvelope) : Except MemoryError Unit :=
  if events.length ≠ expectedLastSequence.get then .error .invalidCompactionEventStream
  else if events.head?.all fun event => event.payload ≠ .sessionCreated then
    .error .invalidCompactionEventStream
  else do
    let _ ← FallibleRun.run (PrefixScan.step sessionId) .start events
    .ok ()

/-- The accumulators of the pending-fact fold. -/
structure PendingScan where
  inputs : SortedMap InputId InputState
  attempts : Finset AttemptId
  tools : SortedMap ToolCallId PendingToolState

def PendingScan.start : PendingScan := ⟨.empty, ∅, .empty⟩

/-- The call at the given stage, still stored under its identifier. -/
def PendingScan.requireToolStage (scan : PendingScan) (toolCallId : ToolCallId)
    (allowed : List PendingToolStage) : Except MemoryError PendingToolState :=
  match scan.tools.find? toolCallId with
  | none => .error .invalidCompactionEventStream
  | some tool =>
    if tool.stage ∈ allowed then .ok tool else .error .invalidCompactionEventStream

def PendingScan.setTool (scan : PendingScan) (toolCallId : ToolCallId) (tool : PendingToolState) :
    PendingScan :=
  { scan with tools := scan.tools.insert toolCallId tool }

def PendingScan.settleTool (scan : PendingScan) (toolCallId : ToolCallId)
    (allowed : List PendingToolStage) : Except MemoryError PendingScan := do
  let tool ← scan.requireToolStage toolCallId allowed
  .ok (scan.setTool toolCallId { tool with stage := .settled })

def PermissionOutcome.nextStage : PermissionOutcome → PendingToolStage
  | .deny => .deniedPending
  | .ask => .permissionPending
  | .allow => .authorized

def PermissionAnswer.nextStage : PermissionAnswer → PendingToolStage
  | .allowOnce => .authorized
  | .deny => .deniedPending

/-- One round of the loop in `pending_session_facts_from_events`. -/
def PendingScan.step (scan : PendingScan) (event : EventEnvelope) :
    Except MemoryError PendingScan :=
  match event.payload with
  | .inputAdmitted inputId prompt deliveryMode =>
    if (scan.inputs.find? inputId).isSome then .error .invalidCompactionEventStream
    else .ok { scan with inputs := scan.inputs.insert inputId ⟨prompt, deliveryMode, false⟩ }
  | .attemptPrepared attemptId inputId _ retryOf =>
    if attemptId ∈ scan.attempts then .error .invalidCompactionEventStream
    else
      match scan.inputs.find? inputId with
      | none => .error .invalidCompactionEventStream
      | some input =>
        let attempts := insert attemptId scan.attempts
        if retryOf.isSome then .ok { scan with attempts }
        else if input.promoted then .error .invalidCompactionEventStream
        else .ok { scan with
          attempts
          inputs := scan.inputs.insert inputId { input with promoted := true } }
  | .toolCallProposed attemptId call =>
    if attemptId ∉ scan.attempts ∨ (scan.tools.find? call.toolCallId).isSome then
      .error .invalidCompactionEventStream
    else .ok (scan.setTool call.toolCallId ⟨attemptId, call, .proposed, none, none⟩)
  | .toolPermissionRecorded toolCallId decisionId outcome => do
    let tool ← scan.requireToolStage toolCallId [.proposed]
    .ok (scan.setTool toolCallId { tool with
      policyDecision := some (decisionId, outcome), stage := outcome.nextStage })
  | .toolPermissionAnswered toolCallId decisionId answer => do
    let tool ← scan.requireToolStage toolCallId [.permissionPending]
    if tool.policyDecision ≠ some (decisionId, .ask) then .error .invalidCompactionEventStream
    else
      .ok (scan.setTool toolCallId { tool with
        humanAnswer := some (decisionId, answer), stage := answer.nextStage })
  | .toolCallStarted toolCallId => do
    let tool ← scan.requireToolStage toolCallId [.authorized]
    .ok (scan.setTool toolCallId { tool with stage := .running })
  | .toolCallCompleted toolCallId _ => scan.settleTool toolCallId [.running]
  | .toolCallFailed toolCallId _ => scan.settleTool toolCallId [.running]
  | .toolCallMarkedUnknown toolCallId => scan.settleTool toolCallId [.running]
  | .toolCallDenied toolCallId => scan.settleTool toolCallId [.deniedPending]
  | .toolCallCancelled toolCallId =>
    scan.settleTool toolCallId [.proposed, .permissionPending, .authorized, .running]
  | _ => .ok scan

/-- The facts of one unsettled call: its open question, if any, before the call itself. -/
def callFacts (codec : FactCodec) (toolCallId : ToolCallId) (tool : PendingToolState) :
    Except MemoryError (List PendingSessionFact) := do
  if tool.stage = .permissionPending then
    let permission ← pendingPermissionFact codec toolCallId tool
    .ok [permission, pendingToolFact codec toolCallId tool]
  else .ok [pendingToolFact codec toolCallId tool]

def PendingScan.facts (scan : PendingScan) (codec : FactCodec) :
    Except MemoryError (List PendingSessionFact) := do
  let inputs := (scan.inputs.entries.filter fun entry => !entry.2.promoted).map fun entry =>
    pendingInputFact codec entry.1 entry.2
  let tools ← (scan.tools.entries.filter fun entry => entry.2.stage != .settled).mapM
    fun entry => callFacts codec entry.1 entry.2
  .ok (inputs ++ tools.flatten)

def pendingSessionFactsFromEvents (codec : FactCodec) (sessionId : SessionId)
    (expectedLastSequence : SessionSequence) (events : List EventEnvelope) :
    Except MemoryError (List PendingSessionFact) := do
  validateEventPrefix sessionId expectedLastSequence events
  let scan ← FallibleRun.run PendingScan.step .start events
  scan.facts codec

end AutoHarness
