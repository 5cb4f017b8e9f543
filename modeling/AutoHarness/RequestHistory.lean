import AutoHarness.AttemptSettlement
import AutoHarness.ChatRequest

namespace AutoHarness

open FallibleRun

/-- The exact durable response deltas in order. -/
def AttemptProjection.responseText (attempt : AttemptProjection) : String :=
  attempt.text.foldl (fun output delta => output ++ delta.value) ""

def toolResultContent (call : ToolCallProjection) : String :=
  match call.status with
  | .completed =>
    if call.call.capability.kind = .memoryProposal then "Memory proposal recorded for review"
    else
      match call.output with
      | none => "Tool completed without output"
      | some output => output.content
  | .failed =>
    match call.failure with
    | none => "Tool failed"
    | some failure => "Tool failed: " ++ failure.message.value
  | .denied =>
    if call.call.capability.kind = .invalidToolCall then
      "Tool call rejected: use only an advertised tool with its exact argument schema"
    else "Tool permission was denied"
  | .cancelled => "Tool execution was cancelled"
  | .unknown => "Tool outcome is unknown after interruption and was not retried"
  | .proposed | .permissionPending | .authorized | .deniedPending | .running =>
    "Tool result is not settled"

def pushToolExchange (messages : List ChatMessage) (call : ToolCallProjection) :
    Except ProviderError (List ChatMessage) := do
  let messages := messages ++
    [.toolCall ⟨call.call.providerCallId, call.call.toolName, call.call.arguments⟩]
  if call.status.isSettled then
    let content ← ChatContent.new (toolResultContent call)
    .ok (messages ++ [.toolResult call.call.providerCallId call.call.toolName content])
  else .ok messages

def appendAttemptOutput (s : SessionAggregate) (messages : List ChatMessage)
    (attempt : AttemptProjection) : Except ProviderError (List ChatMessage) := do
  let messages ←
    if isBlank attempt.responseText then .ok messages
    else do
      let content ← ChatContent.new attempt.responseText
      .ok (messages ++ [.text .assistant content])
  run pushToolExchange messages
    (s.toolCalls.filter fun call => call.attemptId == attempt.attemptId)

/-- A completed attempt that no compaction has covered. -/
def isRetainedCompletedAttempt (compactedThrough : Option SessionSequence)
    (candidate : AttemptProjection) : Bool :=
  candidate.status == .completed &&
    candidate.completedSequence.any fun completed =>
      compactedThrough.all fun cutoff => decide (cutoff.get < completed.get)

/-- The inputs that take part in the request of an attempt. -/
def requestInputs (s : SessionAggregate) (attempt : AttemptProjection)
    (compactedThrough : Option SessionSequence) : List AdmittedInput :=
  s.admittedInputs.filter fun input =>
    input.promotedBy.isSome &&
      (input.inputId == attempt.inputId || s.attempts.any fun candidate =>
        candidate.inputId == input.inputId && isRetainedCompletedAttempt compactedThrough candidate)

/-- The attempts whose output follows the prompt of an input. -/
def requestResponses (s : SessionAggregate) (attempt : AttemptProjection)
    (compactedThrough : Option SessionSequence) (input : AdmittedInput) :
    List AttemptProjection :=
  s.attempts.filter fun candidate =>
    candidate.inputId == input.inputId &&
      (isRetainedCompletedAttempt compactedThrough candidate ||
        (candidate.attemptId == attempt.attemptId &&
          s.toolCalls.any fun call => call.attemptId == attempt.attemptId))

def appendInput (s : SessionAggregate) (attempt : AttemptProjection)
    (compactedThrough : Option SessionSequence) (messages : List ChatMessage)
    (input : AdmittedInput) : Except ProviderError (List ChatMessage) := do
  let content ← ChatContent.new input.prompt.value
  run (appendAttemptOutput s) (messages ++ [.text .user content])
    (requestResponses s attempt compactedThrough input)

def buildRequestAfterCutoff (floatBytes : UInt64 → Nat) (s : SessionAggregate)
    (attemptId : AttemptId) (advertiseTools : Bool)
    (compactedThrough : Option SessionSequence) : Except ProviderError ChatRequest :=
  match s.attempt attemptId with
  | none => .error ⟨.internal, .never⟩
  | some attempt => do
    let messages ← run (appendInput s attempt compactedThrough) []
      (requestInputs s attempt compactedThrough)
    let tools ← definitions.mapM (advertise floatBytes)
    let request ← ChatRequest.new attempt.model.modelId messages
    .ok (if advertiseTools then request.withTools tools else request)

/-- The record of the session that one message of a request is built from. -/
inductive HistoryItem where
  | prompt (input : AdmittedInput)
  | text (attempt : AttemptProjection)
  | toolCall (call : ToolCallProjection)
  | toolResult (call : ToolCallProjection)
deriving DecidableEq

def HistoryItem.message : HistoryItem → Except ProviderError ChatMessage
  | .prompt input => do
    let content ← ChatContent.new input.prompt.value
    .ok (.text .user content)
  | .text attempt => do
    let content ← ChatContent.new attempt.responseText
    .ok (.text .assistant content)
  | .toolCall call =>
    .ok (.toolCall ⟨call.call.providerCallId, call.call.toolName, call.call.arguments⟩)
  | .toolResult call => do
    let content ← ChatContent.new (toolResultContent call)
    .ok (.toolResult call.call.providerCallId call.call.toolName content)

def exchangeItems (call : ToolCallProjection) : List HistoryItem :=
  .toolCall call :: if call.status.isSettled then [.toolResult call] else []

def outputItems (s : SessionAggregate) (attempt : AttemptProjection) : List HistoryItem :=
  (if isBlank attempt.responseText then [] else [.text attempt]) ++
    (s.toolCalls.filter fun call => call.attemptId == attempt.attemptId).flatMap exchangeItems

def inputItems (s : SessionAggregate) (attempt : AttemptProjection)
    (compactedThrough : Option SessionSequence) (input : AdmittedInput) : List HistoryItem :=
  .prompt input ::
    (requestResponses s attempt compactedThrough input).flatMap (outputItems s)

def requestItems (s : SessionAggregate) (attempt : AttemptProjection)
    (compactedThrough : Option SessionSequence) : List HistoryItem :=
  (requestInputs s attempt compactedThrough).flatMap (inputItems s attempt compactedThrough)

theorem mapM_singleton {α β ε : Type} (f : α → Except ε β) (x : α) :
    [x].mapM f = f x >>= fun y => .ok [y] := by
  rw [List.mapM_cons]
  cases f x with
  | error e => rfl
  | ok y => rfl

theorem pushToolExchange_items (messages : List ChatMessage) (call : ToolCallProjection) :
    pushToolExchange messages call =
      (exchangeItems call).mapM HistoryItem.message >>= fun new => .ok (messages ++ new) := by
  unfold pushToolExchange exchangeItems
  cases settled : call.status.isSettled with
  | false =>
    rw [if_neg (by simp), if_neg (by simp), mapM_singleton]
    rfl
  | true =>
    rw [if_pos rfl, if_pos rfl, List.mapM_cons, mapM_singleton]
    simp only [HistoryItem.message, ok_bind]
    cases ChatContent.new (toolResultContent call) with
    | error e => rfl
    | ok content =>
      show Except.ok _ = Except.ok _
      rw [List.append_assoc]
      rfl

theorem appendAttemptOutput_items (s : SessionAggregate) (messages : List ChatMessage)
    (attempt : AttemptProjection) :
    appendAttemptOutput s messages attempt =
      (outputItems s attempt).mapM HistoryItem.message >>= fun new => .ok (messages ++ new) := by
  unfold appendAttemptOutput outputItems
  cases blank : isBlank attempt.responseText with
  | true =>
    rw [if_pos rfl, if_pos rfl, ok_bind, List.nil_append]
    exact run_push pushToolExchange_items messages _
  | false =>
    rw [if_neg (by simp), if_neg (by simp), List.mapM_append, mapM_singleton]
    simp only [HistoryItem.message]
    cases ChatContent.new attempt.responseText with
    | error e => rfl
    | ok content =>
      simp only [ok_bind]
      rw [run_push pushToolExchange_items]
      cases ((s.toolCalls.filter fun call => call.attemptId == attempt.attemptId).flatMap
        exchangeItems).mapM HistoryItem.message with
      | error e => rfl
      | ok new =>
        show Except.ok _ = Except.ok _
        rw [List.append_assoc]

theorem appendInput_items (s : SessionAggregate) (attempt : AttemptProjection)
    (compactedThrough : Option SessionSequence) (messages : List ChatMessage)
    (input : AdmittedInput) :
    appendInput s attempt compactedThrough messages input =
      (inputItems s attempt compactedThrough input).mapM HistoryItem.message >>=
        fun new => .ok (messages ++ new) := by
  unfold appendInput inputItems
  rw [List.mapM_cons]
  simp only [HistoryItem.message]
  cases ChatContent.new input.prompt.value with
  | error e => rfl
  | ok content =>
    simp only [ok_bind]
    rw [run_push (appendAttemptOutput_items s)]
    cases ((requestResponses s attempt compactedThrough input).flatMap
      (outputItems s)).mapM HistoryItem.message with
    | error e => rfl
    | ok new =>
      show Except.ok _ = Except.ok _
      rw [List.append_assoc]
      rfl

/-- The request carries one message for each item, in order. -/
theorem buildRequestAfterCutoff_eq_ok_iff {floatBytes : UInt64 → Nat} {s : SessionAggregate}
    {attemptId : AttemptId} {attempt : AttemptProjection} {advertiseTools : Bool}
    {compactedThrough : Option SessionSequence} {request : ChatRequest}
    (found : s.attempt attemptId = some attempt) :
    buildRequestAfterCutoff floatBytes s attemptId advertiseTools compactedThrough = .ok request ↔
      ∃ messages tools,
        (requestItems s attempt compactedThrough).mapM HistoryItem.message = .ok messages ∧
        definitions.mapM (advertise floatBytes) = .ok tools ∧ messages ≠ [] ∧
        request = ⟨attempt.model.modelId, messages, none, if advertiseTools then tools else []⟩ := by
  unfold buildRequestAfterCutoff
  simp only [found]
  rw [run_push (appendInput_items s attempt compactedThrough)]
  have mapped : (requestInputs s attempt compactedThrough).flatMap
      (inputItems s attempt compactedThrough) = requestItems s attempt compactedThrough := rfl
  rw [mapped]
  constructor
  · intro built
    obtain ⟨messages, pushed, built⟩ := bind_eq_ok_iff.mp built
    obtain ⟨new, rendered, same⟩ := bind_eq_ok_iff.mp pushed
    obtain ⟨tools, advertised, built⟩ := bind_eq_ok_iff.mp built
    obtain ⟨made, checked, built⟩ := bind_eq_ok_iff.mp built
    cases same
    refine ⟨new, tools, rendered, advertised, ?_⟩
    unfold ChatRequest.new at checked
    cases new with
    | nil => cases checked
    | cons message rest =>
      cases checked
      cases advertiseTools with
      | false => exact ⟨List.cons_ne_nil _ _, (Except.ok.inj built).symm⟩
      | true => exact ⟨List.cons_ne_nil _ _, (Except.ok.inj built).symm⟩
  · rintro ⟨messages, tools, rendered, advertised, nonempty, rfl⟩
    cases messages with
    | nil => exact absurd rfl nonempty
    | cons message rest =>
      rw [rendered, ok_bind, advertised]
      cases advertiseTools with
      | false => rfl
      | true => rfl

end AutoHarness
