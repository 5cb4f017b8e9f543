import AutoHarness.ChatRequest
import AutoHarness.Credential
import AutoHarness.EventJson
import AutoHarness.SecretAccumulator
import AutoHarness.SortedMap
import AutoHarness.Sse

namespace AutoHarness

inductive CompletionReason where
  | stop
  | length
  | safety
  | recitation
  | other
  | toolCalls
deriving DecidableEq

structure TextDelta where
  value : String
  nonempty : value.isEmpty = false

def TextDelta.new (value : String) : Except ProviderError TextDelta :=
  if h : value.isEmpty = false then .ok ⟨value, h⟩ else .error protocolError

/-- Normalized lifecycle events emitted by every streaming adapter. -/
inductive ProviderStreamEvent where
  | started
  | textDelta (delta : TextDelta)
  | usage (usage : UsageSnapshot)
  | toolCall (call : ProviderToolCall)
  | completed (reason : CompletionReason)
  | cancelled

/-- No event follows these. -/
def ProviderStreamEvent.terminal : ProviderStreamEvent → Bool
  | .completed _ | .cancelled => true
  | _ => false

def ProviderStreamEvent.call? : ProviderStreamEvent → Option ProviderToolCall
  | .toolCall call => some call
  | _ => none

/-- `str::replace` with a pattern that is not empty; what is skipped belongs to a match. -/
def replaceAll (pattern replacement : List Char) : (skip : Nat) → List Char → List Char
  | _, [] => []
  | skip + 1, _ :: rest => replaceAll pattern replacement skip rest
  | 0, c :: rest =>
    if pattern.isPrefixOf (c :: rest) then
      replacement ++ replaceAll pattern replacement (pattern.length - 1) rest
    else c :: replaceAll pattern replacement 0 rest

namespace OpenAi

/-- The configured secret and its percent encodings. -/
structure RouterCredential where
  raw : String
  percentEncoded : String
  percentEncodedLowerHex : String

def RouterCredential.forms (credential : RouterCredential) : List String :=
  [credential.raw, credential.percentEncoded, credential.percentEncodedLowerHex]

def RouterCredential.redact (credential : RouterCredential) (value : String) : String :=
  credential.forms.foldl (fun value form =>
    String.ofList (replaceAll form.toList "[REDACTED]".toList 0 value.toList)) value

/-- The JSON reader and the length of printed floats. -/
structure StreamCodec where
  fromStr : String → Option JsonValue
  floatBytes : UInt64 → Nat

def maxToolCallsPerTurn : Nat := 64

def maxPendingToolBytes : Nat := 256 * 1024

def maxPendingIdBytes : Nat := 256

def maxPendingNameBytes : Nat := 128

def maxPendingArgumentBytes : Nat := 64 * 1024

structure PendingToolCall where
  id : Option String
  name : Option String
  arguments : String

def PendingToolCall.default : PendingToolCall := ⟨none, none, ""⟩

structure NativeStreamState where
  pendingCompletion : Option CompletionReason
  toolCalls : SortedMap Nat PendingToolCall
  pendingToolBytes : Nat
  toolCallsEmitted : Bool
  textSecrets : SecretAccumulator
  toolIdSecrets : SecretAccumulator
  toolNameSecrets : SecretAccumulator
  toolArgumentSecrets : SecretAccumulator

def NativeStreamState.new : NativeStreamState :=
  ⟨none, .empty, 0, false, .new, .new, .new, .new⟩

def pointer (first second : String) (value : JsonValue) : Option JsonValue :=
  (value.get? first).bind (·.get? second)

def asArray : JsonValue → Option (List JsonValue)
  | .array items => some items
  | _ => none

def number (value : JsonValue) (names : List String) : Option UInt64 :=
  (names.findSome? fun name => (value.get? name).bind JsonValue.asU64?).map UInt64.ofNat

def usage (value : JsonValue) : Option UsageSnapshot :=
  match value.get? "usage" with
  | none => none
  | some usage =>
    let nested (details name : String) : Option UInt64 :=
      ((pointer details name usage).bind JsonValue.asU64?).map UInt64.ofNat
    let snapshot : UsageSnapshot :=
      { inputTokens := number usage ["prompt_tokens", "input_tokens"]
        outputTokens := number usage ["completion_tokens", "output_tokens"]
        cachedInputTokens := nested "prompt_tokens_details" "cached_tokens"
        reasoningTokens := nested "completion_tokens_details" "reasoning_tokens"
        toolTokens := nested "completion_tokens_details" "tool_tokens"
        totalTokens := number usage ["total_tokens"] }
    if snapshot = ⟨none, none, none, none, none, none⟩ then none else some snapshot

def toAsciiLowercase (text : String) : String :=
  String.ofList (text.toList.map Char.toLower)

def completionReason (reason : String) : CompletionReason :=
  let reason := toAsciiLowercase reason
  if reason = "stop" then .stop
  else if reason = "length" ∨ reason = "max_tokens" then .length
  else if reason = "content_filter" ∨ reason = "safety" then .safety
  else if reason = "recitation" then .recitation
  else if reason = "tool_calls" ∨ reason = "function_call" then .toolCalls
  else .other

def errorCodes : List (String × ProviderErrorKind × RetryAdvice) :=
  [("rate_limit_exceeded", .rateLimited, .backoff), ("rate_limit_error", .rateLimited, .backoff),
    ("insufficient_quota", .quotaExceeded, .never), ("quota_exceeded", .quotaExceeded, .never),
    ("authentication_error", .authentication, .never), ("invalid_api_key", .authentication, .never),
    ("permission_error", .permissionDenied, .never), ("permission_denied", .permissionDenied, .never),
    ("model_not_found", .modelNotFound, .never), ("invalid_request_error", .invalidRequest, .never),
    ("invalid_request", .invalidRequest, .never), ("server_error", .unavailable, .backoff),
    ("api_error", .unavailable, .backoff), ("service_unavailable", .unavailable, .backoff),
    ("content_filter", .contentBlocked, .never), ("content_policy_violation", .contentBlocked, .never)]

/-- The error that a body without an HTTP status of its own stands for. -/
def classifyErrorValue (value : JsonValue) : ProviderError :=
  let text (field : Option JsonValue) : Option String := field.bind Serde.string
  let code := (text (pointer "error" "code" value)).or
    ((text (pointer "error" "type" value)).or (text (value.get? "code")))
  let (kind, retry) := ((code.map toAsciiLowercase).bind fun code => errorCodes.lookup code).getD
    (.protocol, .never)
  ⟨kind, retry⟩

section Frames

variable (codec : StreamCodec) (credential : RouterCredential)

/-- An id or a name as a fragment announces it, with the bytes that it adds. -/
def announce (maxBytes : Nat) (secrets : SecretAccumulator) (known : Option String) :
    Option String → Except ProviderError (SecretAccumulator × Option String × Nat)
  | none => .ok (secrets, known, 0)
  | some text =>
    let text := credential.redact text
    let (seen, secrets) := secrets.observeText credential.forms text
    if seen then .error protocolError
    else if text.utf8ByteSize > maxBytes then .error protocolError
    else if known.any (· ≠ text) then .error protocolError
    else .ok (secrets, some text, if known.isNone then text.utf8ByteSize else 0)

def appendArguments (known : String) : Option String → Except ProviderError (String × Nat)
  | none => .ok (known, 0)
  | some arguments =>
    if known.utf8ByteSize + arguments.utf8ByteSize > maxPendingArgumentBytes then .error protocolError
    else .ok (known ++ arguments, arguments.utf8ByteSize)

def appendToolCall (state : NativeStreamState) (value : JsonValue) :
    Except ProviderError NativeStreamState :=
  match (value.get? "index").bind JsonValue.asU64? with
  | none => .error protocolError
  | some index =>
    if (state.toolCalls.find? index).isNone ∧
        state.toolCalls.entries.length ≥ maxToolCallsPerTurn then .error protocolError
    else do
      let pending := (state.toolCalls.find? index).getD .default
      let (idSecrets, id, idBytes) ← announce credential maxPendingIdBytes state.toolIdSecrets pending.id
        ((value.get? "id").bind Serde.string)
      let (nameSecrets, name, nameBytes) ← announce credential maxPendingNameBytes state.toolNameSecrets
        pending.name ((pointer "function" "name" value).bind Serde.string)
      let (arguments, argumentBytes) ← appendArguments pending.arguments
        ((pointer "function" "arguments" value).bind Serde.string)
      let next := state.pendingToolBytes + (idBytes + nameBytes + argumentBytes)
      if next > maxPendingToolBytes then .error protocolError
      else
        .ok { state with
          toolCalls := state.toolCalls.insert index ⟨id, name, arguments⟩
          pendingToolBytes := next
          toolIdSecrets := idSecrets
          toolNameSecrets := nameSecrets }

/-- The call that a pending one has become. -/
def completeToolCall (secrets : SecretAccumulator) (pending : PendingToolCall) :
    Except ProviderError (SecretAccumulator × ProviderToolCall) :=
  match pending.id, pending.name, codec.fromStr pending.arguments with
  | some id, some name, some arguments =>
    let (seen, secrets) := secrets.observeStructured credential.forms arguments
    if seen then .error protocolError
    else
      match (Identifier.new id : Except ValueError ProviderCallId),
        (Identifier.new name : Except ValueError ToolName), ToolArguments.new codec.floatBytes arguments with
      | .ok id, .ok name, .ok arguments => .ok (secrets, ⟨id, name, arguments⟩)
      | _, _, _ => .error protocolError
  | _, _, _ => .error protocolError

def completePending : SecretAccumulator → List (Nat × PendingToolCall) →
    Except ProviderError (SecretAccumulator × List ProviderToolCall)
  | secrets, [] => .ok (secrets, [])
  | secrets, (_, pending) :: rest => do
    let (secrets, call) ← completeToolCall codec credential secrets pending
    let (secrets, calls) ← completePending secrets rest
    .ok (secrets, call :: calls)

def completeToolCalls (state : NativeStreamState) :
    Except ProviderError (NativeStreamState × List ProviderStreamEvent) :=
  if state.toolCalls.entries.isEmpty then .error protocolError
  else do
    let (secrets, calls) ← completePending codec credential state.toolArgumentSecrets state.toolCalls.entries
    .ok ({ state with toolArgumentSecrets := secrets }, calls.map .toolCall)

def handleContent (state : NativeStreamState) (choice : JsonValue) :
    Except ProviderError (NativeStreamState × List ProviderStreamEvent) :=
  match ((pointer "delta" "content" choice).bind Serde.string).filter fun content => !content.isEmpty with
  | none => .ok (state, [])
  | some content => do
    let content := credential.redact content
    let (seen, secrets) := state.textSecrets.observeText credential.forms content
    if seen then .error protocolError
    else
      let delta ← TextDelta.new content
      .ok ({ state with textSecrets := secrets }, [.textDelta delta])

def toolCallValues (choice : JsonValue) : List JsonValue :=
  ((pointer "delta" "tool_calls" choice).bind asArray).getD []

def finishReason (choice : JsonValue) : Option CompletionReason :=
  ((choice.get? "finish_reason").bind Serde.string).map completionReason

def handleFinish (state : NativeStreamState) (choice : JsonValue) :
    Except ProviderError (NativeStreamState × List ProviderStreamEvent) :=
  match finishReason choice with
  | none => .ok (state, [])
  | some reason =>
    if reason = .toolCalls ∧ state.toolCallsEmitted = false then do
      let (state, events) ← completeToolCalls codec credential state
      .ok ({ state with toolCallsEmitted := true, pendingCompletion := some reason }, events)
    else .ok ({ state with pendingCompletion := some reason }, [])

def handleChoice (state : NativeStreamState) (choice : JsonValue) :
    Except ProviderError (NativeStreamState × List ProviderStreamEvent) := do
  let (state, content) ← handleContent credential state choice
  let state ← (toolCallValues choice).foldlM (appendToolCall credential) state
  let (state, calls) ← handleFinish codec credential state choice
  .ok (state, content ++ calls)

def handleValue (state : NativeStreamState) (value : JsonValue) :
    Except ProviderError (NativeStreamState × List ProviderStreamEvent) :=
  if (value.get? "error").isSome then .error (classifyErrorValue value)
  else
    let counted := ((usage value).map ProviderStreamEvent.usage).toList
    match (value.get? "choices").bind asArray with
    | none => .error protocolError
    | some [] => .ok (state, counted)
    | some [choice] => do
      let (state, events) ← handleChoice codec credential state choice
      .ok (state, counted ++ events)
    | some (_ :: _ :: _) => .error protocolError

def handle (state : NativeStreamState) (data : String) :
    Except ProviderError (NativeStreamState × List ProviderStreamEvent) :=
  if trim data = "[DONE]" then
    match state.pendingCompletion with
    | none => .error protocolError
    | some reason => .ok ({ state with pendingCompletion := none }, [.completed reason])
  else
    match codec.fromStr data with
    | none => .error protocolError
    | some value => handleValue codec credential state value

/-- The frames of a turn one after another, as long as none is refused. -/
def handleAll : NativeStreamState → List String →
    Except ProviderError (NativeStreamState × List ProviderStreamEvent)
  | state, [] => .ok (state, [])
  | state, data :: rest => do
    let (state, events) ← handle codec credential state data
    let (state, more) ← handleAll state rest
    .ok (state, events ++ more)

end Frames

section Stream

variable (codec : StreamCodec) (credential : RouterCredential)

/-- What the response body or the caller does next. -/
inductive BodyEvent where
  | chunk (bytes : List UInt8)
  | failed
  | ended
  | cancelled

abbrev Item := Except ProviderError ProviderStreamEvent

def Item.terminal : Item → Bool
  | .error _ => true
  | .ok event => event.terminal

def maxSseFrameBytes : Nat := 1024 * 1024

/-- The text of a frame, whose bytes the decoder has checked. -/
def frameText (frame : Sse.SseFrame) : String :=
  (String.fromUTF8? ⟨frame.data.toArray⟩).getD ""

/-- The events up to the first terminal one, and whether there is one. -/
def yieldEvents : List ProviderStreamEvent → List Item × Bool
  | [] => ([], false)
  | event :: rest =>
    if event.terminal then ([.ok event], true)
    else (.ok event :: (yieldEvents rest).1, (yieldEvents rest).2)

/-- What the frames of a chunk yield, and the state to go on from if nothing ends the stream. -/
def yieldFrames : NativeStreamState → List Sse.SseFrame → List Item × Option NativeStreamState
  | state, [] => ([], some state)
  | state, frame :: rest =>
    match handle codec credential state (frameText frame) with
    | .error e => ([.error e], none)
    | .ok (state, events) =>
      if (yieldEvents events).2 then ((yieldEvents events).1, none)
      else ((yieldEvents events).1 ++ (yieldFrames state rest).1, (yieldFrames state rest).2)

def streamFrom : Sse.SseDecoder → NativeStreamState → List BodyEvent → List Item
  | _, _, [] => []
  | _, _, .cancelled :: _ => [.ok .cancelled]
  | decoder, _, .ended :: _ =>
    match decoder.finish with
    | .error e => [.error e]
    | .ok _ => [.error protocolError]
  | _, _, .failed :: _ => [.error ⟨.transport, .never⟩]
  | decoder, state, .chunk bytes :: rest =>
    match decoder.push bytes with
    | .error e => [.error e]
    | .ok (decoder, frames) =>
      match yieldFrames codec credential state frames with
      | (items, none) => items
      | (items, some state) => items ++ streamFrom decoder state rest

/-- One response of the router, as its caller sees it. -/
def streamChat (body : List BodyEvent) : List Item :=
  .ok .started :: streamFrom codec credential (.new maxSseFrameBytes) .new body

end Stream

end OpenAi

end AutoHarness
