import AutoHarness.JsonText
import AutoHarness.Sse

namespace AutoHarness

def invalidRequestError : ProviderError := ⟨.invalidRequest, .never⟩

inductive ChatRole where
  | user
  | assistant
deriving DecidableEq, Repr

/-- Exact message text with some visible character. -/
structure ChatContent where
  value : String
  nonblank : isBlank value = false

instance : DecidableEq ChatContent := fun x y =>
  decidable_of_iff (x.value = y.value)
    ⟨fun h => by cases x; cases y; cases h; rfl, fun h => congrArg ChatContent.value h⟩

theorem nonblank_of_not {value : String} (h : ¬ isBlank value = true) : isBlank value = false :=
  Bool.eq_false_iff.mpr h

def ChatContent.new (value : String) : Except ProviderError ChatContent :=
  if h : isBlank value = true then .error invalidRequestError
  else .ok ⟨value, nonblank_of_not h⟩

theorem ChatContent.new_eq_ok_iff {value : String} {content : ChatContent} :
    ChatContent.new value = .ok content ↔ content.value = value := by
  unfold ChatContent.new
  split
  next h =>
    simp only [reduceCtorEq, false_iff]
    intro same
    have nonblank := content.nonblank
    rw [same, h] at nonblank
    cases nonblank
  next h =>
    cases content with
    | mk text nonblank =>
      simp only [Except.ok.injEq, ChatContent.mk.injEq]
      exact eq_comm

theorem ChatContent.new_ok_iff {value : String} :
    (∃ content, ChatContent.new value = .ok content) ↔ isBlank value = false := by
  constructor
  · rintro ⟨content, made⟩
    rw [← ChatContent.new_eq_ok_iff.mp made]
    exact content.nonblank
  · intro h
    exact ⟨⟨value, h⟩, ChatContent.new_eq_ok_iff.mpr rfl⟩

def maxContextPreludeBytes : Nat := 256 * 1024

structure ContextPrelude where
  value : String
  nonblank : isBlank value = false
  bounded : value.utf8ByteSize ≤ maxContextPreludeBytes

instance : DecidableEq ContextPrelude := fun x y =>
  decidable_of_iff (x.value = y.value)
    ⟨fun h => by cases x; cases y; cases h; rfl, fun h => congrArg ContextPrelude.value h⟩

structure ProviderToolCall where
  providerCallId : ProviderCallId
  toolName : ToolName
  arguments : ToolArguments
deriving DecidableEq

inductive ChatMessage where
  | text (role : ChatRole) (content : ChatContent)
  | toolCall (call : ProviderToolCall)
  | toolResult (providerCallId : ProviderCallId) (toolName : ToolName) (content : ChatContent)
deriving DecidableEq

structure ProviderToolDefinition where
  name : ToolName
  description : String
  schemaVersion : UInt16
  parameters : JsonValue
deriving DecidableEq

def ProviderToolDefinition.newV1 (floatBytes : UInt64 → Nat) (name : ToolName)
    (description : String) (parameters : JsonValue) :
    Except ProviderError ProviderToolDefinition :=
  if isBlank description || description.utf8ByteSize > 4096 || !parameters.isObject ||
      parameters.encodedBytes floatBytes > 64 * 1024 then .error invalidRequestError
  else .ok ⟨name, description, toolSchemaV1, parameters⟩

/-- A stateless provider request with the complete admitted local history. -/
structure ChatRequest where
  modelId : ModelId
  messages : List ChatMessage
  context : Option ContextPrelude
  tools : List ProviderToolDefinition
deriving DecidableEq

def ChatRequest.new (modelId : ModelId) (messages : List ChatMessage) :
    Except ProviderError ChatRequest :=
  if messages.isEmpty then .error invalidRequestError else .ok ⟨modelId, messages, none, []⟩

def ChatRequest.withTools (request : ChatRequest) (tools : List ProviderToolDefinition) :
    ChatRequest :=
  { request with tools := tools }

/-- One versioned definition exposed to provider adapters. -/
structure ToolDefinition where
  name : ToolName
  description : String
  schemaVersion : UInt16
  parameters : JsonValue

def definition (name : ToolName) (description : String) (parameters : JsonValue) :
    ToolDefinition :=
  ⟨name, description, toolSchemaV1, parameters⟩

def textSchema : JsonValue := .object [("type", .string "string")]

def choiceSchema (choices : List String) : JsonValue :=
  .object [("enum", .array (choices.map .string)), ("type", .string "string")]

/-- The object schema of one tool; the map of the source keeps its keys sorted. -/
def objectSchema (properties : List (String × JsonValue)) (required : List String) : JsonValue :=
  .object [("additionalProperties", .bool false), ("properties", .object properties),
    ("required", .array (required.map .string)), ("type", .string "object")]

theorem fsRead_named : validateIdentifier "fs_read" = .ok () := rfl

theorem fsWrite_named : validateIdentifier "fs_write" = .ok () := rfl

theorem processRun_named : validateIdentifier "process_run" = .ok () := rfl

theorem httpRequest_named : validateIdentifier "http_request" = .ok () := rfl

theorem memoryPropose_named : validateIdentifier "memory_propose" = .ok () := rfl

/-- The complete built-in registry. -/
def definitions : List ToolDefinition :=
  [definition ⟨"fs_read", fsRead_named⟩ "Read one UTF-8 or binary file relative to the workspace root."
      (objectSchema [("path", textSchema)] ["path"]),
    definition ⟨"fs_write", fsWrite_named⟩
      "Create or replace one UTF-8 file relative to the workspace root."
      (objectSchema [("content", textSchema), ("path", textSchema)] ["path", "content"]),
    definition ⟨"process_run", processRun_named⟩ "Run one executable directly without a command shell."
      (objectSchema
        [("arguments", .object [("items", textSchema), ("type", .string "array")]),
          ("cwd", textSchema), ("program", textSchema)] ["program"]),
    definition ⟨"http_request", httpRequest_named⟩
      "Issue one bounded HTTP or HTTPS request without following redirects."
      (objectSchema
        [("body", textSchema),
          ("method", choiceSchema ["GET", "POST", "PUT", "PATCH", "DELETE", "HEAD"]),
          ("url", textSchema)] ["method", "url"]),
    definition ⟨"memory_propose", memoryPropose_named⟩
      ("Submit one bounded untrusted memory candidate for independent review. This tool cannot " ++
        "activate, approve, or directly make memory eligible for context.")
      (objectSchema
        [("content", .object
            [("description", .string "Exact candidate content to retain for review."),
              ("maxLength", .number (.posInt 16384)), ("minLength", .number (.posInt 1)),
              ("type", .string "string")]),
          ("kind", choiceSchema ["fact", "preference", "constraint", "lesson", "procedure"]),
          ("scope", .object
            [("description", .string ("Relative scope resolved by the application; scope " ++
                "identifiers are never accepted.")),
              ("enum", .array [.string "session", .string "workspace"]),
              ("type", .string "string")]),
          ("sensitivity", choiceSchema ["public", "internal"]),
          ("source_provider_call_id", .object
            [("description", .string
                "Optional exact provider call identifier for evidence verification."),
              ("maxLength", .number (.posInt 512)), ("minLength", .number (.posInt 1)),
              ("pattern", .string "^[A-Za-z0-9_.:/@+%~-]+$"), ("type", .string "string")])]
        ["content", "kind", "scope", "sensitivity"])]

def advertise (floatBytes : UInt64 → Nat) (definition : ToolDefinition) :
    Except ProviderError ProviderToolDefinition :=
  ProviderToolDefinition.newV1 floatBytes definition.name definition.description definition.parameters

def ToolDefinition.fits (definition : ToolDefinition) : Bool :=
  !isBlank definition.description && decide (definition.description.utf8ByteSize ≤ 4096) &&
    definition.parameters.isObject && definition.parameters.floatFree &&
    decide (definition.parameters.encodedBytes (fun _ => 0) ≤ 64 * 1024)

theorem definitions_fit : ∀ definition ∈ definitions, definition.fits = true := by
  intro definition member
  simp only [definitions, List.mem_cons, List.not_mem_nil, or_false] at member
  rcases member with rfl | rfl | rfl | rfl | rfl
  all_goals decide +kernel

/-- Every built-in definition passes the bounds of the provider registry. -/
theorem definitions_advertised (floatBytes : UInt64 → Nat) :
    ∃ tools, definitions.mapM (advertise floatBytes) = .ok tools := by
  refine (FallibleRun.mapM_ok ?_).imp fun tools mapped => mapped.1
  intro definition member
  have fits := definitions_fit definition member
  simp only [ToolDefinition.fits, Bool.and_eq_true, Bool.not_eq_true', decide_eq_true_eq] at fits
  obtain ⟨⟨⟨⟨written, short⟩, object⟩, free⟩, bounded⟩ := fits
  rw [encodedBytes_floatFree (fun _ => 0) floatBytes _ free] at bounded
  refine ⟨⟨definition.name, definition.description, toolSchemaV1, definition.parameters⟩, ?_⟩
  unfold advertise ProviderToolDefinition.newV1
  simp [written, object, Nat.not_lt.mpr short, Nat.not_lt.mpr bounded]

end AutoHarness
