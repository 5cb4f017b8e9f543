import AutoHarness.Tool

namespace AutoHarness

inductive ToolErrorKind where
  | invalidCall
  | memoryProposalSinkRequired
  | permissionDenied
  | filesystem
  | process
  | http
  | timeout
  | cancelled
  | outputLimit
  | turnLimit
  | artifact
  | internal
deriving DecidableEq, Repr

structure ToolError where
  kind : ToolErrorKind
  retry : RetryAdvice
deriving DecidableEq, Repr

def invalidCall : ToolError := ⟨.invalidCall, .never⟩

inductive MemoryKind where
  | fact
  | preference
  | constraint
  | lesson
  | procedure
deriving DecidableEq, Repr

inductive Sensitivity where
  | public_
  | internal
  | sensitive
  | secret
deriving DecidableEq, Repr

inductive MemoryProposalScope where
  | session
  | workspace
deriving DecidableEq, Repr

def MemoryProposalScope.asResourceName : MemoryProposalScope → String
  | .session => "session"
  | .workspace => "workspace"

def maxMemoryContentBytes : Nat := 16384

structure MemoryContent where
  value : String
  nonblank : isBlank value = false
  bounded : value.utf8ByteSize ≤ maxMemoryContentBytes
deriving Repr

structure MemoryProposal where
  content : MemoryContent
  memoryKind : MemoryKind
  scope : MemoryProposalScope
  sensitivity : Sensitivity
  sourceProviderCallId : Option ProviderCallId
deriving Repr

inductive HttpMethod where
  | get
  | post
  | put
  | patch
  | delete
  | head
deriving DecidableEq, Repr

/-- The parts of a parsed URL that the planner reads. -/
structure Url where
  serialization : String
  scheme : String
  username : String
  password : Option String
  host : Option String
  origin : String
deriving DecidableEq, Repr

/-- Trusted parsed operation. A path is the list of its normal components. -/
inductive Operation where
  | rejectInvalid
  | submitMemoryProposal (proposal : MemoryProposal)
  | readFile (path : List String)
  | writeFile (path : List String) (content : ByteArray)
  | runProcess (program : String) (arguments : List String) (cwd : List String)
  | httpRequest (method : HttpMethod) (url : Url) (body : Option ByteArray)

structure PlannedToolCall where
  spec : ToolCallSpec
  operation : Operation

def PlannedToolCall.rejectsExecution (planned : PlannedToolCall) : Bool :=
  match planned.operation with
  | .rejectInvalid => true
  | .submitMemoryProposal _ | .readFile _ | .writeFile _ _ | .runProcess _ _ _
  | .httpRequest _ _ _ => false

structure IncomingToolCall where
  toolCallId : ToolCallId
  providerCallId : ProviderCallId
  toolName : ToolName
  arguments : ToolArguments
deriving DecidableEq, Repr

def maxResourceBytes : Nat := 4 * 1024

def ResourceRef.new (value : String) : Except ToolError ResourceRef :=
  if isBlank value || value.utf8ByteSize > maxResourceBytes || value.toList.any isControl then
    .error invalidCall
  else .ok ⟨value⟩

section Arguments

variable (fields : List (String × JsonValue))

/-- `deny_unknown_fields`. -/
def denyUnknownFields (known : List String) : Except ToolError Unit :=
  if fields.all fun field => known.contains field.1 then .ok () else .error invalidCall

def stringField (name : String) : Except ToolError String :=
  match fields.lookup name with
  | some (.string value) => .ok value
  | _ => .error invalidCall

def optionalStringField (name : String) : Except ToolError (Option String) :=
  match fields.lookup name with
  | none | some .null => .ok none
  | some (.string value) => .ok (some value)
  | _ => .error invalidCall

/-- A `Vec<String>` with `#[serde(default)]`. -/
def stringsField (name : String) : Except ToolError (List String) :=
  match fields.lookup name with
  | none => .ok []
  | some (.array items) => items.mapM fun item =>
    match item with
    | .string value => .ok value
    | _ => .error invalidCall
  | _ => .error invalidCall

/-- A unit variant is accepted as its name or as the map from its name to null. -/
def variantField {α : Type} (name : String) (variants : List (String × α)) : Except ToolError α :=
  let variant := fun text => match variants.lookup text with
    | some value => .ok value
    | none => .error invalidCall
  match fields.lookup name with
  | some (.string text) => variant text
  | some (.object [(text, .null)]) => variant text
  | _ => .error invalidCall

end Arguments

def memoryContentNew (value : String) : Except ToolError MemoryContent :=
  if hb : isBlank value = false then
    if hl : value.utf8ByteSize ≤ maxMemoryContentBytes then .ok ⟨value, hb, hl⟩
    else .error invalidCall
  else .error invalidCall

def providerCallIdNew (value : String) : Except ToolError ProviderCallId :=
  match Identifier.new value with
  | .ok id => .ok id
  | .error _ => .error invalidCall

/-- Unix path components: a root or a parent component is refused, `.` and empty ones vanish. -/
def workspacePath (value : String) : Except ToolError (List String) :=
  if value.isEmpty || value.toList.any isControl then .error invalidCall
  else if value.toList.head? == some '/' then .error invalidCall
  else
    let components := (value.toList.splitOn '/').map String.ofList
    let normalized := components.filter fun part => part != "" && part != "."
    if normalized.contains ".." then .error invalidCall else .ok normalized

def displayRelative (path : List String) : String :=
  if path.isEmpty then "." else String.intercalate "/" path

def workspaceResource (path : List String) : Except ToolError ResourceRef :=
  ResourceRef.new ("workspace:" ++ displayRelative path)

def asciiLowercase (text : String) : String :=
  String.ofList (text.toList.map Char.toLower)

def shellPrograms : List String :=
  ["sh", "bash", "dash", "zsh", "ksh", "fish", "cmd", "cmd.exe", "powershell", "powershell.exe",
    "pwsh", "pwsh.exe"]

def validateProgram (program : String) : Except ToolError Unit :=
  let normalized := asciiLowercase program
  let isBatch := ".bat".toList.isSuffixOf normalized.toList ||
    ".cmd".toList.isSuffixOf normalized.toList
  if program.isEmpty || program.utf8ByteSize > 255 || program.toList.any isWhitespace ||
      program.toList.any (fun c => c == '/' || c == '\\') || shellPrograms.contains normalized ||
      isBatch || !program.toList.all (fun c => c.isAlphanum || c == '-' || c == '_' || c == '.') then
    .error invalidCall
  else .ok ()

def maxProcessArguments : Nat := 256

def maxProcessArgumentBytes : Nat := 64 * 1024

def maxRequestBodyBytes : Nat := 256 * 1024

def httpMethods : List (String × HttpMethod) :=
  [("GET", .get), ("POST", .post), ("PUT", .put), ("PATCH", .patch), ("DELETE", .delete),
    ("HEAD", .head)]

def planFileRead (fields : List (String × JsonValue)) :
    Except ToolError (Operation × CapabilityRequest) := do
  denyUnknownFields fields ["path"]
  let path ← workspacePath (← stringField fields "path")
  let resource ← workspaceResource path
  .ok (.readFile path, ⟨.filesystemRead, resource⟩)

def planFileWrite (fields : List (String × JsonValue)) :
    Except ToolError (Operation × CapabilityRequest) := do
  denyUnknownFields fields ["path", "content"]
  let content ← stringField fields "content"
  let path ← workspacePath (← stringField fields "path")
  let resource ← workspaceResource path
  .ok (.writeFile path content.toUTF8, ⟨.filesystemWrite, resource⟩)

def planProcess (fields : List (String × JsonValue)) :
    Except ToolError (Operation × CapabilityRequest) := do
  denyUnknownFields fields ["program", "arguments", "cwd"]
  let program ← stringField fields "program"
  let arguments ← stringsField fields "arguments"
  let directory ← optionalStringField fields "cwd"
  validateProgram program
  if arguments.length > maxProcessArguments ||
      arguments.foldr (fun text bytes => text.utf8ByteSize + bytes) 0 > maxProcessArgumentBytes then
    .error invalidCall
  else
    let cwd ← workspacePath (directory.getD ".")
    let resource ← ResourceRef.new
      ("program:" ++ program ++ "@workspace:" ++ displayRelative cwd)
    .ok (.runProcess program arguments cwd, ⟨.processExecute, resource⟩)

def planHttp (parseUrl : String → Option Url) (fields : List (String × JsonValue)) :
    Except ToolError (Operation × CapabilityRequest) := do
  denyUnknownFields fields ["method", "url", "body"]
  let method ← stringField fields "method"
  let url ← stringField fields "url"
  let body ← optionalStringField fields "body"
  match httpMethods.lookup method, parseUrl url with
  | some method, some url =>
    if (url.scheme != "http" && url.scheme != "https") || url.username != "" ||
        url.password.isSome || url.host.isNone ||
        body.any (fun text => text.utf8ByteSize > maxRequestBodyBytes) then
      .error invalidCall
    else
      let resource ← ResourceRef.new url.origin
      .ok (.httpRequest method url (body.map String.toUTF8), ⟨.httpRequest, resource⟩)
  | _, _ => .error invalidCall

def planMemoryProposal (fields : List (String × JsonValue)) :
    Except ToolError (Operation × CapabilityRequest) := do
  denyUnknownFields fields ["content", "kind", "scope", "sensitivity", "source_provider_call_id"]
  let content ← memoryContentNew (← stringField fields "content")
  let kind ← variantField fields "kind" [("fact", .fact), ("preference", .preference),
    ("constraint", .constraint), ("lesson", .lesson), ("procedure", .procedure)]
  let scope ← variantField fields "scope" [("session", MemoryProposalScope.session),
    ("workspace", .workspace)]
  let sensitivity ← variantField fields "sensitivity" [("public", .public_),
    ("internal", .internal)]
  let source ← (← optionalStringField fields "source_provider_call_id").mapM providerCallIdNew
  let resource ← ResourceRef.new ("memory-proposal:" ++ scope.asResourceName)
  .ok (.submitMemoryProposal ⟨content, kind, scope, sensitivity, source⟩,
    ⟨.memoryProposal, resource⟩)

section Plan

-- URL parsing is the business of an external crate
variable (parseUrl : String → Option Url)

def planSupported (name : String) (fields : List (String × JsonValue)) :
    Except ToolError (Operation × CapabilityRequest) :=
  match name with
  | "fs_read" => planFileRead fields
  | "fs_write" => planFileWrite fields
  | "process_run" => planProcess fields
  | "http_request" => planHttp parseUrl fields
  | "memory_propose" => planMemoryProposal fields
  | _ => .error invalidCall

def invalidToolCallRequest : CapabilityRequest :=
  ⟨.invalidToolCall, ⟨"tool-call:invalid"⟩⟩

/-- Unknown or invalid calls become a plan without authority. -/
def plan (incoming : IncomingToolCall) : PlannedToolCall :=
  let (operation, capability) :=
    match planSupported parseUrl incoming.toolName.value incoming.arguments.fields with
    | .ok planned => planned
    | .error _ => (.rejectInvalid, invalidToolCallRequest)
  { spec :=
      { toolCallId := incoming.toolCallId
        providerCallId := incoming.providerCallId
        toolName := incoming.toolName
        schemaVersion := toolSchemaV1
        arguments := incoming.arguments
        capability }
    operation }

/-- Rebuild the plan of a frozen call and refuse drift. -/
def replan (spec : ToolCallSpec) : Except ToolError PlannedToolCall :=
  if spec.schemaVersion ≠ toolSchemaV1 then .error invalidCall
  else
    let planned := plan parseUrl
      ⟨spec.toolCallId, spec.providerCallId, spec.toolName, spec.arguments⟩
    if planned.spec ≠ spec then .error invalidCall else .ok planned

end Plan

inductive PermissionEvidence where
  | policyAllow
  | humanAllowOnce
deriving DecidableEq, Repr

/-- Executable plan; only `authorize` builds one. -/
structure AuthorizedToolCall where
  planned : PlannedToolCall

def authorize (planned : PlannedToolCall) (policyOutcome : PermissionOutcome)
    (answer : Option PermissionAnswer) :
    Except ToolError (AuthorizedToolCall × PermissionEvidence) :=
  if planned.rejectsExecution then .error invalidCall
  else
    match policyOutcome, answer with
    | .allow, none => .ok (⟨planned⟩, .policyAllow)
    | .ask, some .allowOnce => .ok (⟨planned⟩, .humanAllowOnce)
    | _, _ => .error ⟨.permissionDenied, .never⟩

def authorizeReplayed (parseUrl : String → Option Url) (spec : ToolCallSpec)
    (policyOutcome : PermissionOutcome) (answer : Option PermissionAnswer) :
    Except ToolError (AuthorizedToolCall × PermissionEvidence) := do
  let planned ← replan parseUrl spec
  authorize planned policyOutcome answer

end AutoHarness
