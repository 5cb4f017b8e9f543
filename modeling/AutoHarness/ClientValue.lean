import AutoHarness.Preferences

namespace AutoHarness.Client

inductive ValidationError where
  | empty (field : String)
  | tooLong (field : String) (maxBytes actualBytes : Nat)
  | tooMany (field : String) (maxItems actualItems : Nat)
  | invalid (field : String)
  | zero (field : String)
  | overflow (field : String)
  | inconsistent (field : String)
deriving DecidableEq, Repr

section Bounds

def maxIdBytes : Nat := 512
def maxTranscriptContentBytes : Nat := 1024 * 1024
def maxSessionTitleBytes : Nat := 128
def maxLabelBytes : Nat := 512
def maxRouterUrlBytes : Nat := 2 * 1024
def maxProfileFieldBytes : Nat := 256
def maxDetailBytes : Nat := 4 * 1024
def maxPermissionDetailBytes : Nat := 512 * 1024
def maxPermissionTotalBytes : Nat := 512 * 1024
def maxSessions : Nat := 4096
def maxTranscriptItems : Nat := 65536
def maxPermissionRequests : Nat := 256
def maxPermissionDetails : Nat := 260
def maxCatalogModels : Nat := 4096
def maxProviders : Nat := 64
def maxMemoryTextBytes : Nat := 65536
def maxMemoryPageBytes : Nat := 8 * 1024 * 1024

variable (field value : String) (maxBytes : Nat)

def validateText : Except ValidationError Unit :=
  if value.utf8ByteSize > maxBytes then .error (.tooLong field maxBytes value.utf8ByteSize) else .ok ()

def validateNonEmptyText : Except ValidationError Unit :=
  if isBlank value then .error (.empty field) else validateText field value maxBytes

def isUnsafeDisplayControl (character : Char) : Bool :=
  let code := character.toNat
  let between (low high : Nat) := low ≤ code && code ≤ high
  isControl character || [0xAD, 0x34F, 0x61C, 0x3164, 0xFEFF, 0xFFA0].contains code ||
    between 0x115F 0x1160 || between 0x17B4 0x17B5 || between 0x180B 0x180F ||
    between 0x200B 0x200F || between 0x202A 0x202E || between 0x2060 0x206F ||
    between 0xFE00 0xFE0F || between 0xFFF0 0xFFFB || between 0x1BCA0 0x1BCA3 ||
    between 0x1D173 0x1D17A || between 0xE0000 0xE0FFF

def validateSecurityText : Except ValidationError Unit := do
  validateText field value maxBytes
  if value.toList.any isUnsafeDisplayControl then .error (.invalid field)

def validateNonEmptySecurityText : Except ValidationError Unit := do
  validateNonEmptyText field value maxBytes
  validateSecurityText field value maxBytes

def validateCount (field : String) (actualItems maxItems : Nat) : Except ValidationError Unit :=
  if actualItems > maxItems then .error (.tooMany field maxItems actualItems) else .ok ()

/-- No white space at the ends, no control character. -/
def isTrimmed (value : String) : Bool :=
  !value.toList.head?.any isWhitespace && !value.toList.getLast?.any isWhitespace

def validateId : Except ValidationError Unit := do
  validateNonEmptyText field value maxIdBytes
  if !isTrimmed value || value.toList.any isControl then .error (.invalid field)

end Bounds

/-- A stable identity, validated under the name of its field. -/
structure Identity (field : String) where
  value : String
  valid : validateId field value = .ok ()
deriving DecidableEq

abbrev MemoryId := Identity "memory_id"
abbrev SessionId := Identity "session_id"
abbrev InputId := Identity "input_id"
abbrev AttemptId := Identity "attempt_id"
abbrev ToolCallId := Identity "tool_call_id"
abbrev ProviderId := Identity "provider_id"
abbrev ConnectionId := Identity "connection_id"
abbrev ModelId := Identity "model_id"

/-- A positive revision shared by every frame type. -/
structure TransportRevision where
  get : Nat
  positive : 0 < get
  bounded : get ≤ 18446744073709551615
deriving DecidableEq

def TransportRevision.initial : TransportRevision := ⟨1, by omega, by omega⟩

def secondRevision : TransportRevision := ⟨2, by omega, by omega⟩

def thirdRevision : TransportRevision := ⟨3, by omega, by omega⟩

/-- A request identity that the host issues, from one on. -/
structure RequestId where
  get : Nat
  positive : 0 < get
  bounded : get ≤ 18446744073709551615
deriving DecidableEq

def firstRequest : RequestId := ⟨1, by omega, by omega⟩

def TransportRevision.next (revision : TransportRevision) : Except ValidationError TransportRevision :=
  if h : revision.get + 1 ≤ 18446744073709551615 then .ok ⟨revision.get + 1, by omega, h⟩
  else .error (.overflow "transport_revision")

theorem TransportRevision.eq_of_get {left right : TransportRevision} (h : left.get = right.get) :
    left = right := by
  cases left
  cases right
  cases h
  rfl

structure TranscriptContent where
  value : String
  bounded : value.utf8ByteSize ≤ maxTranscriptContentBytes
deriving DecidableEq

structure SessionTitle where
  value : String
  nonblank : isBlank value = false
  bounded : value.utf8ByteSize ≤ maxSessionTitleBytes

theorem SessionTitle.value_inj {left right : SessionTitle} :
    left.value = right.value ↔ left = right := by
  cases left
  cases right
  simp

instance : DecidableEq SessionTitle := fun _ _ => decidable_of_iff _ SessionTitle.value_inj

structure MemoryText where
  value : String
  bounded : value.utf8ByteSize ≤ maxMemoryTextBytes
deriving DecidableEq

inductive FailureClass where
  | validation
  | notFound
  | conflict
  | authentication
  | permissionDenied
  | rateLimited
  | timeout
  | unavailable
  | cancelled
  | protocol
  | storage
  | internal
deriving DecidableEq

inductive RetryDirective where
  | never
  | immediate
  | after (delayMs : UInt64)
deriving DecidableEq

structure SafeFailure where
  failureClass : FailureClass
  code : String
  message : String
  retry : RetryDirective
deriving DecidableEq

structure ModelRef where
  providerId : ProviderId
  modelId : ModelId
deriving DecidableEq

end AutoHarness.Client
