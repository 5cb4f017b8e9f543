import AutoHarness.Value

namespace AutoHarness

inductive JsonNumber where
  | posInt (value : UInt64)
  | negInt (value : Int64)
  | float (bits : UInt64)
deriving DecidableEq, Repr

inductive JsonValue where
  | null
  | bool (value : Bool)
  | number (value : JsonNumber)
  | string (value : String)
  | array (items : List JsonValue)
  | object (fields : List (String × JsonValue))
deriving Repr

mutual

def JsonValue.decEq : (a b : JsonValue) → Decidable (a = b)
  | .null, .null => .isTrue rfl
  | .bool a, .bool b => decidable_of_iff (a = b) (by simp)
  | .number a, .number b => decidable_of_iff (a = b) (by simp)
  | .string a, .string b => decidable_of_iff (a = b) (by simp)
  | .array a, .array b =>
    have := JsonValue.decEqItems a b
    decidable_of_iff (a = b) (by simp)
  | .object a, .object b =>
    have := JsonValue.decEqFields a b
    decidable_of_iff (a = b) (by simp)
  | .null, .bool _ | .null, .number _ | .null, .string _ | .null, .array _ | .null, .object _
  | .bool _, .null | .bool _, .number _ | .bool _, .string _ | .bool _, .array _
  | .bool _, .object _ | .number _, .null | .number _, .bool _ | .number _, .string _
  | .number _, .array _ | .number _, .object _ | .string _, .null | .string _, .bool _
  | .string _, .number _ | .string _, .array _ | .string _, .object _ | .array _, .null
  | .array _, .bool _ | .array _, .number _ | .array _, .string _ | .array _, .object _
  | .object _, .null | .object _, .bool _ | .object _, .number _ | .object _, .string _
  | .object _, .array _ => .isFalse (by simp)

def JsonValue.decEqItems : (a b : List JsonValue) → Decidable (a = b)
  | [], [] => .isTrue rfl
  | [], _ :: _ | _ :: _, [] => .isFalse (by simp)
  | x :: xs, y :: ys =>
    have := JsonValue.decEq x y
    have := JsonValue.decEqItems xs ys
    decidable_of_iff (x = y ∧ xs = ys) (by simp)

def JsonValue.decEqFields : (a b : List (String × JsonValue)) → Decidable (a = b)
  | [], [] => .isTrue rfl
  | [], _ :: _ | _ :: _, [] => .isFalse (by simp)
  | (k, x) :: xs, (l, y) :: ys =>
    have := JsonValue.decEq x y
    have := JsonValue.decEqFields xs ys
    decidable_of_iff ((k = l ∧ x = y) ∧ xs = ys) (by simp)

end

instance : DecidableEq JsonValue := JsonValue.decEq

/-- A JSON object of model-authored arguments; the map of the source keeps its keys sorted. -/
structure ToolArguments where
  fields : List (String × JsonValue)
  sorted : (fields.map Prod.fst).Pairwise (· < ·)
deriving DecidableEq, Repr

inductive CapabilityKind where
  | invalidToolCall
  | memoryProposal
  | filesystemRead
  | filesystemWrite
  | processExecute
  | httpRequest
deriving DecidableEq, Repr

/-- A canonical resource. Deserialization does not re-run the checked constructor. -/
structure ResourceRef where
  value : String
deriving DecidableEq, Repr

structure CapabilityRequest where
  kind : CapabilityKind
  resource : ResourceRef
deriving DecidableEq, Repr

inductive PermissionOutcome where
  | deny
  | ask
  | allow
deriving DecidableEq, Repr

inductive PermissionAnswer where
  | allowOnce
  | deny
deriving DecidableEq, Repr

def toolSchemaV1 : UInt16 := 1

/-- Model-authored call data with the authority that trusted planning derived for it. -/
structure ToolCallSpec where
  toolCallId : ToolCallId
  providerCallId : ProviderCallId
  toolName : ToolName
  schemaVersion : UInt16
  arguments : ToolArguments
  capability : CapabilityRequest
deriving DecidableEq, Repr

structure RunLimits where
  maxTurns : UInt32
  maxTimeMs : UInt64
  maxTokens : UInt64
  maxOutputBytes : UInt64
  maxConcurrency : UInt32
deriving DecidableEq, Repr

structure ArtifactRef where
  artifactId : ArtifactId
  byteLen : UInt64
  mediaType : String
deriving DecidableEq, Repr

def maxInlineToolOutputBytes : Nat := 64 * 1024

/-- Bounded inline output, with an artifact exactly when the content was cut. -/
structure ToolOutput where
  content : String
  artifact : Option ArtifactRef
  originalBytes : UInt64
  truncated : Bool
  inlineBound : content.utf8ByteSize ≤ maxInlineToolOutputBytes
  originalBound : content.utf8ByteSize ≤ originalBytes.toNat
  retained : truncated = artifact.isSome
deriving DecidableEq, Repr

/-- The failures of the memory crate that the modelled functions can return. -/
inductive MemoryError where
  | invalidCompactionEventStream
  | invalidDomainValue
deriving DecidableEq, Repr

def utf8Bytes (text : String) : List UInt8 :=
  text.toUTF8.data.toList

/-- `u64::to_be_bytes`. -/
def toBeBytes (value : UInt64) : List UInt8 :=
  [(value >>> 56).toUInt8, (value >>> 48).toUInt8, (value >>> 40).toUInt8,
    (value >>> 32).toUInt8, (value >>> 24).toUInt8, (value >>> 16).toUInt8,
    (value >>> 8).toUInt8, value.toUInt8]

/-- Length-prefixed byte encoder used for stable hashes. -/
structure CanonicalEncoder where
  bytes : List UInt8
deriving DecidableEq, Repr

def CanonicalEncoder.new : CanonicalEncoder := ⟨[]⟩

/-- A length always fits 64 bits, so the conversion error of the source cannot occur. -/
def appendLength (output : List UInt8) (length : Nat) : List UInt8 :=
  output ++ toBeBytes (UInt64.ofNat length)

def CanonicalEncoder.field (encoder : CanonicalEncoder) (name : String) (value : List UInt8) :
    CanonicalEncoder :=
  let named := appendLength encoder.bytes (utf8Bytes name).length ++ utf8Bytes name
  ⟨appendLength named value.length ++ value⟩

/-- The two encodings of external crates: SHA-256 in lowercase hexadecimal digits and the JSON
text of a call. -/
structure FactCodec where
  sha256 : List UInt8 → Sha256Digest
  callJson : ToolCallSpec → List UInt8

def CanonicalEncoder.finish (encoder : CanonicalEncoder) (codec : FactCodec) : Sha256Digest :=
  codec.sha256 encoder.bytes

end AutoHarness
