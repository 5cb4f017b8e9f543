import AutoHarness.ToolPlan
import Mathlib.Algebra.GroupWithZero.Nat

namespace AutoHarness

def internalToolError : ToolError := ⟨.internal, .never⟩

def ToolOutput.new (content : String) (artifact : Option ArtifactRef) (originalBytes : UInt64)
    (truncated : Bool) : Except ValueError ToolOutput :=
  if inlineBound : content.utf8ByteSize ≤ maxInlineToolOutputBytes then
    if originalBound : content.utf8ByteSize ≤ originalBytes.toNat then
      if retained : truncated = artifact.isSome then
        .ok ⟨content, artifact, originalBytes, truncated, inlineBound, originalBound, retained⟩
      else .error .toolOutputTooLong
    else .error .toolOutputTooLong
  else .error .toolOutputTooLong

theorem toolOutput_new_fields {content : String} {artifact : Option ArtifactRef}
    {originalBytes : UInt64} {truncated : Bool} {output : ToolOutput}
    (h : ToolOutput.new content artifact originalBytes truncated = .ok output) :
    output.content = content ∧ output.artifact = artifact ∧ output.originalBytes = originalBytes := by
  unfold ToolOutput.new at h
  split at h
  next =>
    split at h
    next =>
      split at h
      next =>
        cases h
        exact ⟨rfl, rfl, rfl⟩
      next => cases h
    next => cases h
  next => cases h

def replacementCharacter : Char := Char.ofNat 0xFFFD

def isContinuation (byte : UInt8) : Bool := 0x80 ≤ byte && byte ≤ 0xBF

/-- The width that a lead byte announces and the range of the byte after it. -/
def leadShape (lead : UInt8) : Option (Nat × UInt8 × UInt8) :=
  if 0xC2 ≤ lead && lead ≤ 0xDF then some (2, 0x80, 0xBF)
  else if lead == 0xE0 then some (3, 0xA0, 0xBF)
  else if lead == 0xED then some (3, 0x80, 0x9F)
  else if 0xE1 ≤ lead && lead ≤ 0xEF then some (3, 0x80, 0xBF)
  else if lead == 0xF0 then some (4, 0x90, 0xBF)
  else if 0xF1 ≤ lead && lead ≤ 0xF3 then some (4, 0x80, 0xBF)
  else if lead == 0xF4 then some (4, 0x80, 0x8F)
  else none

def continuationBits (byte : UInt8) : Nat := byte.toNat % 64

/-- `String::from_utf8_lossy`: each maximal ill-formed part becomes one replacement character. -/
def fromUtf8Lossy : List UInt8 → List Char
  | [] => []
  | lead :: rest =>
    if lead < 0x80 then Char.ofNat lead.toNat :: fromUtf8Lossy rest
    else
      match leadShape lead, rest with
      | none, rest => replacementCharacter :: fromUtf8Lossy rest
      | some _, [] => [replacementCharacter]
      | some (width, low, high), second :: rest₁ =>
        if second < low || high < second then
          replacementCharacter :: fromUtf8Lossy (second :: rest₁)
        else if width = 2 then
          Char.ofNat (lead.toNat % 32 * 64 + continuationBits second) :: fromUtf8Lossy rest₁
        else
          match rest₁ with
          | [] => [replacementCharacter]
          | third :: rest₂ =>
            if !isContinuation third then
              replacementCharacter :: fromUtf8Lossy (third :: rest₂)
            else if width = 3 then
              Char.ofNat ((lead.toNat % 16 * 64 + continuationBits second) * 64 +
                continuationBits third) :: fromUtf8Lossy rest₂
            else
              match rest₂ with
              | [] => [replacementCharacter]
              | fourth :: rest₃ =>
                if !isContinuation fourth then
                  replacementCharacter :: fromUtf8Lossy (fourth :: rest₃)
                else
                  Char.ofNat (((lead.toNat % 8 * 64 + continuationBits second) * 64 +
                    continuationBits third) * 64 + continuationBits fourth) ::
                    fromUtf8Lossy rest₃
termination_by bytes => bytes.length

/-- The longest front of whole characters within a number of bytes. -/
def boundedFront (limit : Nat) : List Char → List Char
  | [] => []
  | character :: rest =>
    if character.utf8Size ≤ limit then
      character :: boundedFront (limit - character.utf8Size) rest
    else []

def byteCount (bytes : List UInt8) : UInt64 :=
  UInt64.ofNat (min bytes.length (2 ^ 64 - 1))

/-- Bounded inline output of one call; longer bytes are retained by the artifact store. -/
def capture (inlineOutputBytes : Nat)
    (put : List UInt8 → String → Except ToolError ArtifactRef) (bytes : List UInt8) :
    Except ToolError ToolOutput :=
  let content := fromUtf8Lossy bytes
  if bytes.length ≤ inlineOutputBytes then
    (ToolOutput.new (String.ofList content) none (byteCount bytes) false).mapError
      fun _ => internalToolError
  else do
    let artifact ← put bytes "application/octet-stream"
    (ToolOutput.new (String.ofList (boundedFront inlineOutputBytes content)) (some artifact)
      (byteCount bytes) true).mapError fun _ => internalToolError

end AutoHarness
