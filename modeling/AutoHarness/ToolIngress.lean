import AutoHarness.EventJson
import AutoHarness.RunBudget
import AutoHarness.Tool
import Mathlib.Data.List.Infix

namespace AutoHarness

open FallibleRun (bind_eq_ok_iff mapError_ok_iff)

section Store

def artifactError : ToolError := ⟨.artifact, .never⟩

/-- The files of the artifact store, each under the digest of what was put. -/
abbrev ArtifactFiles := String → Option (List UInt8)

variable (digest : List UInt8 → String)

def artifactName (bytes : List UInt8) : String := "sha256:" ++ digest bytes

/-- `FileArtifactStore::put`; a new file may fail to be written. -/
def putArtifact (written : Bool) (files : ArtifactFiles) (bytes : List UInt8) (mediaType : String) :
    Except ToolError ArtifactRef × ArtifactFiles :=
  if bytes.isEmpty then (.error artifactError, files)
  else
    match (Identifier.new (artifactName digest bytes) : Except ValueError ArtifactId) with
    | .error _ => (.error artifactError, files)
    | .ok artifactId =>
      let artifact := (ArtifactRef.new artifactId (byteCount bytes) mediaType).mapError fun _ =>
        artifactError
      match files (digest bytes) with
      | some existing =>
        (if digest existing = digest bytes then artifact else .error artifactError, files)
      | none =>
        if written then (artifact, Function.update files (digest bytes) (some bytes))
        else (.error artifactError, files)

/-- A file under the digest of some bytes, if it has that digest, is of these bytes. -/
def DigestUnshared (files : ArtifactFiles) (bytes : List UInt8) : Prop :=
  ∀ kept, files (digest bytes) = some kept → digest kept = digest bytes → kept = bytes

/-- The file that an artifact refers to. -/
def Retains (files : ArtifactFiles) (artifact : ArtifactRef) (content : List UInt8) : Prop :=
  ∃ name, artifact.artifactId.value = "sha256:" ++ name ∧ files name = some content

end Store

section Ingress

/-- `str::contains` for each credential that is not empty. -/
def valueContainsExactCredential (value : String) (credentials : List String) : Bool :=
  credentials.any fun credential =>
    !credential.isEmpty && decide (credential.toList <:+: value.toList)

/-- How the call of a result is settled. -/
inductive ToolSettlement where
  | completed (output : ToolOutput) (budget : RunBudget)
  | suppressed
  | overBudget (error : ToolError)
  | failed (error : ToolError)

/-- The provider that is connected and the credentials that the attempt guards against. -/
structure ToolGuard where
  redactSecrets : Option (String → String)
  credentials : Option (List String)

def ToolGuard.providerValueContainsSecret (guard : ToolGuard) (value : String) : Bool :=
  match guard.redactSecrets with
  | some redact => redact value != value
  | none => false

def ToolGuard.blocks (guard : ToolGuard) (content : String) : Bool :=
  guard.providerValueContainsSecret content ||
    match guard.credentials with
    | some credentials => valueContainsExactCredential content credentials
    | none => true

/-- A call that runs gets its result: only the inline content is looked at. -/
def handleToolResult (guard : ToolGuard) (budget : RunBudget) (elapsed : Nat) :
    Except ToolError ToolOutput → ToolSettlement
  | .error error => .failed error
  | .ok output =>
    if guard.blocks output.content then .suppressed
    else
      match budget.finishTool.addOutput elapsed output.originalBytes with
      | .error error => .overBudget error
      | .ok budget => .completed output budget

/-- Output is captured, which may write an artifact, and then handed to the coordinator. -/
def settleToolOutput (digest : List UInt8 → String) (written : Bool) (guard : ToolGuard)
    (budget : RunBudget) (elapsed inlineOutputBytes : Nat) (files : ArtifactFiles)
    (bytes : List UInt8) : ToolSettlement × ArtifactFiles :=
  (handleToolResult guard budget elapsed
      (capture inlineOutputBytes (fun bytes mediaType =>
        (putArtifact digest written files bytes mediaType).1) bytes),
    if bytes.length ≤ inlineOutputBytes then files
    else (putArtifact digest written files bytes "application/octet-stream").2)

end Ingress

section Capture

variable {digest : List UInt8 → String} {written : Bool} {files : ArtifactFiles}
  {bytes : List UInt8} {mediaType : String} {artifact : ArtifactRef} {content : List UInt8}

theorem artifactRef_new_id {artifactId : ArtifactId} {byteLen : UInt64}
    (h : ArtifactRef.new artifactId byteLen mediaType = .ok artifact) :
    artifact.artifactId = artifactId := by
  unfold ArtifactRef.new at h
  split at h
  next => cases h
  next =>
    cases h
    rfl

/-- The store keeps what it was handed under the artifact that it returns. -/
theorem putArtifact_retains (unshared : DigestUnshared digest files bytes)
    (put : (putArtifact digest written files bytes mediaType).1 = .ok artifact) :
    Retains (putArtifact digest written files bytes mediaType).2 artifact content ↔
      content = bytes := by
  unfold putArtifact at put ⊢
  split at put
  next => cases put
  next filled =>
    rw [if_neg filled]
    cases made : (Identifier.new (artifactName digest bytes) : Except ValueError ArtifactId) with
    | error e =>
      rw [made] at put
      cases put
    | ok artifactId =>
      rw [made] at put
      have hname : artifactId.value = "sha256:" ++ digest bytes := identifier_new_eq_ok_iff.mp made
      have hretains {names : ArtifactFiles} {kept : List UInt8}
          (same : artifact.artifactId = artifactId) (file : names (digest bytes) = some kept) :
          Retains names artifact content ↔ content = kept := by
        unfold Retains
        rw [same, hname]
        constructor
        · rintro ⟨name, named, found⟩
          have heq : digest bytes = name := (String.append_right_inj _).mp named
          rw [← heq, file] at found
          exact (Option.some.inj found).symm
        · rintro rfl
          exact ⟨digest bytes, rfl, file⟩
      cases existing : files (digest bytes) with
      | some kept =>
        rw [existing] at put
        simp only at put ⊢
        split at put
        next same =>
          rw [← unshared kept existing same]
          exact hretains (artifactRef_new_id (mapError_ok_iff.mp put)) existing
        next => cases put
      | none =>
        rw [existing] at put
        simp only at put ⊢
        split at put
        next wrote =>
          rw [if_pos wrote]
          exact hretains (artifactRef_new_id (mapError_ok_iff.mp put)) (Function.update_self ..)
        next => cases put

/-- An output has an artifact when its bytes exceed the inline bound, and then it is of all bytes. -/
theorem capture_artifact {inlineOutputBytes : Nat}
    {put : List UInt8 → String → Except ToolError ArtifactRef} {output : ToolOutput}
    (h : capture inlineOutputBytes put bytes = .ok output) :
    (bytes.length ≤ inlineOutputBytes ∧ output.artifact = none) ∨
      (inlineOutputBytes < bytes.length ∧ ∃ artifact, output.artifact = some artifact ∧
        put bytes "application/octet-stream" = .ok artifact) := by
  unfold capture at h
  simp only at h
  split at h
  next short => exact .inl ⟨short, (toolOutput_new_fields (mapError_ok_iff.mp h)).2.1⟩
  next long =>
    obtain ⟨artifact, stored, h⟩ := bind_eq_ok_iff.mp h
    exact .inr ⟨by omega, artifact, (toolOutput_new_fields (mapError_ok_iff.mp h)).2.1, stored⟩

end Capture

section Settled

variable {guard : ToolGuard} {budget next : RunBudget} {elapsed : Nat} {output : ToolOutput}

/-- What is recorded has passed the guard. -/
theorem handleToolResult_completed {result : Except ToolError ToolOutput}
    (h : handleToolResult guard budget elapsed result = .completed output next) :
    result = .ok output ∧ ∃ credentials, guard.credentials = some credentials ∧
      valueContainsExactCredential output.content credentials = false := by
  cases result with
  | error error => cases h
  | ok made =>
    unfold handleToolResult at h
    simp only at h
    split at h
    next => cases h
    next clean =>
      split at h
      next => cases h
      next =>
        cases h
        unfold ToolGuard.blocks at clean
        cases known : guard.credentials with
        | none =>
          rw [known] at clean
          simp at clean
        | some credentials =>
          rw [known] at clean
          simp only [Bool.or_eq_true, not_or, Bool.not_eq_true] at clean
          exact ⟨rfl, credentials, rfl, clean.2⟩

theorem not_containsExactCredential {value : String} {credentials : List String} :
    valueContainsExactCredential value credentials = false ↔
      ∀ credential ∈ credentials, credential ≠ "" → ¬ credential.toList <:+: value.toList := by
  simp only [valueContainsExactCredential, List.any_eq_false, Bool.and_eq_true, not_and,
    Bool.not_eq_true', decide_eq_true_eq, ne_eq, ← String.isEmpty_iff, Bool.not_eq_true]

/-- The inline content of a completed call holds no configured credential. Its artifact, which is
not looked at, is there when the output exceeds the inline bound, and holds all of it. -/
theorem completed_output_guarded {digest : List UInt8 → String}
    {written : Bool} {inlineOutputBytes : Nat} {files after : ArtifactFiles} {bytes : List UInt8}
    (unshared : DigestUnshared digest files bytes)
    (h : settleToolOutput digest written guard budget elapsed inlineOutputBytes files bytes =
      (.completed output next, after)) :
    (∃ credentials, guard.credentials = some credentials ∧
      ∀ credential ∈ credentials, credential ≠ "" →
        ¬ credential.toList <:+: output.content.toList) ∧
    (output.artifact.isSome = true ↔ inlineOutputBytes < bytes.length) ∧
    ∀ artifact, output.artifact = some artifact →
      ∀ content, Retains after artifact content ↔ content = bytes := by
  obtain ⟨settled, files'⟩ := Prod.mk.inj h
  obtain ⟨captured, credentials, known, clean⟩ := handleToolResult_completed settled
  refine ⟨⟨credentials, known, not_containsExactCredential.mp clean⟩, ?_, ?_⟩
  · rcases capture_artifact captured with ⟨short, none⟩ | ⟨long, artifact, some, -⟩
    · rw [none]
      simpa using short
    · rw [some]
      simpa using long
  · intro artifact referred content
    rcases capture_artifact captured with ⟨-, none⟩ | ⟨long, stored, some, put⟩
    · rw [none] at referred
      cases referred
    · have hsame : stored = artifact := Option.some.inj (some.symm.trans referred)
      subst hsame
      rw [← files', if_neg (by omega)]
      exact putArtifact_retains unshared put

end Settled

section Sample

theorem fromUtf8Lossy_ascii {bytes : List UInt8} (ascii : ∀ byte ∈ bytes, byte < 0x80) :
    fromUtf8Lossy bytes = bytes.map fun byte => Char.ofNat byte.toNat := by
  induction bytes with
  | nil => rw [fromUtf8Lossy, List.map_nil]
  | cons byte rest ih =>
    obtain ⟨first, others⟩ := List.forall_mem_cons.mp ascii
    unfold fromUtf8Lossy
    rw [if_pos first, ih others, List.map_cons]

/-- A response of twenty bytes whose body is a credential. -/
def sampleBytes : List UInt8 := utf8Bytes "status=200\nsk-live-1"

def sampleDigest (_ : List UInt8) : String :=
  "c5a5d10ede46cb4ce38fd0c75730c8e1b1e42247006433d8c76396519341740d"

def sampleGuard : ToolGuard := ⟨none, some ["sk-live-1"]⟩

def sampleToolBudget : RunBudget := ⟨⟨4, 60000, 1000, 65536, 2⟩, 1, 0, 0, 1⟩

theorem sampleArtifact_valid : validateIdentifier (artifactName sampleDigest sampleBytes) = .ok () := by
  decide +kernel

def sampleArtifact : ArtifactRef :=
  ⟨⟨artifactName sampleDigest sampleBytes, sampleArtifact_valid⟩, 20, "application/octet-stream"⟩

theorem sampleOutput_inline : "status=200\n".utf8ByteSize ≤ maxInlineToolOutputBytes := by decide

theorem sampleOutput_original : "status=200\n".utf8ByteSize ≤ (20 : UInt64).toNat := by decide

def sampleOutput : ToolOutput :=
  ⟨"status=200\n", some sampleArtifact, 20, true, sampleOutput_inline, sampleOutput_original, rfl⟩

theorem sampleBytes_ascii : ∀ byte ∈ sampleBytes, byte < 0x80 := by decide +kernel

theorem sample_captured (put : List UInt8 → String → Except ToolError ArtifactRef)
    (stored : put sampleBytes "application/octet-stream" = .ok sampleArtifact) :
    capture 11 put sampleBytes = .ok sampleOutput := by
  have hlength : ¬ sampleBytes.length ≤ 11 := by decide +kernel
  have hfront : boundedFront 11 (sampleBytes.map fun byte => Char.ofNat byte.toNat) =
      "status=200\n".toList := by decide +kernel
  have hcount : byteCount sampleBytes = 20 := by decide +kernel
  unfold capture
  simp only [if_neg hlength, fromUtf8Lossy_ascii sampleBytes_ascii, hfront, hcount, stored]
  rfl

theorem sample_settled :
    settleToolOutput sampleDigest true sampleGuard sampleToolBudget 0 11 (fun _ => none) sampleBytes =
      (.completed sampleOutput { sampleToolBudget with activeTools := 0, outputBytes := 20 },
        Function.update (fun _ => none) (sampleDigest sampleBytes) (some sampleBytes)) := by
  have hlength : ¬ sampleBytes.length ≤ 11 := by decide +kernel
  have hput : putArtifact sampleDigest true (fun _ => none) sampleBytes "application/octet-stream" =
      (.ok sampleArtifact,
        Function.update (fun _ => none) (sampleDigest sampleBytes) (some sampleBytes)) := by
    have hfilled : sampleBytes.isEmpty = false := by decide +kernel
    have hid : (Identifier.new (artifactName sampleDigest sampleBytes) :
        Except ValueError ArtifactId) = .ok ⟨artifactName sampleDigest sampleBytes,
          sampleArtifact_valid⟩ := identifier_new_eq_ok_iff.mpr rfl
    have hcount : byteCount sampleBytes = 20 := by decide +kernel
    unfold putArtifact
    simp only [hfilled, hid, hcount]
    rfl
  have hcaptured := sample_captured
    (fun bytes mediaType => (putArtifact sampleDigest true (fun _ => none) bytes mediaType).1)
    (by rw [hput])
  have hclean : sampleGuard.blocks sampleOutput.content = false := by decide +kernel
  unfold settleToolOutput
  rw [hcaptured, if_neg hlength, hput]
  unfold handleToolResult
  simp only [hclean]
  rfl

theorem completed_output_guarded_sample :
    Retains (Function.update (fun _ => none) (sampleDigest sampleBytes) (some sampleBytes))
      sampleArtifact sampleBytes := by
  have hfree : DigestUnshared sampleDigest (fun _ => none) sampleBytes := by
    intro kept absent
    cases absent
  exact ((completed_output_guarded hfree sample_settled).2.2 sampleArtifact rfl sampleBytes).mpr rfl

/-- A credential past the inline bound is kept in the artifact of a completed call. -/
theorem late_credential_retained :
    settleToolOutput sampleDigest true sampleGuard sampleToolBudget 0 11 (fun _ => none) sampleBytes =
      (.completed sampleOutput { sampleToolBudget with activeTools := 0, outputBytes := 20 },
        Function.update (fun _ => none) (sampleDigest sampleBytes) (some sampleBytes)) ∧
    sampleGuard.credentials = some ["sk-live-1"] ∧
    sampleOutput.artifact = some sampleArtifact ∧
    Retains (Function.update (fun _ => none) (sampleDigest sampleBytes) (some sampleBytes))
      sampleArtifact sampleBytes ∧
    utf8Bytes "sk-live-1" <:+: sampleBytes := by
  refine ⟨sample_settled, rfl, rfl, ⟨sampleDigest sampleBytes, rfl, ?_⟩, by decide +kernel⟩
  exact Function.update_self ..

end Sample

end AutoHarness
