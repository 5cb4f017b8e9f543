import AutoHarness.Memory
import AutoHarness.SortedLists

namespace AutoHarness

/-- `content.replace("\r\n", "\n")`. -/
def replaceCrLf : List Char → List Char
  | '\r' :: '\n' :: rest => '\n' :: replaceCrLf rest
  | c :: rest => c :: replaceCrLf rest
  | [] => []

/-- Line endings are normalized before the content is hashed, nothing else is. -/
def normalizeLineEndings (content : String) : String :=
  String.ofList ((replaceCrLf content.toList).map fun c => if c = '\r' then '\n' else c)

def normalizedContentHash (codec : FactCodec) (content : String) : Sha256Digest :=
  (CanonicalEncoder.new.field "memory_content_v1" (utf8Bytes (normalizeLineEndings content))).finish
    codec

/-- `str::contains` on lists of characters. -/
def containsText (text needle : List Char) : Bool :=
  text.tails.any needle.isPrefixOf

def containsAny (content : String) (needles : List String) : Bool :=
  let lower := content.toList.map Char.toLower
  needles.any fun needle => containsText lower needle.toList

def looksSecretBearing (content : String) : Bool :=
  containsAny content
    ["-----begin private key-----", "authorization: bearer ", "api_key=", "api-key=",
      "secret_key=", "password="]

def looksLikeInstructionInjection (content : String) : Bool :=
  containsAny content
    ["ignore previous instructions", "ignore all previous instructions", "system prompt",
      "developer message", "grant permission", "call this tool"]

def originTrustIsValid : MemoryOrigin → TrustClass → Bool
  | .explicitUser, trust => trust = .userApproved
  | .verifiedTool, trust => trust = .verifiedObservation || trust = .untrustedProposal
  | .importedDocument, trust => trust = .imported || trust = .untrustedProposal
  | .modelProposal, trust | .compaction, trust => trust = .untrustedProposal

def sensitivityScore : Sensitivity → Nat
  | .public_ => 0
  | .internal => 1
  | .sensitive => 2
  | .secret => 3

def issueOrder : MemoryValidationIssue → Nat
  | .secretDetected => 0
  | .unsupportedScope => 1
  | .malformedContent => 2
  | .policyConflict => 3
  | .duplicate => 4
  | .contradiction => 5
  | .injectionPattern => 6
  | .ungroundedEvidence => 7

/-- The issues whose presence alone rejects a revision. -/
def MemoryValidationIssue.rejects : MemoryValidationIssue → Bool
  | .secretDetected | .malformedContent | .unsupportedScope | .policyConflict | .duplicate => true
  | .contradiction | .injectionPattern | .ungroundedEvidence => false

def validationStatus (origin : MemoryOrigin) (issues : List MemoryValidationIssue) :
    MemoryValidationStatus :=
  if issues.any MemoryValidationIssue.rejects then .rejected
  else if origin ≠ .explicitUser ∨ issues ≠ [] then .needsReview
  else .accepted

/-- Exact authority limits supplied by the application. -/
structure MemoryValidationPolicy where
  authorizedScopes : List MemoryScope
  sensitivityCeiling : Sensitivity

/-- An existing head that duplicate checks compare with. -/
structure ExistingMemory where
  memoryId : MemoryId
  scope : MemoryScope
  kind : MemoryKind
  subjectKey : Option MemorySubjectKey
  contentHash : Sha256Digest
deriving DecidableEq

section Analyze

variable (codec : FactCodec) (policy : MemoryValidationPolicy) (scope : MemoryScope)
  (kind : MemoryKind) (draft : MemoryRevisionDraft) (existing : List ExistingMemory)

def ExistingMemory.sameSubject (candidate : ExistingMemory) : Bool :=
  candidate.scope = scope && candidate.kind = kind && candidate.subjectKey = draft.subjectKey

def duplicateCandidates : List MemoryId :=
  let contentHash := normalizedContentHash codec draft.content.value
  sortDedup ((existing.filter fun candidate =>
    candidate.sameSubject scope kind draft && candidate.contentHash = contentHash).map (·.memoryId))

def contradictionCandidates : List MemoryId :=
  let contentHash := normalizedContentHash codec draft.content.value
  sortDedup ((existing.filter fun candidate =>
      draft.subjectKey.isSome && candidate.sameSubject scope kind draft &&
        candidate.contentHash ≠ contentHash).map (·.memoryId) ++
    (draft.relations.filter fun relation => relation.kind = .contradicts).map (·.memoryId))

/-- The issues in the order in which the validator finds them. -/
def foundIssues : List MemoryValidationIssue :=
  let contentHash := normalizedContentHash codec draft.content.value
  (if scope ∉ policy.authorizedScopes then [.unsupportedScope] else []) ++
  (if sensitivityScore draft.sensitivity > sensitivityScore policy.sensitivityCeiling then
    [.policyConflict] else []) ++
  (if draft.contentHash ≠ contentHash then [.malformedContent] else []) ++
  (if draft.sensitivity = .secret ∨ looksSecretBearing draft.content.value then
    [.secretDetected] else []) ++
  (if !originTrustIsValid draft.origin draft.trustClass then [.policyConflict] else []) ++
  (if duplicateCandidates codec scope kind draft existing ≠ [] then [.duplicate] else []) ++
  (if contradictionCandidates codec scope kind draft existing ≠ [] then
    [.contradiction] else []) ++
  (if looksLikeInstructionInjection draft.content.value then [.injectionPattern] else []) ++
  (if draft.origin ∈ [.modelProposal, .compaction, .verifiedTool] ∧ draft.evidence = [] then
    [.ungroundedEvidence] else [])

def memoryValidatorVersion : UInt16 := 1

/-- `MemoryValidatorV1::analyze`. -/
def analyze : Except MemoryError MemoryValidationResult :=
  let issues := ((foundIssues codec policy scope kind draft existing).insertionSort
    fun a b => issueOrder a ≤ issueOrder b).destutter (· ≠ ·)
  match MemoryValidationResult.newWithCandidates memoryValidatorVersion
      (normalizedContentHash codec draft.content.value) (validationStatus draft.origin issues) issues
      (duplicateCandidates codec scope kind draft existing)
      (contradictionCandidates codec scope kind draft existing) with
  | some result => .ok result
  | none => .error .invalidDomainValue

end Analyze

section Admission

variable {codec : FactCodec} {policy : MemoryValidationPolicy} {scope : MemoryScope}
  {kind : MemoryKind} {draft : MemoryRevisionDraft} {existing : List ExistingMemory}
  {validation : MemoryValidationResult}

/-- What is in order in a draft that the validator does not reject. -/
structure DraftAdmitted (codec : FactCodec) (draft : MemoryRevisionDraft)
    (validation : MemoryValidationResult) : Prop where
  content : normalizedContentHash codec draft.content.value = draft.contentHash
  validated : validation.contentHash = draft.contentHash
  shareable : draft.sensitivity ≠ .secret

theorem newWithCandidates_eq_some {version : UInt16} {hash : Sha256Digest}
    {status : MemoryValidationStatus} {issues : List MemoryValidationIssue}
    {duplicates contradictions : List MemoryId}
    (h : MemoryValidationResult.newWithCandidates version hash status issues duplicates
      contradictions = some validation) :
    validation.contentHash = hash ∧ validation.status = status := by
  simp only [MemoryValidationResult.newWithCandidates] at h
  split at h
  next => cases h
  next =>
    split at h
    next => cases h
    next =>
      split at h
      next => cases h
      next =>
        split at h
        next => cases h
        next =>
          cases Option.some.inj h
          exact ⟨rfl, rfl⟩

theorem analyze_eq_ok (h : analyze codec policy scope kind draft existing = .ok validation) :
    validation.contentHash = normalizedContentHash codec draft.content.value ∧
      (validation.status ≠ .rejected →
        ∀ issue ∈ foundIssues codec policy scope kind draft existing, issue.rejects = false) := by
  simp only [analyze] at h
  split at h
  next result made =>
    cases Except.ok.inj h
    obtain ⟨hash, status⟩ := newWithCandidates_eq_some made
    refine ⟨hash, fun passed issue found => ?_⟩
    rw [status] at passed
    unfold validationStatus at passed
    split at passed
    next => exact absurd rfl passed
    next clean =>
      simp only [List.any_eq_true, not_exists, not_and, Bool.not_eq_true] at clean
      exact clean issue (SortedDistinct.mem_destutter_ne.mpr ((List.mem_insertionSort _).mpr found))
  next => cases h

theorem analyze_admits (h : analyze codec policy scope kind draft existing = .ok validation)
    (passed : validation.status ≠ .rejected) : DraftAdmitted codec draft validation := by
  obtain ⟨hash, clean⟩ := analyze_eq_ok h
  have content : normalizedContentHash codec draft.content.value = draft.contentHash := by
    by_contra different
    have found : MemoryValidationIssue.malformedContent ∈
        foundIssues codec policy scope kind draft existing := by
      simp [foundIssues, Ne.symm different]
    cases clean passed _ found
  refine ⟨content, hash.trans content, ?_⟩
  intro secret
  have found : MemoryValidationIssue.secretDetected ∈
      foundIssues codec policy scope kind draft existing := by
    simp [foundIssues, secret]
  cases clean passed _ found

end Admission

end AutoHarness
