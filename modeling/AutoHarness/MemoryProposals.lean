import AutoHarness.CompactionFacts
import AutoHarness.ConversationHistory
import AutoHarness.MemoryValidator
import AutoHarness.ToolPlan
import Mathlib

namespace AutoHarness

open IndexedList

inductive ProposalBuildError where
  | invalid
  | internal
deriving DecidableEq, Repr

/-- `deterministic_tag` on lists of characters. -/
def deterministicTag (codec : FactCodec) (tag : List Char) (toolCallId : ToolCallId) : List Char :=
  tag ++ '-' :: (codec.sha256 (utf8Bytes "autoharness-deterministic-id-v1" ++ 0 ::
    utf8Bytes (String.ofList tag) ++ 0 :: utf8Bytes toolCallId.value)).value.toList

theorem isSafe_of_hex {c : Char} (hex : (c.isDigit || ('a' ≤ c && c ≤ 'f')) = true) :
    isSafeIdentifierCharacter c = true := by
  have alphanumeric : c.isAlphanum = true := by
    simp only [Bool.or_eq_true, Bool.and_eq_true, decide_eq_true_eq] at hex
    simp only [Char.isAlphanum, Char.isAlpha, Bool.or_eq_true]
    rcases hex with digit | ⟨low, high⟩
    · exact .inr digit
    · refine .inl (.inr ?_)
      have bound : c ≤ 'z' := le_trans high (by decide)
      simp only [Char.isLower, Bool.and_eq_true, decide_eq_true_eq]
      exact ⟨low, bound⟩
  rw [isSafeIdentifierCharacter, alphanumeric, Bool.true_or]

/-- A digest behind a short safe tag is an identifier. -/
theorem deterministicTag_valid (codec : FactCodec) {tag : List Char} (toolCallId : ToolCallId)
    (safe : tag.all isSafeIdentifierCharacter = true) (short : tag.length ≤ 63) :
    validateIdentifier (String.ofList (deterministicTag codec tag toolCallId)) = .ok () := by
  unfold deterministicTag
  generalize codec.sha256 _ = digest
  have hex := digest.hex
  simp only [Bool.and_eq_true, beq_iff_eq, List.all_eq_true] at hex
  apply validateIdentifier_of_isSafe
  · simp
  · have size : digest.value.toList.length = 64 := hex.1
    rw [List.length_append, List.length_cons, size, maxIdentifierBytes]
    omega
  · intro c listed
    rcases List.mem_append.mp listed with tagged | rest
    · exact List.all_eq_true.mp safe c tagged
    · rcases List.mem_cons.mp rest with rfl | digits
      · decide
      · exact isSafe_of_hex (hex.2 c digits)

section Ids

variable (codec : FactCodec) (toolCallId : ToolCallId)

def memoryProposalMemoryId : MemoryId :=
  ⟨String.ofList (deterministicTag codec "memory-proposal".toList toolCallId),
    deterministicTag_valid codec toolCallId (by decide) (by decide)⟩

def memoryProposalRevisionId : MemoryRevisionId :=
  ⟨String.ofList (deterministicTag codec "memory-proposal-revision".toList toolCallId),
    deterministicTag_valid codec toolCallId (by decide) (by decide)⟩

def memoryProposalEvidenceId : MemoryEvidenceId :=
  ⟨String.ofList (deterministicTag codec "memory-proposal-evidence".toList toolCallId),
    deterministicTag_valid codec toolCallId (by decide) (by decide)⟩

def memoryProposalCommandId : CommandId :=
  ⟨String.ofList (deterministicTag codec "memory-proposal-command".toList toolCallId),
    deterministicTag_valid codec toolCallId (by decide) (by decide)⟩

def memoryProposalCorrelationId : CorrelationId :=
  ⟨String.ofList (deterministicTag codec "memory-proposal-correlation".toList toolCallId),
    deterministicTag_valid codec toolCallId (by decide) (by decide)⟩

/-- `memory_proposal_command` with the one payload it is called with. -/
def memoryProposalCommand (scope : MemoryScope) (memoryKind : MemoryKind)
    (revision : MemoryRevisionDraft) : MemoryCommandEnvelope where
  commandId := memoryProposalCommandId codec toolCallId
  memoryId := memoryProposalMemoryId codec toolCallId
  expectedSequence := none
  correlationId := memoryProposalCorrelationId codec toolCallId
  payload := .createMemory scope memoryKind revision
  expectation := rfl

end Ids

def isLowerHex (c : Char) : Bool := c.isDigit || ('a' ≤ c && c ≤ 'f')

/-- The digest that an artifact identity carries behind its `sha256:` tag. -/
def artifactDigest (artifact : ArtifactRef) : Option String :=
  let name := artifact.artifactId.value.toList
  if "sha256:".toList.isPrefixOf name then
    let digest := name.drop 7
    if digest.length = 64 && digest.all isLowerHex then some (String.ofList digest) else none
  else none

/-- Exact inline output is hashed as it is, an artifact is read again under its root. -/
def exactToolOutputHash (codec : FactCodec) (artifactRoot : Option (String → Option (List UInt8)))
    (output : ToolOutput) : Except ProposalBuildError Sha256Digest :=
  match output.artifact with
  | none =>
    if !output.truncated && output.originalBytes.toNat == output.content.utf8ByteSize then
      .ok (codec.sha256 (utf8Bytes output.content))
    else .error .invalid
  | some artifact =>
    if !output.truncated then .error .invalid
    else
      match artifactDigest artifact, artifactRoot with
      | some digest, some read =>
        match read digest with
        | none => .error .invalid
        | some bytes =>
          if bytes.length ≠ artifact.byteLen.toNat || artifact.byteLen ≠ output.originalBytes ||
              !(utf8Bytes output.content).isPrefixOf bytes then .error .invalid
          else if (codec.sha256 bytes).value ≠ digest then .error .invalid
          else .ok (codec.sha256 bytes)
      | _, _ => .error .invalid

def currentInputEvidence (codec : FactCodec) (session : SessionAggregate) (sessionId : SessionId)
    (call : ToolCallProjection) : Except ProposalBuildError MemoryEvidence :=
  match session.attempt call.attemptId with
  | none => .error .internal
  | some attempt =>
    match session.admittedInputs.find? fun input =>
        input.inputId == attempt.inputId && input.promotedBy == some call.attemptId with
    | none => .error .internal
    | some input =>
      .ok ⟨memoryProposalEvidenceId codec call.call.toolCallId,
        .userInput sessionId input.inputId, .derivedFrom, none, none, rfl⟩

def verifiedToolEvidence (codec : FactCodec) (session : SessionAggregate) (sessionId : SessionId)
    (artifactRoot : Option (String → Option (List UInt8))) (proposalCall : ToolCallProjection)
    (providerCallId : ProviderCallId) : Except ProposalBuildError MemoryEvidence :=
  match session.toolCalls.filter fun candidate =>
      candidate.call.providerCallId == providerCallId &&
        candidate.call.toolCallId != proposalCall.call.toolCallId with
  | [source] =>
    if source.status ≠ .completed || source.call.capability.kind = .invalidToolCall ||
        source.call.capability.kind = .memoryProposal then .error .invalid
    else
      match source.output with
      | none => .error .invalid
      | some output => do
        let outputHash ← exactToolOutputHash codec artifactRoot output
        .ok ⟨memoryProposalEvidenceId codec proposalCall.call.toolCallId,
          .toolObservation sessionId source.call.toolCallId outputHash, .derivedFrom, none, none,
          rfl⟩
  | _ => .error .invalid

def MemoryProposal.memoryScope (proposal : MemoryProposal) (sessionId : SessionId)
    (workspaceId : WorkspaceId) : MemoryScope :=
  match proposal.scope with
  | .session => .session sessionId
  | .workspace => .workspace workspaceId

def proposalConfidence : ConfidenceBasisPoints := ⟨9000, by decide⟩

theorem firstRevision_positive : 1 ≤ 1 := Nat.le_refl 1

theorem firstRevision_bounded : 1 ≤ maxSequence := by decide

def buildMemoryProposalCommand (codec : FactCodec) (session : SessionAggregate)
    (sessionId : SessionId) (workspaceId : WorkspaceId)
    (artifactRoot : Option (String → Option (List UInt8))) (call : ToolCallProjection)
    (proposal : MemoryProposal) : Except ProposalBuildError MemoryCommandEnvelope := do
  let (origin, trust, evidence) ←
    match proposal.sourceProviderCallId with
    | some providerCallId => do
      let evidence ← verifiedToolEvidence codec session sessionId artifactRoot call providerCallId
      .ok (MemoryOrigin.verifiedTool, TrustClass.verifiedObservation, evidence)
    | none => do
      let evidence ← currentInputEvidence codec session sessionId call
      .ok (.modelProposal, .untrustedProposal, evidence)
  let revision : MemoryRevisionDraft :=
    { revisionId := memoryProposalRevisionId codec call.call.toolCallId
      revision := ⟨1, firstRevision_positive, firstRevision_bounded⟩
      subjectKey := none
      content := proposal.content
      contentHash := normalizedContentHash codec proposal.content.value
      origin := origin
      trustClass := trust
      confidence := proposalConfidence
      sensitivity := proposal.sensitivity
      validity := .indefinite
      evidence := [evidence]
      relations := []
      evidenceBound := show 1 ≤ 64 by decide
      relationBound := Nat.zero_le _ }
  .ok (memoryProposalCommand codec call.call.toolCallId (proposal.memoryScope sessionId workspaceId)
    proposal.memoryKind revision)

variable {s : SessionAggregate} {a : AttemptProjection} {call : ToolCallProjection}

/-- An input is promoted by the attempt that is no retry, so a retry finds no evidence. -/
theorem currentInputEvidence_of_represented (represented : Represented s) (codec : FactCodec)
    (sessionId : SessionId) (found : s.attempt call.attemptId = some a) :
    currentInputEvidence codec s sessionId call =
      if a.retryOf = none then
        .ok ⟨memoryProposalEvidenceId codec call.call.toolCallId, .userInput sessionId a.inputId,
          .derivedFrom, none, none, rfl⟩
      else .error .internal := by
  obtain ⟨member, key⟩ := represented.indexes.attempts.find?_eq_some_iff.mp found
  simp only [currentInputEvidence, found]
  split
  next absent =>
    -- the first attempt of an input is the one that promoted it
    rw [if_neg]
    intro ordinary
    obtain ⟨input, admitted, same, -⟩ := represented.promoted member
    have promoted : input.promotedBy = some call.attemptId :=
      (represented.promotions input admitted call.attemptId).mpr
        ⟨a.origin, List.mem_map_of_mem member, key, same.symm, ordinary⟩
    have missed := List.find?_eq_none.mp absent input admitted
    simp [same, promoted] at missed
  next input present =>
    have admitted := List.mem_of_find?_eq_some present
    have matched := List.find?_some present
    simp only [Bool.and_eq_true, beq_iff_eq] at matched
    obtain ⟨o, listed, promoter, -, ordinary⟩ :=
      (represented.promotions input admitted call.attemptId).mp matched.2
    obtain ⟨b, member', rfl⟩ := List.mem_map.mp listed
    cases represented.attempt_unique member' member (promoter.trans key.symm)
    have first : a.retryOf = none := ordinary
    rw [if_pos first, matched.1]

theorem buildMemoryProposalCommand_of_evidence {codec : FactCodec} {sessionId : SessionId}
    (workspaceId : WorkspaceId) (artifactRoot : Option (String → Option (List UInt8)))
    {proposal : MemoryProposal} (modelAuthored : proposal.sourceProviderCallId = none)
    {evidence : MemoryEvidence} (cited : currentInputEvidence codec s sessionId call = .ok evidence) :
    ∃ command revision, buildMemoryProposalCommand codec s sessionId workspaceId artifactRoot call
        proposal = .ok command ∧
      command.payload =
        .createMemory (proposal.memoryScope sessionId workspaceId) proposal.memoryKind revision ∧
      revision.content = proposal.content ∧ revision.evidence = [evidence] := by
  unfold buildMemoryProposalCommand
  rw [modelAuthored, cited]
  exact ⟨_, _, rfl, rfl, rfl, rfl⟩

theorem buildMemoryProposalCommand_of_error {codec : FactCodec} {sessionId : SessionId}
    {workspaceId : WorkspaceId} {artifactRoot : Option (String → Option (List UInt8))}
    {proposal : MemoryProposal} (modelAuthored : proposal.sourceProviderCallId = none)
    {error : ProposalBuildError} (failed : currentInputEvidence codec s sessionId call = .error error) :
    buildMemoryProposalCommand codec s sessionId workspaceId artifactRoot call proposal =
      .error error := by
  unfold buildMemoryProposalCommand
  rw [modelAuthored, failed]
  rfl

/-- A proposal that names no source is built in a first attempt and never in a retry. -/
theorem memory_proposal_built_iff {sessionId : SessionId} {log : List EventEnvelope}
    (h : SessionAggregate.rehydrate sessionId log = .ok s)
    (found : s.attempt call.attemptId = some a) {proposal : MemoryProposal}
    (modelAuthored : proposal.sourceProviderCallId = none) (codec : FactCodec)
    (workspaceId : WorkspaceId) (artifactRoot : Option (String → Option (List UInt8))) :
    ((∃ command revision evidence,
        buildMemoryProposalCommand codec s sessionId workspaceId artifactRoot call proposal =
          .ok command ∧
        command.payload =
          .createMemory (proposal.memoryScope sessionId workspaceId) proposal.memoryKind revision ∧
        revision.content = proposal.content ∧ revision.evidence = [evidence] ∧
        evidence.source = .userInput sessionId a.inputId) ↔ a.retryOf = none) ∧
      (a.retryOf ≠ none →
        buildMemoryProposalCommand codec s sessionId workspaceId artifactRoot call proposal =
          .error .internal) := by
  have cited := currentInputEvidence_of_represented (rehydrate_represented h) codec sessionId found
  have refused : a.retryOf ≠ none →
      buildMemoryProposalCommand codec s sessionId workspaceId artifactRoot call proposal =
        .error .internal := by
    intro retried
    rw [if_neg retried] at cited
    exact buildMemoryProposalCommand_of_error modelAuthored cited
  refine ⟨⟨?_, ?_⟩, refused⟩
  · rintro ⟨command, -, -, built, -⟩
    by_contra retried
    cases built.symm.trans (refused retried)
  · intro ordinary
    rw [if_pos ordinary] at cited
    obtain ⟨command, revision, built, payload, content, evidence⟩ :=
      buildMemoryProposalCommand_of_evidence workspaceId artifactRoot modelAuthored cited
    exact ⟨command, revision, _, built, payload, content, evidence, rfl⟩

section Sample

def proposalCall : ToolCallSpec where
  toolCallId := sampleCall.toolCallId
  providerCallId := sampleCall.providerCallId
  toolName := ⟨"memory_propose", rfl⟩
  schemaVersion := toolSchemaV1
  arguments := ⟨[("content", .string "The notes live in docs"), ("kind", .string "fact"),
    ("scope", .string "session"), ("sensitivity", .string "internal")], by decide⟩
  capability := ⟨.memoryProposal, ⟨"memory-proposal:session"⟩⟩

def notedProposal : MemoryProposal :=
  ⟨⟨"The notes live in docs", by decide, by decide⟩, .fact, .session, .internal, none⟩

def proposedPayloads : List EventPayload :=
  [.sessionCreated, .modelSelected sampleModel,
    .inputAdmitted sampleInput samplePrompt .nextTurn,
    .attemptPrepared sampleAttempt sampleInput sampleModel none, .attemptStarted sampleAttempt,
    .toolCallProposed sampleAttempt proposalCall]

/-- The first attempt fails before it is dispatched, and its retry proposes the memory. -/
def retriedProposalPayloads : List EventPayload :=
  [.sessionCreated, .modelSelected sampleModel,
    .inputAdmitted sampleInput samplePrompt .nextTurn,
    .attemptPrepared sampleAttempt sampleInput sampleModel none,
    .attemptFailed sampleAttempt interruptedBeforeDispatch,
    .attemptPrepared retriedAttempt sampleInput sampleModel (some sampleAttempt),
    .attemptStarted retriedAttempt, .toolCallProposed retriedAttempt proposalCall]

theorem proposalCall_planned (parseUrl : String → Option Url) :
    ∃ planned, replan parseUrl proposalCall = .ok planned ∧
      planned.operation = .submitMemoryProposal notedProposal := by
  refine ⟨plan parseUrl ⟨proposalCall.toolCallId, proposalCall.providerCallId,
    proposalCall.toolName, proposalCall.arguments⟩, ?_, rfl⟩
  have same : (plan parseUrl ⟨proposalCall.toolCallId, proposalCall.providerCallId,
      proposalCall.toolName, proposalCall.arguments⟩).spec = proposalCall := rfl
  have version : ¬ proposalCall.schemaVersion ≠ toolSchemaV1 := not_not.mpr rfl
  unfold replan
  rw [if_neg version]
  exact if_neg (not_not.mpr same)

theorem memory_proposal_built_iff_proposed :
    ∃ s call command, SessionAggregate.rehydrate sampleSession
        (sampleEvents .first proposedPayloads) = .ok s ∧ call ∈ s.toolCalls ∧
      buildMemoryProposalCommand sampleCodec s sampleSession ⟨"workspace-1", rfl⟩ none call
        notedProposal = .ok command := by
  obtain ⟨s, a, call, replayed, found, ordinary, listed⟩ : ∃ s a call,
      SessionAggregate.rehydrate sampleSession (sampleEvents .first proposedPayloads) = .ok s ∧
      s.attempt call.attemptId = some a ∧ a.retryOf = none ∧ call ∈ s.toolCalls :=
    ⟨_, _, _, rfl, rfl, rfl, List.mem_singleton_self _⟩
  have unsourced : notedProposal.sourceProviderCallId = none := rfl
  obtain ⟨command, revision, evidence, built, -⟩ :=
    (memory_proposal_built_iff replayed found unsourced sampleCodec ⟨"workspace-1", rfl⟩
      none).1.mpr ordinary
  exact ⟨s, call, command, replayed, listed, built⟩

/-- The retry runs, its call plans to the same proposal, and no command can be built for it. -/
theorem retried_proposal_refused :
    ∃ s a call, SessionAggregate.rehydrate sampleSession
        (sampleEvents .first retriedProposalPayloads) = .ok s ∧ call ∈ s.toolCalls ∧
      s.attempt call.attemptId = some a ∧ a.status = .inFlight ∧
      (∀ parseUrl, ∃ planned, replan parseUrl call.call = .ok planned ∧
        planned.operation = .submitMemoryProposal notedProposal) ∧
      buildMemoryProposalCommand sampleCodec s sampleSession ⟨"workspace-1", rfl⟩ none call
        notedProposal = .error .internal := by
  obtain ⟨s, a, call, replayed, listed, found, running, spec, failed⟩ : ∃ s a call,
      SessionAggregate.rehydrate sampleSession (sampleEvents .first retriedProposalPayloads) =
        .ok s ∧ call ∈ s.toolCalls ∧ s.attempt call.attemptId = some a ∧ a.status = .inFlight ∧
      call.call = proposalCall ∧
      currentInputEvidence sampleCodec s sampleSession call = .error .internal :=
    ⟨_, _, _, rfl, List.mem_singleton_self _, rfl, rfl, rfl, rfl⟩
  refine ⟨s, a, call, replayed, listed, found, running, ?_,
    buildMemoryProposalCommand_of_error rfl failed⟩
  rw [spec]
  exact proposalCall_planned

end Sample

end AutoHarness
