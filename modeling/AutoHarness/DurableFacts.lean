import AutoHarness.ContextBudget
import AutoHarness.SortedLists
import AutoHarness.MemoryRun

namespace AutoHarness

open KeyedSort SortedNeighbours

/-- The failures of fact hashing. -/
inductive DurableFactsError where
  | duplicateMemoryRevision (revisionId : MemoryRevisionId)
  | duplicateCompactionFact
  | invalidCompactionFact
  | numericOverflow
deriving DecidableEq

/-- The JSON texts of the memory values that fact hashing encodes. -/
structure MemoryFactCodec extends FactCodec where
  scopeJson : MemoryScope → List UInt8
  kindJson : MemoryKind → List UInt8
  trustJson : TrustClass → List UInt8
  sensitivityJson : Sensitivity → List UInt8
  validityJson : MemoryValidity → List UInt8

structure EffectiveDurableFactsFingerprint where
  hash : Sha256Digest
  memoryFactCount : UInt32
  pendingSessionFactCount : UInt32
deriving DecidableEq

def compactionFactsVersion : UInt64 := 1

def pendingKindCode : PendingSessionFactKind → UInt64
  | .input => 1
  | .permission => 2
  | .tool => 3

section Hashing

variable (codec : MemoryFactCodec)

def factCount (count : Nat) : Except DurableFactsError UInt32 :=
  if count < UInt32.size then .ok (UInt32.ofNat count) else .error .numericOverflow

def memoryKey (memory : MemoryCandidate) : MemoryId ×ₗ MemoryRevisionId :=
  toLex (memory.memoryId, memory.revisionId)

def effectiveMemories (scope : RetrievalScope) (candidates : List MemoryCandidate) :
    List MemoryCandidate :=
  (candidates.filter (eligible scope)).mergeSort fun left right => memoryKey left ≤ memoryKey right

/-- The first neighbours with one revision. -/
def neighbourRevision (memories : List MemoryCandidate) : Option MemoryRevisionId :=
  ((memories.zip memories.tail).find? fun pair => pair.1.revisionId = pair.2.revisionId).map
    fun pair => pair.1.revisionId

def pendingKey (fact : PendingSessionFact) : Nat ×ₗ String ×ₗ String :=
  toLex ((pendingKindCode fact.kind).toNat, toLex (fact.identityHash.value, fact.stateHash.value))

def sortedPending (facts : List PendingSessionFact) : List PendingSessionFact :=
  facts.mergeSort fun left right => pendingKey left ≤ pendingKey right

def encodeMemory (encoder : CanonicalEncoder) (memory : MemoryCandidate) :
    Except DurableFactsError CanonicalEncoder :=
  if memory.status ≠ .active ∨
      normalizedContentHash codec.toFactCodec memory.content.value ≠ memory.contentHash then
    .error .invalidCompactionFact
  else
    .ok ((((((((((encoder.field "memory_id" (utf8Bytes memory.memoryId.value)).field "revision_id"
      (utf8Bytes memory.revisionId.value)).field "scope" (codec.scopeJson memory.scope)).field "kind"
      (codec.kindJson memory.kind)).field "trust" (codec.trustJson memory.trust)).integer
      "confidence" memory.confidence.get.toUInt64).field "sensitivity"
      (codec.sensitivityJson memory.sensitivity)).field "validity"
      (codec.validityJson memory.validity)).field "content_hash"
      (utf8Bytes memory.contentHash.value)).field "created_at"
      (toBeBytes memory.createdAt.value.toUInt64))

def encodePending (encoder : CanonicalEncoder) (fact : PendingSessionFact) : CanonicalEncoder :=
  ((encoder.integer "pending_kind" (pendingKindCode fact.kind)).field "pending_identity_hash"
    (utf8Bytes fact.identityHash.value)).field "pending_state_hash" (utf8Bytes fact.stateHash.value)

/-- Hashes and counts every effective fact under the stable compaction contract. -/
def effectiveDurableFacts (scope : RetrievalScope) (candidates : List MemoryCandidate)
    (pendingSessionFacts : List PendingSessionFact) :
    Except DurableFactsError EffectiveDurableFactsFingerprint := do
  let memories := effectiveMemories scope candidates
  match neighbourRevision memories with
  | some revisionId => .error (.duplicateMemoryRevision revisionId)
  | none =>
    let pending := sortedPending pendingSessionFacts
    if (pending.zip pending.tail).any fun pair =>
        pair.1.kind = pair.2.kind ∧ pair.1.identityHash = pair.2.identityHash then
      .error .duplicateCompactionFact
    else
      let memoryFactCount ← factCount memories.length
      let pendingSessionFactCount ← factCount pending.length
      let counted := (CanonicalEncoder.new.integer "compaction_facts_version"
        compactionFactsVersion).integer "memory_fact_count" (UInt64.ofNat memories.length)
      let remembered ← memories.foldlM (encodeMemory codec) counted
      let encoder := pending.foldl encodePending
        (remembered.integer "pending_session_fact_count" (UInt64.ofNat pending.length))
      .ok ⟨encoder.finish codec.toFactCodec, memoryFactCount, pendingSessionFactCount⟩

end Hashing

section Duplicates

variable {codec : MemoryFactCodec} {scope : RetrievalScope}
  {candidates candidates' : List MemoryCandidate} {facts : List PendingSessionFact}

theorem encodeMemory_not_duplicate {encoder : CanonicalEncoder} {memory : MemoryCandidate}
    {revisionId : MemoryRevisionId} :
    encodeMemory codec encoder memory ≠ .error (.duplicateMemoryRevision revisionId) := by
  unfold encodeMemory
  split
  next => exact nofun
  next => exact nofun

theorem foldlM_not_duplicate {memories : List MemoryCandidate} {encoder : CanonicalEncoder}
    {revisionId : MemoryRevisionId} :
    memories.foldlM (encodeMemory codec) encoder ≠
      .error (.duplicateMemoryRevision revisionId) := by
  induction memories generalizing encoder with
  | nil => exact nofun
  | cons memory later ih =>
    intro h
    rw [List.foldlM_cons] at h
    obtain failed | ⟨next, -, failed⟩ := FallibleRun.bind_eq_error_iff.mp h
    · exact encodeMemory_not_duplicate failed
    · exact ih failed

theorem factCount_not_duplicate {count : Nat} {revisionId : MemoryRevisionId} :
    factCount count ≠ .error (.duplicateMemoryRevision revisionId) := by
  unfold factCount
  split
  next => exact nofun
  next => exact nofun

/-- The error names the revision of the first neighbours that share one. -/
theorem effectiveDurableFacts_duplicate_iff {revisionId : MemoryRevisionId} :
    effectiveDurableFacts codec scope candidates facts =
        .error (.duplicateMemoryRevision revisionId) ↔
      neighbourRevision (effectiveMemories scope candidates) = some revisionId := by
  unfold effectiveDurableFacts
  simp only
  split
  next found hfound =>
    rw [hfound]
    constructor
    · intro h
      cases h
      rfl
    · intro h
      cases h
      rfl
  next hnone =>
    rw [hnone]
    refine ⟨fun h => ?_, nofun⟩
    split at h
    next => cases h
    next =>
      obtain failed | ⟨_, -, h⟩ := FallibleRun.bind_eq_error_iff.mp h
      · exact absurd failed factCount_not_duplicate
      · obtain failed | ⟨_, -, h⟩ := FallibleRun.bind_eq_error_iff.mp h
        · exact absurd failed factCount_not_duplicate
        · obtain failed | ⟨_, -, h⟩ := FallibleRun.bind_eq_error_iff.mp h
          · exact absurd failed foldlM_not_duplicate
          · cases h

/-- The revision of a key. -/
def keyRevision (key : MemoryId ×ₗ MemoryRevisionId) : MemoryRevisionId := (ofLex key).2

theorem exists_neighbours_map (memories : List MemoryCandidate) :
    (∃ pair ∈ (memories.map memoryKey).zip (memories.map memoryKey).tail,
        keyRevision pair.1 = keyRevision pair.2) ↔
      ∃ pair ∈ memories.zip memories.tail, pair.1.revisionId = pair.2.revisionId := by
  rw [← List.map_tail, List.zip_map]
  constructor
  · rintro ⟨pair, mem, same⟩
    obtain ⟨source, listed, rfl⟩ := List.mem_map.mp mem
    exact ⟨source, listed, same⟩
  · rintro ⟨source, listed, same⟩
    exact ⟨_, List.mem_map_of_mem listed, same⟩

theorem effectiveMemories_sorted (scope : RetrievalScope) (candidates : List MemoryCandidate) :
    ((effectiveMemories scope candidates).map memoryKey).Pairwise (· ≤ ·) :=
  List.pairwise_map.mpr (mergeSort_sorted _)

theorem effectiveMemories_perm (scope : RetrievalScope) (candidates : List MemoryCandidate) :
    (effectiveMemories scope candidates).Perm (candidates.filter (eligible scope)) :=
  List.mergeSort_perm _ _

/-- Two eligible candidates share a revision. -/
def SharesRevision (scope : RetrievalScope) (candidates : List MemoryCandidate) : Prop :=
  ¬ ((candidates.filter (eligible scope)).map (·.revisionId)).Nodup

/-- Two eligible candidates share a revision and no eligible one lies between them. -/
def NeighboursShare (scope : RetrievalScope) (candidates : List MemoryCandidate) : Prop :=
  Close keyRevision ((candidates.filter (eligible scope)).map memoryKey)

theorem neighbourRevision_isSome_iff (memories : List MemoryCandidate) :
    (∃ revisionId, neighbourRevision memories = some revisionId) ↔
      ∃ pair ∈ memories.zip memories.tail, pair.1.revisionId = pair.2.revisionId := by
  rw [← Option.isSome_iff_exists, neighbourRevision, Option.isSome_map, List.find?_isSome]
  simp only [decide_eq_true_eq]

theorem duplicate_found_iff : (∃ revisionId, effectiveDurableFacts codec scope candidates facts =
    .error (.duplicateMemoryRevision revisionId)) ↔ NeighboursShare scope candidates := by
  have hperm := (effectiveMemories_perm scope candidates).map memoryKey
  have hsorted := exists_neighbours_iff (f := keyRevision)
    (effectiveMemories_sorted scope candidates)
  have hclose : Close keyRevision ((effectiveMemories scope candidates).map memoryKey) ↔
      NeighboursShare scope candidates := ⟨fun h => h.perm hperm, fun h => h.perm hperm.symm⟩
  simp only [effectiveDurableFacts_duplicate_iff]
  rw [neighbourRevision_isSome_iff, ← exists_neighbours_map, hsorted, hclose]

theorem NeighboursShare.shares (h : NeighboursShare scope candidates) :
    SharesRevision scope candidates := by
  intro nodup
  have hkeys : ((candidates.filter (eligible scope)).map memoryKey).map keyRevision =
      (candidates.filter (eligible scope)).map (·.revisionId) := by
    rw [List.map_map]
    rfl
  rw [← hkeys] at nodup
  obtain double | ⟨a, ha, b, hb, below, same, -⟩ := h
  · exact double (List.Nodup.of_map _ nodup)
  · exact absurd (List.inj_on_of_nodup_map nodup ha hb same) (ne_of_lt below)

/-- The first neighbours' revision as the keys have it. -/
theorem neighbourRevision_eq (memories : List MemoryCandidate) : neighbourRevision memories =
    (((memories.map memoryKey).zip (memories.map memoryKey).tail).find? fun pair =>
      keyRevision pair.1 = keyRevision pair.2).map fun pair => keyRevision pair.1 := by
  rw [← List.map_tail, List.zip_map, List.find?_map, Option.map_map]
  rfl

theorem effectiveDurableFacts_perm (perm : candidates.Perm candidates') :
    effectiveDurableFacts codec scope candidates' facts =
      effectiveDurableFacts codec scope candidates facts := by
  have hfilter := perm.filter (eligible scope)
  have hkeys : (effectiveMemories scope candidates).map memoryKey =
      (effectiveMemories scope candidates').map memoryKey := map_mergeSort_eq hfilter
  have hrevision : neighbourRevision (effectiveMemories scope candidates') =
      neighbourRevision (effectiveMemories scope candidates) := by
    rw [neighbourRevision_eq, neighbourRevision_eq, hkeys]
  cases found : neighbourRevision (effectiveMemories scope candidates) with
  | some revisionId =>
    rw [effectiveDurableFacts_duplicate_iff.mpr found,
      effectiveDurableFacts_duplicate_iff.mpr (hrevision.trans found)]
  | none =>
    have hnodup : ((effectiveMemories scope candidates).map memoryKey).Nodup := by
      by_contra double
      have hclose : Close keyRevision ((effectiveMemories scope candidates).map memoryKey) :=
        .inl double
      rw [← exists_neighbours_iff (effectiveMemories_sorted scope candidates),
        exists_neighbours_map, ← neighbourRevision_isSome_iff] at hclose
      obtain ⟨revisionId, h⟩ := hclose
      rw [found] at h
      cases h
    have hsame : effectiveMemories scope candidates = effectiveMemories scope candidates' :=
      mergeSort_eq hfilter hnodup
    unfold effectiveDurableFacts
    rw [hsame]

end Duplicates

/-- Duplicates are found, whatever the order of the candidates, exactly when two that share a
revision are neighbours. -/
theorem duplicates_found_iff (codec : MemoryFactCodec) (scope : RetrievalScope)
    (candidates : List MemoryCandidate) (facts : List PendingSessionFact) :
    (((∃ revisionId, effectiveDurableFacts codec scope candidates facts =
        .error (.duplicateMemoryRevision revisionId)) ↔ SharesRevision scope candidates) ∧
      ∀ candidates', candidates.Perm candidates' →
        effectiveDurableFacts codec scope candidates' facts =
          effectiveDurableFacts codec scope candidates facts) ↔
      (SharesRevision scope candidates → NeighboursShare scope candidates) := by
  rw [duplicate_found_iff]
  constructor
  · exact fun h => h.1.mpr
  · exact fun h => ⟨⟨NeighboursShare.shares, h⟩, fun _ perm => effectiveDurableFacts_perm perm⟩

/-- The first and the last of three memories share a revision. -/
def crossedCandidates : List MemoryCandidate :=
  let memory (memoryId : MemoryId) (revisionId : MemoryRevisionId) : MemoryCandidate :=
    { sampleCandidate with
      memoryId := memoryId
      revisionId := revisionId
      contentHash := normalizedContentHash sampleMemoryCodec.toFactCodec "Prefers tabs" }
  [memory (sampleId _ 1) (sampleId _ 1), memory (sampleId _ 2) (sampleId _ 2),
    memory (sampleId _ 3) (sampleId _ 1)]

theorem crossedCandidates_eligible :
    crossedCandidates.filter (eligible sampleRetrieval) = crossedCandidates := rfl

theorem crossedCandidates_apart : ¬ NeighboursShare sampleRetrieval crossedCandidates := by
  unfold NeighboursShare Close
  rw [crossedCandidates_eligible]
  decide

/-- A shared revision is missed when another memory lies between. -/
theorem crossed_duplicate_missed : ¬ ∀ codec scope candidates facts,
    (∃ revisionId, effectiveDurableFacts codec scope candidates facts =
      .error (.duplicateMemoryRevision revisionId)) ↔ SharesRevision scope candidates := by
  intro claimed
  have shares : SharesRevision sampleRetrieval crossedCandidates := by
    unfold SharesRevision
    rw [crossedCandidates_eligible]
    decide +kernel
  have found := (claimed ⟨sampleMemoryCodec.toFactCodec, fun _ => [], fun _ => [], fun _ => [],
    fun _ => [], fun _ => []⟩ sampleRetrieval crossedCandidates []).mpr shares
  exact crossedCandidates_apart (duplicate_found_iff.mp found)

end AutoHarness
