import AutoHarness.ContextSource
import AutoHarness.Identifier
import AutoHarness.MemoryValidator
import Mathlib.Data.Prod.Lex
import Mathlib.Algebra.GroupWithZero.Nat
import Mathlib.Algebra.Ring.Int.Defs

namespace AutoHarness

section Values

inductive RankReason where
  | sourceAuthority
  | exactMatch
  | lexicalOverlap
  | scopeSpecificity
  | freshness
  | confidence
deriving DecidableEq, Repr

/-- One signed contribution to a rank decision. -/
structure RankFactor where
  key : String
  contribution : Int
  reason : RankReason
deriving DecidableEq, Repr

/-- One immutable retrieval candidate. -/
structure MemoryCandidate where
  memoryId : MemoryId
  revisionId : MemoryRevisionId
  status : MemoryRevisionStatus
  scope : MemoryScope
  kind : MemoryKind
  trust : TrustClass
  confidence : ConfidenceBasisPoints
  sensitivity : Sensitivity
  validity : MemoryValidity
  content : MemoryContent
  contentHash : Sha256Digest
  createdAt : TimestampMillis
  exactMatch : Bool
  lexicalBasisPoints : UInt16
  conflicted : Bool

/-- Exact eligible identities for one retrieval boundary. -/
structure RetrievalScope where
  userId : UserId
  workspaceId : WorkspaceId
  sessionId : SessionId
  agentId : Option AgentId
  asOf : TimestampMillis
  sensitivityCeiling : Sensitivity
deriving DecidableEq

structure RankedMemory where
  candidate : MemoryCandidate
  score : Int
  factors : List RankFactor

end Values

section Eligibility

def scopeMatches (retrieval : RetrievalScope) : MemoryScope → Bool
  | .user id => id = retrieval.userId
  | .workspace id => id = retrieval.workspaceId
  | .session id => id = retrieval.sessionId
  | .agent id => retrieval.agentId = some id

def validityContains (validity : MemoryValidity) (asOf : TimestampMillis) : Bool :=
  match validity with
  | .indefinite => true
  | .from_ validFrom => asOf.value ≥ validFrom.value
  | .until_ validUntil => asOf.value < validUntil.value
  | .window validFrom validUntil _ => asOf.value ≥ validFrom.value && asOf.value < validUntil.value

def eligible (scope : RetrievalScope) (candidate : MemoryCandidate) : Bool :=
  candidate.status = .active && candidate.trust ≠ .untrustedProposal && !candidate.conflicted &&
    candidate.createdAt.value ≤ scope.asOf.value &&
    sensitivityScore candidate.sensitivity ≤ sensitivityScore scope.sensitivityCeiling &&
    scopeMatches scope candidate.scope && validityContains candidate.validity scope.asOf

end Eligibility

section Ranking

def authorityScore : TrustClass → Int
  | .userApproved => 4000
  | .verifiedObservation => 3000
  | .imported => 2000
  | .untrustedProposal => 0

def scopeScore : MemoryScope → Int
  | .session _ => 800
  | .workspace _ => 600
  | .user _ => 400
  | .agent _ => 200

def dayMs : Int := 86400000

/-- The age saturates at the bounds of 64 bits, which no bucket reaches. -/
def freshnessScore (asOf createdAt : TimestampMillis) : Int :=
  let age := asOf.value.toInt - createdAt.value.toInt
  if age ≤ dayMs then 300 else if age ≤ dayMs * 7 then 200 else if age ≤ dayMs * 30 then 100 else 0

def rankOne (scope : RetrievalScope) (candidate : MemoryCandidate) : RankedMemory :=
  let factors : List RankFactor :=
    [⟨"authority", authorityScore candidate.trust, .sourceAuthority⟩,
      ⟨"exact_match", if candidate.exactMatch then 2000 else 0, .exactMatch⟩,
      ⟨"lexical_overlap", (min candidate.lexicalBasisPoints.toNat 10000 / 5 : Nat), .lexicalOverlap⟩,
      ⟨"scope_specificity", scopeScore candidate.scope, .scopeSpecificity⟩,
      ⟨"freshness", freshnessScore scope.asOf candidate.createdAt, .freshness⟩,
      ⟨"confidence", (candidate.confidence.get.toNat / 20 : Nat), .confidence⟩]
  ⟨candidate, (factors.map RankFactor.contribution).sum, factors⟩

/-- Higher scores first, then revision and memory identities. -/
def rankedBefore (left right : RankedMemory) : Bool :=
  left.score > right.score ||
    (left.score = right.score && (left.candidate.revisionId < right.candidate.revisionId ||
      (left.candidate.revisionId = right.candidate.revisionId &&
        left.candidate.memoryId ≤ right.candidate.memoryId)))

/-- Filters and ranks candidates. -/
def rank (scope : RetrievalScope) (candidates : List MemoryCandidate) : List RankedMemory :=
  ((candidates.filter (eligible scope)).map (rankOne scope)).mergeSort rankedBefore

theorem rankedBefore_iff {left right : RankedMemory} :
    rankedBefore left right = true ↔
      right.score < left.score ∨ (left.score = right.score ∧
        (left.candidate.revisionId < right.candidate.revisionId ∨
          (left.candidate.revisionId = right.candidate.revisionId ∧
            left.candidate.memoryId ≤ right.candidate.memoryId))) := by
  simp [rankedBefore]

theorem rankedBefore_trans (x y z : RankedMemory) (hxy : rankedBefore x y = true)
    (hyz : rankedBefore y z = true) : rankedBefore x z = true := by
  rw [rankedBefore_iff] at hxy hyz ⊢
  rcases hxy with hxy | ⟨hs, hxy⟩
  · rcases hyz with hyz | ⟨hs', -⟩
    · exact .inl (hyz.trans hxy)
    · exact .inl (hs' ▸ hxy)
  · rcases hyz with hyz | ⟨hs', hyz⟩
    · exact .inl (hs ▸ hyz)
    · refine .inr ⟨hs.trans hs', ?_⟩
      rcases hxy with hxy | ⟨hr, hxy⟩
      · rcases hyz with hyz | ⟨hr', -⟩
        · exact .inl (hxy.trans hyz)
        · exact .inl (hr' ▸ hxy)
      · rcases hyz with hyz | ⟨hr', hyz⟩
        · exact .inl (hr ▸ hyz)
        · exact .inr ⟨hr.trans hr', hxy.trans hyz⟩

theorem rankedBefore_total (x y : RankedMemory) : (rankedBefore x y || rankedBefore y x) = true := by
  rw [Bool.or_eq_true, rankedBefore_iff, rankedBefore_iff]
  rcases lt_trichotomy x.score y.score with h | h | h
  · exact .inr (.inl h)
  · rcases lt_trichotomy x.candidate.revisionId y.candidate.revisionId with hr | hr | hr
    · exact .inl (.inr ⟨h, .inl hr⟩)
    · rcases le_total x.candidate.memoryId y.candidate.memoryId with hm | hm
      · exact .inl (.inr ⟨h, .inr ⟨hr, hm⟩⟩)
      · exact .inr (.inr ⟨h.symm, .inr ⟨hr.symm, hm⟩⟩)
    · exact .inr (.inr ⟨h.symm, .inl hr⟩)
  · exact .inl (.inl h)

/-- The ranking is in rank order and holds the eligible candidates, each as often as it came. -/
theorem rank_sorted (scope : RetrievalScope) (candidates : List MemoryCandidate) :
    (rank scope candidates).Pairwise fun x y => rankedBefore x y = true :=
  List.pairwise_mergeSort rankedBefore_trans rankedBefore_total _

theorem rank_perm (scope : RetrievalScope) (candidates : List MemoryCandidate) :
    (rank scope candidates).Perm ((candidates.filter (eligible scope)).map (rankOne scope)) :=
  List.mergeSort_perm _ _

theorem mem_rank {scope : RetrievalScope} {candidates : List MemoryCandidate} {ranked : RankedMemory} :
    ranked ∈ rank scope candidates ↔
      ∃ candidate ∈ candidates, eligible scope candidate = true ∧ rankOne scope candidate = ranked := by
  rw [(rank_perm scope candidates).mem_iff]
  simp [and_assoc]

end Ranking

end AutoHarness
