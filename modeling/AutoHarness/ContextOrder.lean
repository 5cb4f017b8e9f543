import AutoHarness.ContextSeal
import AutoHarness.SortedLists

namespace AutoHarness

open FallibleRun

section Unique

variable {κ : Type}

theorem firstDuplicate_none [LinearOrder κ] {keys : List κ} (sorted : keys.Pairwise (· ≤ ·))
    (none : firstDuplicate keys = none) : keys.Nodup := by
  induction keys with
  | nil => exact List.nodup_nil
  | cons first keys ih =>
    obtain ⟨before, rest⟩ := List.pairwise_cons.mp sorted
    cases keys with
    | nil => exact List.nodup_singleton first
    | cons second keys =>
      have differ : first ≠ second := by
        intro same
        rw [firstDuplicate, if_pos same] at none
        cases none
      rw [firstDuplicate, if_neg differ] at none
      refine List.nodup_cons.mpr ⟨fun mem => ?_, ih rest none⟩
      have least : second ≤ first := by
        rcases List.mem_cons.mp mem with same | later
        · exact le_of_eq same.symm
        · exact (List.pairwise_cons.mp rest).1 first later
      exact differ (le_antisymm (before second List.mem_cons_self) least)

theorem firstRepeated_none [DecidableEq κ] {seen keys : List κ} (none : firstRepeated seen keys = none) :
    keys.Nodup ∧ ∀ key ∈ keys, key ∉ seen := by
  induction keys generalizing seen with
  | nil => exact ⟨List.nodup_nil, by simp⟩
  | cons key keys ih =>
    unfold firstRepeated at none
    split at none
    · cases none
    · rename_i fresh
      obtain ⟨unique, others⟩ := ih none
      refine ⟨List.nodup_cons.mpr ⟨fun mem => others key mem List.mem_cons_self, unique⟩, ?_⟩
      intro other mem
      rcases List.mem_cons.mp mem with rfl | mem
      · exact fresh
      · exact fun there => others other mem (List.mem_cons_of_mem key there)

end Unique

section Ranked

/-- The rank order as an order of keys. -/
def rankKey (ranked : RankedMemory) : Int ×ₗ MemoryRevisionId ×ₗ MemoryId :=
  toLex (-ranked.score, toLex (ranked.candidate.revisionId, ranked.candidate.memoryId))

theorem rankedBefore_iff_key {x y : RankedMemory} :
    rankedBefore x y = true ↔ rankKey x ≤ rankKey y := by
  rw [rankedBefore_iff, rankKey, rankKey, Prod.Lex.toLex_le_toLex, Prod.Lex.toLex_le_toLex]
  simp only [Int.neg_lt_neg_iff, Int.neg_inj]

theorem rank_keyed (scope : RetrievalScope) (candidates : List MemoryCandidate) :
    (rank scope candidates).Pairwise fun x y => rankKey x ≤ rankKey y :=
  (rank_sorted scope candidates).imp fun before => rankedBefore_iff_key.mp before

theorem rank_perm_congr {x y : List MemoryCandidate} (perm : x.Perm y) (scope : RetrievalScope) :
    (rank scope x).Perm (rank scope y) :=
  (rank_perm scope x).trans (((perm.filter _).map _).trans (rank_perm scope y).symm)

theorem rank_revisions_eq {x y : List MemoryCandidate} (perm : x.Perm y) (scope : RetrievalScope) :
    (rank scope x).map (fun memory => memory.candidate.revisionId) =
      (rank scope y).map fun memory => memory.candidate.revisionId := by
  have keys := KeyedSort.map_eq_of_sorted (rank_perm_congr perm scope) (rank_keyed scope x)
    (rank_keyed scope y)
  have revisions := congrArg (List.map fun key => (ofLex (ofLex key).2).1) keys
  rw [List.map_map, List.map_map] at revisions
  exact revisions

/-- Candidates with revisions of their own are ranked the same in any order. -/
theorem rank_eq {x y : List MemoryCandidate} (perm : x.Perm y) {scope : RetrievalScope}
    (unique : ((rank scope x).map fun memory => memory.candidate.revisionId).Nodup) :
    rank scope x = rank scope y := by
  refine KeyedSort.eq_of_sorted (rank_perm_congr perm scope) (rank_keyed scope x) (rank_keyed scope y) ?_
  refine List.Nodup.of_map (fun key => (ofLex (ofLex key).2).1) ?_
  rw [List.map_map]
  exact unique

theorem validateUniqueRevisions_congr {x y : List MemoryCandidate} (perm : x.Perm y)
    (scope : RetrievalScope) :
    validateUniqueRevisions (rank scope x) = validateUniqueRevisions (rank scope y) := by
  rw [validateUniqueRevisions, rank_revisions_eq perm scope, ← validateUniqueRevisions]

theorem validateUniqueRevisions_ok {ranked : List RankedMemory}
    (h : validateUniqueRevisions ranked = .ok ()) :
    (ranked.map fun memory => memory.candidate.revisionId).Nodup := by
  unfold validateUniqueRevisions at h
  split at h
  · cases h
  · rename_i none
    exact (firstRepeated_none none).1

end Ranked

section Sources

theorem refuseDuplicate_ok {keys : List ContextSourceKey} (h : refuseDuplicate keys = .ok ()) :
    firstDuplicate keys = none := by
  unfold refuseDuplicate at h
  split at h
  · cases h
  · assumption

theorem sortSources_keys {x y : List ObservedContextSource} (perm : x.Perm y) :
    (sortSources x).map (fun source => source.snapshot.sourceKey) =
      (sortSources y).map fun source => source.snapshot.sourceKey :=
  KeyedSort.map_mergeSort_eq perm

theorem sortSnapshots_keys {x y : List ContextSourceSnapshot} (perm : x.Perm y) :
    (sortSnapshots x).map ContextSourceSnapshot.sourceKey =
      (sortSnapshots y).map ContextSourceSnapshot.sourceKey :=
  KeyedSort.map_mergeSort_eq perm

theorem sortSnapshots_nodup {snapshots : List ContextSourceSnapshot}
    (h : refuseDuplicate ((sortSnapshots snapshots).map ContextSourceSnapshot.sourceKey) = .ok ()) :
    ((sortSnapshots snapshots).map ContextSourceSnapshot.sourceKey).Nodup :=
  firstDuplicate_none (List.pairwise_map.mpr (KeyedSort.mergeSort_sorted snapshots))
    (refuseDuplicate_ok h)

theorem sortSources_nodup {observed : List ObservedContextSource}
    (h : refuseDuplicate ((sortSources observed).map fun source => source.snapshot.sourceKey) = .ok ()) :
    ((sortSources observed).map fun source => source.snapshot.sourceKey).Nodup :=
  firstDuplicate_none (List.pairwise_map.mpr (KeyedSort.mergeSort_sorted observed))
    (refuseDuplicate_ok h)

/-- Observations that pass the first check are sorted the same in any order. -/
theorem sortSources_eq {x y : List ObservedContextSource} (perm : x.Perm y)
    (h : refuseDuplicate ((sortSources x).map fun source => source.snapshot.sourceKey) = .ok ()) :
    sortSources x = sortSources y :=
  KeyedSort.mergeSort_eq perm (sortSources_nodup h)

theorem any_congr_perm {α : Type} {x y : List α} (perm : x.Perm y) (p : α → Bool) : x.any p = y.any p := by
  rw [Bool.eq_iff_iff, List.any_eq_true, List.any_eq_true]
  simp only [perm.mem_iff]

/-- The checks on the sources do not depend on the order of the observations and audits. -/
theorem checkSources_congr {x y : List ObservedContextSource} {audits audits' : List ContextSourceSnapshot}
    (perm : x.Perm y) (audited : audits.Perm audits') :
    checkSources (sortSources x) audits = checkSources (sortSources y) audits' := by
  rw [checkSources, checkSources, ← sortSources_keys perm, ← any_congr_perm audited]
  cases first : refuseDuplicate ((sortSources x).map fun source => source.snapshot.sourceKey) with
  | error e => rfl
  | ok u =>
    have same := sortSources_eq perm first
    rw [ok_bind, ok_bind, ← same]
    split
    · rfl
    · have merged : ((sortSources x).map ObservedContextSource.snapshot ++ audits).Perm
          ((sortSources x).map ObservedContextSource.snapshot ++ audits') := audited.append_left _
      simp only [← sortSnapshots_keys merged]
      cases second : refuseDuplicate ((sortSnapshots ((sortSources x).map
          ObservedContextSource.snapshot ++ audits)).map ContextSourceSnapshot.sourceKey) with
      | error e => rfl
      | ok u =>
        have sorted : sortSnapshots ((sortSources x).map ObservedContextSource.snapshot ++ audits) =
            sortSnapshots ((sortSources x).map ObservedContextSource.snapshot ++ audits') :=
          KeyedSort.mergeSort_eq merged (sortSnapshots_nodup second)
        rw [sorted]

theorem checkSources_sorted {x : List ObservedContextSource} {audits snapshots : List ContextSourceSnapshot}
    (h : checkSources (sortSources x) audits = .ok snapshots) :
    refuseDuplicate ((sortSources x).map fun source => source.snapshot.sourceKey) = .ok () := by
  obtain ⟨_, first, -⟩ := bind_eq_ok_iff.mp h
  exact first

end Sources

section Reordered

variable {codec : FactCodec} {request : ContextBuildRequest}
variable {observed : List ObservedContextSource} {audits : List ContextSourceSnapshot}
variable {candidates : List MemoryCandidate}

/-- A request with its lists given in other orders. -/
def reordered (request : ContextBuildRequest) (observed : List ObservedContextSource)
    (audits : List ContextSourceSnapshot) (candidates : List MemoryCandidate) : ContextBuildRequest :=
  { request with
    observedSources := observed
    auditSnapshots := audits
    memoryCandidates := candidates }

/-- The draft that remembers the request in its other order. -/
def rerequested (audits : List ContextSourceSnapshot) (candidates : List MemoryCandidate)
    (built : BuiltContext) : BuiltContext :=
  { built with request := { built.request with auditSnapshots := audits, memoryCandidates := candidates } }

theorem map_bind {ε α β γ : Type} (x : Except ε α) (f : α → Except ε β) (g : β → γ) :
    (x >>= f).map g = x >>= fun a => (f a).map g := by
  cases x with
  | error e => rfl
  | ok a => rfl

theorem buildSelected_reordered (sources : sortSources observed = sortSources request.observedSources)
    (memories : rank request.retrievalScope candidates =
      rank request.retrievalScope request.memoryCandidates) (snapshots : List ContextSourceSnapshot) :
    buildSelected codec (reordered request observed audits candidates) snapshots =
      (buildSelected codec request snapshots).map (rerequested audits candidates) := by
  have ordered : orderedSources codec (reordered request observed audits candidates) =
      orderedSources codec request := by
    rw [orderedSources, orderedSources, reordered, sources]
  have ranked : orderedMemories codec (reordered request observed audits candidates) =
      orderedMemories codec request := by
    rw [orderedMemories, orderedMemories, reordered, memories]
  have kept : (reordered request observed audits candidates).observedSources = observed := rfl
  rw [buildSelected, buildSelected, ordered, ranked, kept, sources, map_bind]
  refine bind_congr fun selectedSources => ?_
  rw [map_bind]
  refine bind_congr fun selectedMemories => ?_
  rw [map_bind]
  refine bind_congr fun tokens => ?_
  rw [map_bind]
  rfl

/-- Another order of the lists is remembered in the draft, and nothing else of it changes. -/
theorem build_reordered (hobserved : observed.Perm request.observedSources)
    (haudits : audits.Perm request.auditSnapshots)
    (hcandidates : candidates.Perm request.memoryCandidates) :
    build codec (reordered request observed audits candidates) =
      (build codec request).map (rerequested audits candidates) := by
  have valid : validateRequest (reordered request observed audits candidates) =
      validateRequest request := rfl
  have sources : checkSources (sortSources (reordered request observed audits candidates).observedSources)
      (reordered request observed audits candidates).auditSnapshots =
        checkSources (sortSources request.observedSources) request.auditSnapshots :=
    checkSources_congr hobserved haudits
  have memories : validateUniqueRevisions (rank
      (reordered request observed audits candidates).retrievalScope
      (reordered request observed audits candidates).memoryCandidates) =
        validateUniqueRevisions (rank request.retrievalScope request.memoryCandidates) :=
    validateUniqueRevisions_congr hcandidates request.retrievalScope
  rw [build_eq, build_eq, valid, sources, memories, map_bind]
  refine bind_congr fun _ => ?_
  rw [map_bind]
  cases checked : checkSources (sortSources request.observedSources) request.auditSnapshots with
  | error e => rfl
  | ok snapshots =>
    rw [ok_bind, ok_bind, map_bind]
    cases unique : validateUniqueRevisions (rank request.retrievalScope request.memoryCandidates) with
    | error e => rfl
    | ok u =>
      rw [ok_bind, ok_bind]
      have sorted : sortSources observed = sortSources request.observedSources :=
        (sortSources_eq hobserved.symm (checkSources_sorted checked)).symm
      have ranked : rank request.retrievalScope candidates =
          rank request.retrievalScope request.memoryCandidates :=
        (rank_eq hcandidates.symm (validateUniqueRevisions_ok unique)).symm
      exact buildSelected_reordered sorted ranked snapshots

/-- What a draft holds besides its request. -/
def BuiltContext.outcome (built : BuiltContext) :=
  (built.prelude, built.renderedHash, built.renderedTokenCount, built.snapshots, built.admissions,
    built.selectedSources, built.selectedMemories)

theorem map_map_ok {ε α β γ : Type} (x : Except ε α) (f : α → β) (g : β → γ) :
    (x.map f).map g = x.map fun a => g (f a) := by
  cases x with
  | error e => rfl
  | ok a => rfl

theorem bind_map_ok {ε α β γ : Type} (x : Except ε α) (f : α → β) (g : β → Except ε γ) :
    (x.map f) >>= g = x >>= fun a => g (f a) := by
  cases x with
  | error e => rfl
  | ok a => rfl

/-- The order in which sources, audits and candidates come decides neither the draft nor the sealed
manifest nor the error. -/
theorem build_seal_order_independent (codec : ManifestCodec) (request : ContextBuildRequest)
    (observed : List ObservedContextSource) (audits : List ContextSourceSnapshot)
    (candidates : List MemoryCandidate) (hobserved : observed.Perm request.observedSources)
    (haudits : audits.Perm request.auditSnapshots)
    (hcandidates : candidates.Perm request.memoryCandidates) :
    (build codec.toFactCodec (reordered request observed audits candidates)).map BuiltContext.outcome =
        (build codec.toFactCodec request).map BuiltContext.outcome ∧
      ∀ requestHash,
        (build codec.toFactCodec (reordered request observed audits candidates) >>=
            fun built => built.seal codec requestHash) =
          build codec.toFactCodec request >>= fun built => built.seal codec requestHash := by
  rw [build_reordered hobserved haudits hcandidates]
  refine ⟨?_, fun requestHash => ?_⟩
  · rw [map_map_ok]
    rfl
  · rw [bind_map_ok]
    rfl

def sampleSecondCandidate : MemoryCandidate :=
  { sampleCandidate with revisionId := sampleId _ 3 }

theorem sample_order_independent :
    (build sampleCodec (reordered (sampleContextRequest 1 sampleBudget sampleReserved sampleDurable)
        [sampleObserved] [] [sampleSecondCandidate, sampleCandidate])).map BuiltContext.outcome =
      (build sampleCodec (reordered (sampleContextRequest 1 sampleBudget sampleReserved sampleDurable)
        [sampleObserved] [] [sampleCandidate, sampleSecondCandidate])).map BuiltContext.outcome :=
  (build_seal_order_independent sampleManifestCodec
    (reordered (sampleContextRequest 1 sampleBudget sampleReserved sampleDurable) [sampleObserved] []
      [sampleCandidate, sampleSecondCandidate])
    [sampleObserved] [] [sampleSecondCandidate, sampleCandidate] (List.Perm.refl _) (List.Perm.refl _)
    (List.Perm.swap _ _ _)).1

end Reordered

end AutoHarness
