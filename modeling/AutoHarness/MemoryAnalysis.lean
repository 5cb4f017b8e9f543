import AutoHarness.FreshIdentifier
import AutoHarness.MemoryRun
import AutoHarness.Value

namespace AutoHarness

open SortedDistinct

section Candidates

variable (codec : FactCodec) (policy : MemoryValidationPolicy) (scope : MemoryScope)
  (kind : MemoryKind) (draft : MemoryRevisionDraft) (existing : List ExistingMemory)

/-- The issues in the order in which they are reported. -/
def reportedIssues : List MemoryValidationIssue :=
  ((foundIssues codec policy scope kind draft existing).insertionSort
    fun a b => issueOrder a ≤ issueOrder b).destutter (· ≠ ·)

/-- The distinct duplicates and the distinct contradictions of a draft. -/
def conflictCount : Nat :=
  (duplicateCandidates codec scope kind draft existing).toFinset.card +
    (contradictionCandidates codec scope kind draft existing).toFinset.card

theorem sortDedup_eq (ids : List MemoryId) : sortDedup ids = sortDistinct ids := rfl

theorem sortDedup_congr {ids ids' : List MemoryId} (same : ∀ id, id ∈ ids ↔ id ∈ ids') :
    sortDedup ids = sortDedup ids' :=
  sortDistinct_congr same

theorem sortDedup_idem (ids : List MemoryId) : sortDedup (sortDedup ids) = sortDedup ids :=
  sortDistinct_idem ids

theorem mem_reportedIssues {issue : MemoryValidationIssue} :
    issue ∈ reportedIssues codec policy scope kind draft existing ↔
      issue ∈ foundIssues codec policy scope kind draft existing := by
  rw [reportedIssues, mem_destutter_ne, List.mem_insertionSort]

/-- Nine checks find at most nine issues. -/
theorem length_reportedIssues :
    (reportedIssues codec policy scope kind draft existing).length ≤ 9 := by
  have hreport := (List.destutter_sublist (· ≠ ·)
    ((foundIssues codec policy scope kind draft existing).insertionSort
      fun a b => issueOrder a ≤ issueOrder b)).length_le
  rw [List.length_insertionSort] at hreport
  have hfound : (foundIssues codec policy scope kind draft existing).length ≤ 9 := by
    have hcheck (P : Prop) [Decidable P] (issue : MemoryValidationIssue) :
        (if P then [issue] else []).length ≤ 1 := by
      split
      · exact Nat.le_refl _
      · exact Nat.zero_le _
    unfold foundIssues
    simp only [List.length_append]
    exact Nat.add_le_add (Nat.add_le_add (Nat.add_le_add (Nat.add_le_add (Nat.add_le_add
      (Nat.add_le_add (Nat.add_le_add (Nat.add_le_add (hcheck _ _) (hcheck _ _)) (hcheck _ _))
        (hcheck _ _)) (hcheck _ _)) (hcheck _ _)) (hcheck _ _)) (hcheck _ _)) (hcheck _ _)
  exact Nat.le_trans hreport hfound

theorem duplicate_reported (h : duplicateCandidates codec scope kind draft existing ≠ []) :
    .duplicate ∈ reportedIssues codec policy scope kind draft existing := by
  rw [mem_reportedIssues]
  simp [foundIssues, h]

theorem contradiction_reported (h : contradictionCandidates codec scope kind draft existing ≠ []) :
    .contradiction ∈ reportedIssues codec policy scope kind draft existing := by
  rw [mem_reportedIssues]
  simp [foundIssues, h]

/-- A result whose candidates have their issues is refused for their number alone. -/
theorem newWithCandidates_eq {version : UInt16} {hash : Sha256Digest}
    {status : MemoryValidationStatus} {issues : List MemoryValidationIssue}
    {duplicates contradictions : List MemoryId} (versioned : version ≠ 0)
    (few : issues.length ≤ maxMemoryValidationIssues)
    (duplicate : duplicates ≠ [] → .duplicate ∈ issues)
    (contradiction : contradictions ≠ [] → .contradiction ∈ issues) :
    MemoryValidationResult.newWithCandidates version hash status issues duplicates contradictions =
      if duplicates.toFinset.card + contradictions.toFinset.card > maxMemoryValidationCandidates then
        none
      else some ⟨version, hash, status, issues, sortDedup duplicates, sortDedup contradictions⟩ := by
  have hmatching : ¬ ((!duplicates.isEmpty && !issues.contains .duplicate) ||
      (!contradictions.isEmpty && !issues.contains .contradiction)) = true := by
    simp only [Bool.or_eq_true, Bool.and_eq_true, Bool.not_eq_true', ← Bool.not_eq_true,
      List.isEmpty_iff, List.contains_iff_mem, not_or, not_and, not_not]
    exact ⟨duplicate, contradiction⟩
  simp only [MemoryValidationResult.newWithCandidates]
  rw [if_neg versioned, if_neg (Nat.not_lt.mpr few), if_neg hmatching, sortDedup_eq, sortDedup_eq,
    length_sortDistinct, length_sortDistinct]

/-- The validator fails for too many candidates and for nothing else. -/
theorem analyze_eq : analyze codec policy scope kind draft existing =
    if conflictCount codec scope kind draft existing > maxMemoryValidationCandidates then
      .error .invalidDomainValue
    else
      .ok ⟨memoryValidatorVersion, normalizedContentHash codec draft.content.value,
        validationStatus draft.origin (reportedIssues codec policy scope kind draft existing),
        reportedIssues codec policy scope kind draft existing,
        duplicateCandidates codec scope kind draft existing,
        contradictionCandidates codec scope kind draft existing⟩ := by
  have hfew : (reportedIssues codec policy scope kind draft existing).length ≤
      maxMemoryValidationIssues :=
    Nat.le_trans (length_reportedIssues codec policy scope kind draft existing) (by decide)
  have hresult : MemoryValidationResult.newWithCandidates memoryValidatorVersion
      (normalizedContentHash codec draft.content.value)
      (validationStatus draft.origin (reportedIssues codec policy scope kind draft existing))
      (reportedIssues codec policy scope kind draft existing)
      (duplicateCandidates codec scope kind draft existing)
      (contradictionCandidates codec scope kind draft existing) = _ :=
    newWithCandidates_eq (by decide) hfew
      (duplicate_reported codec policy scope kind draft existing)
      (contradiction_reported codec policy scope kind draft existing)
  have hkept : sortDedup (duplicateCandidates codec scope kind draft existing) =
      duplicateCandidates codec scope kind draft existing := sortDedup_idem _
  have hkept' : sortDedup (contradictionCandidates codec scope kind draft existing) =
      contradictionCandidates codec scope kind draft existing := sortDedup_idem _
  rw [hkept, hkept'] at hresult
  unfold conflictCount analyze
  simp only
  unfold reportedIssues at hresult ⊢
  rw [hresult]
  by_cases many : (duplicateCandidates codec scope kind draft existing).toFinset.card +
      (contradictionCandidates codec scope kind draft existing).toFinset.card >
        maxMemoryValidationCandidates
  · rw [if_pos many, if_pos many]
  · rw [if_neg many, if_neg many]

end Candidates

section Order

variable {codec : FactCodec} {policy : MemoryValidationPolicy} {scope : MemoryScope}
  {kind : MemoryKind} {draft : MemoryRevisionDraft} {existing existing' : List ExistingMemory}

theorem duplicateCandidates_perm (same : existing.Perm existing') :
    duplicateCandidates codec scope kind draft existing =
      duplicateCandidates codec scope kind draft existing' := by
  apply sortDedup_congr
  intro id
  exact ((same.filter _).map _).mem_iff

theorem contradictionCandidates_perm (same : existing.Perm existing') :
    contradictionCandidates codec scope kind draft existing =
      contradictionCandidates codec scope kind draft existing' := by
  apply sortDedup_congr
  intro id
  exact (((same.filter _).map _).append_right _).mem_iff

theorem duplicateCandidates_all (all : ∀ candidate ∈ existing,
    candidate.sameSubject scope kind draft = true ∧
      candidate.contentHash = normalizedContentHash codec draft.content.value) :
    duplicateCandidates codec scope kind draft existing = sortDedup (existing.map (·.memoryId)) := by
  have hall : existing.filter (fun candidate => candidate.sameSubject scope kind draft &&
      candidate.contentHash = normalizedContentHash codec draft.content.value) = existing := by
    apply List.filter_eq_self.mpr
    intro candidate mem
    obtain ⟨subject, hash⟩ := all candidate mem
    rw [subject, hash]
    simp
  rw [duplicateCandidates, hall]

theorem le_conflictCount {ids : List MemoryId} (distinct : ids.Nodup)
    (found : duplicateCandidates codec scope kind draft existing = sortDedup ids) :
    ids.length ≤ conflictCount codec scope kind draft existing := by
  have hids : (sortDedup ids).toFinset.card = ids.length := by
    rw [← length_sortDistinct, ← sortDedup_eq, sortDedup_idem, sortDedup_eq, length_sortDistinct,
      List.toFinset_card_of_nodup distinct]
  rw [conflictCount, found, hids]
  exact Nat.le_add_right _ _

theorem analyze_crowded
    (many : maxMemoryValidationCandidates < conflictCount codec scope kind draft existing) :
    analyze codec policy scope kind draft existing = .error .invalidDomainValue := by
  rw [analyze_eq, if_pos many]

theorem analyze_perm (same : existing.Perm existing') :
    analyze codec policy scope kind draft existing =
      analyze codec policy scope kind draft existing' := by
  have hfound : foundIssues codec policy scope kind draft existing =
      foundIssues codec policy scope kind draft existing' := by
    unfold foundIssues
    rw [duplicateCandidates_perm same, contradictionCandidates_perm same]
  unfold analyze
  rw [hfound, duplicateCandidates_perm same, contradictionCandidates_perm same]

theorem validationStatus_accepted_iff {origin : MemoryOrigin}
    {issues : List MemoryValidationIssue} :
    validationStatus origin issues = .accepted ↔ origin = .explicitUser ∧ issues = [] := by
  unfold validationStatus
  split
  next rejected =>
    refine ⟨nofun, fun ⟨_, clean⟩ => ?_⟩
    rw [clean] at rejected
    cases rejected
  next =>
    split
    next open_ =>
      refine ⟨nofun, fun ⟨asked, clean⟩ => ?_⟩
      obtain other | found := open_
      · exact absurd asked other
      · exact absurd clean found
    next settled =>
      rw [not_or, not_not, not_not] at settled
      exact ⟨fun _ => settled, fun _ => rfl⟩

end Order

/-- The validator's verdict: it is there unless the candidates are too many, the order of the
existing memories does not matter, and only a clean user request is accepted. -/
theorem memory_analysis (codec : FactCodec) (policy : MemoryValidationPolicy) (scope : MemoryScope)
    (kind : MemoryKind) (draft : MemoryRevisionDraft) :
    (∀ existing, (∃ result, analyze codec policy scope kind draft existing = .ok result) ↔
      conflictCount codec scope kind draft existing ≤ maxMemoryValidationCandidates) ∧
    (∀ existing existing', existing.Perm existing' →
      analyze codec policy scope kind draft existing =
        analyze codec policy scope kind draft existing') ∧
    ∀ existing result, analyze codec policy scope kind draft existing = .ok result →
      (result.status = .accepted ↔ draft.origin = .explicitUser ∧ result.issues = []) := by
  refine ⟨fun existing => ?_, fun _ _ same => analyze_perm same, fun existing result h => ?_⟩
  · rw [analyze_eq]
    split
    next many => exact ⟨nofun, fun few => absurd few (Nat.not_le.mpr many)⟩
    next few => exact ⟨fun _ => Nat.not_lt.mp few, fun _ => ⟨_, rfl⟩⟩
  · rw [analyze_eq] at h
    split at h
    next => cases h
    next =>
      cases Except.ok.inj h
      exact validationStatus_accepted_iff

section Crowd

/-- More duplicates than a result can name. -/
def crowd : List ExistingMemory :=
  (List.range (maxMemoryValidationCandidates + 1)).map fun n =>
    ⟨Identifier.ofNat n, .user (sampleId _ 1), .preference, none,
      normalizedContentHash sampleMemoryCodec.toFactCodec "Prefers tabs"⟩

theorem crowd_ids_nodup : (crowd.map (·.memoryId)).Nodup := by
  rw [crowd, List.map_map]
  apply List.Nodup.map_on _ List.nodup_range
  intro m hm n hn same
  have hbound : maxMemoryValidationCandidates + 1 ≤ 2 ^ 64 := by decide
  have hrange (k : Nat) (mem : k ∈ List.range (maxMemoryValidationCandidates + 1)) :
      k ∈ (Finset.range (2 ^ 64) : Set Nat) := by
    rw [Finset.mem_coe, Finset.mem_range]
    exact Nat.lt_of_lt_of_le (List.mem_range.mp mem) hbound
  exact identifier_ofNat_injOn (hrange m hm) (hrange n hn) same

def crowdedDraft : MemoryRevisionDraft :=
  sampleDraft ⟨1, SessionSequence.first.positive, SessionSequence.first.bounded⟩

theorem crowd_duplicates : duplicateCandidates sampleMemoryCodec.toFactCodec
    (.user (sampleId _ 1)) .preference crowdedDraft crowd = sortDedup (crowd.map (·.memoryId)) := by
  apply duplicateCandidates_all
  intro candidate mem
  obtain ⟨n, -, rfl⟩ := List.mem_map.mp mem
  exact ⟨rfl, rfl⟩

theorem crowd_length : (crowd.map (·.memoryId)).length = maxMemoryValidationCandidates + 1 := by
  rw [List.length_map, crowd, List.length_map, List.length_range]

/-- The validator fails when there are more duplicates than a result can name. -/
theorem crowded_memory_not_analyzed : ¬ ∀ codec policy scope kind draft existing,
    ∃ result, analyze codec policy scope kind draft existing = .ok result := by
  intro claimed
  obtain ⟨result, h⟩ := claimed sampleMemoryCodec.toFactCodec ⟨[], .public_⟩
    (.user (sampleId _ 1)) .preference crowdedDraft crowd
  have many := le_conflictCount crowd_ids_nodup crowd_duplicates
  rw [crowd_length] at many
  rw [analyze_crowded (Nat.lt_of_succ_le many)] at h
  cases h

end Crowd

end AutoHarness
