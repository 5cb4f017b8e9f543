import AutoHarness.ContextBudget
import AutoHarness.ContextManifest

namespace AutoHarness

open FallibleRun GreedySelection

section Totals

end Totals

section Places

theorem strictlyOrdered_of_sorted {keys : List ContextSourceKey} (sorted : keys.Pairwise (· ≤ ·))
    (unique : firstDuplicate keys = none) : strictlyOrdered keys = true := by
  induction keys with
  | nil => rfl
  | cons first keys ih =>
    cases keys with
    | nil => rfl
    | cons second rest =>
      obtain ⟨before, sorted⟩ := List.pairwise_cons.mp sorted
      have differ : first ≠ second := by
        intro same
        rw [firstDuplicate, if_pos same] at unique
        cases unique
      rw [firstDuplicate, if_neg differ] at unique
      rw [strictlyOrdered, ih sorted unique, Bool.and_true, decide_eq_true_eq]
      exact lt_of_le_of_ne (before second List.mem_cons_self) differ

end Places

section Draft

variable {codec : FactCodec} {request : ContextBuildRequest} {built : BuiltContext}

theorem checkSources_ok {observed : List ObservedContextSource} {audits snapshots : List ContextSourceSnapshot}
    (h : checkSources observed audits = .ok snapshots) :
    snapshots.length = observed.length + audits.length ∧
      strictlyOrdered (snapshots.map ContextSourceSnapshot.sourceKey) = true := by
  have refused {keys : List ContextSourceKey} {u : Unit} (h : refuseDuplicate keys = .ok u) :
      firstDuplicate keys = none := by
    unfold refuseDuplicate at h
    split at h
    · cases h
    · assumption
  obtain ⟨_, -, h⟩ := bind_eq_ok_iff.mp h
  split at h
  · cases h
  obtain ⟨_, unique, h⟩ := bind_eq_ok_iff.mp h
  cases h
  refine ⟨?_, strictlyOrdered_of_sorted ?_ (refused unique)⟩
  · rw [sortSnapshots, List.length_mergeSort, List.length_append, List.length_map]
  · refine List.pairwise_map.mpr ((List.pairwise_mergeSort ?_ ?_ _).imp ?_)
    · intro x y z hxy hyz
      simp only [decide_eq_true_eq] at *
      exact hxy.trans hyz
    · intro x y
      simp only [Bool.or_eq_true, decide_eq_true_eq]
      exact le_total _ _
    · intro x y hxy
      simpa using hxy

/-- What a draft carries besides its selection. -/
theorem build_draft (h : build codec request = .ok built) :
    built.request = { request with observedSources := sortSources request.observedSources } ∧
      built.snapshots.length = request.observedSources.length + request.auditSnapshots.length ∧
      strictlyOrdered (built.snapshots.map ContextSourceSnapshot.sourceKey) = true ∧
      (∀ admission ∈ built.admissions, admission.contextTurnId = request.contextTurnId) ∧
      request.runTurn ≠ 0 := by
  obtain ⟨valid, snapshots, checked, -, made⟩ := build_ok_iff.mp h
  obtain ⟨selectedSources, -, made⟩ := bind_eq_ok_iff.mp made
  obtain ⟨selectedMemories, -, made⟩ := bind_eq_ok_iff.mp made
  obtain ⟨tokens, -, made⟩ := bind_eq_ok_iff.mp made
  obtain ⟨admissions, admitted, made⟩ := bind_eq_ok_iff.mp made
  cases made
  obtain ⟨length, ordered⟩ := checkSources_ok checked
  have same : (sortSources request.observedSources).length = request.observedSources.length :=
    List.length_mergeSort _
  refine ⟨rfl, ?_, ordered, (buildAdmissions_ok admitted).2.2, (validateRequest_ok_iff.mp valid).1⟩
  rw [length, same]

end Draft

section Seal

variable {codec : ManifestCodec} {request : ContextBuildRequest} {built : BuiltContext}

theorem allocation_ok_iff {tokenBudget : ContextTokenBudget} {reserved durable : EstimatedTokens} :
    (∃ budget, ContextBudgetAllocation.new tokenBudget reserved durable = .ok budget) ↔
      reserved.get ≤ tokenBudget.get ∧ durable.get ≤ tokenBudget.get - reserved.get := by
  constructor
  · rintro ⟨budget, made⟩
    unfold ContextBudgetAllocation.new at made
    split at made
    · cases made
    · rename_i fits
      exact allocation_checked fits
  · rintro ⟨reservedFits, durableFits⟩
    have fits : ¬ (reserved.get > tokenBudget.get ∨ durable.get > tokenBudget.get - reserved.get) := by
      omega
    exact ⟨_, dif_neg fits⟩

theorem allocation_eq {tokenBudget : ContextTokenBudget} {reserved durable : EstimatedTokens}
    {budget : ContextBudgetAllocation}
    (h : ContextBudgetAllocation.new tokenBudget reserved durable = .ok budget) :
    budget.tokenBudget = tokenBudget ∧ budget.reservedTokens = reserved ∧
      budget.durableMemoryLimit = durable := by
  unfold ContextBudgetAllocation.new at h
  split at h
  · cases h
  · cases h
    exact ⟨rfl, rfl, rfl⟩

end Seal

section Sample

def sampleManifestCodec : ManifestCodec :=
  { sampleCodec with
    eligibilityJson := fun _ => []
    snapshotsJson := fun _ => []
    admissionsJson := fun _ => [] }

end Sample

end AutoHarness
