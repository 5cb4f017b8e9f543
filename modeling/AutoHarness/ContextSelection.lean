import AutoHarness.ContextLimits

namespace AutoHarness

open FallibleRun GreedySelection

section Rendered

variable (codec : FactCodec)

theorem memoryLine_bounded (candidate : MemoryCandidate) :
    (memoryRecord candidate).utf8ByteSize + 1 ≤ maxEstimatedTokens := by
  have hsize := memoryRecord_size candidate
  rw [maxEstimatedTokens]
  omega

theorem sourceLine_bounded (key : ContextSourceKey) (sourceRevision : Sha256Digest)
    (target : ContextSection) (value : ContextSourceValue) :
    (sourceRecord key sourceRevision target value).utf8ByteSize + 1 ≤ maxEstimatedTokens := by
  have hsize := sourceRecord_size key sourceRevision target value
  rw [maxEstimatedTokens]
  omega

/-- A ranked memory with the record that rendering gives it. -/
def memoryRendered (ranked : RankedMemory) : RankedRenderedMemory :=
  let candidate := ranked.candidate
  ⟨ranked, ⟨candidate.memoryId, candidate.revisionId, memoryRecord candidate,
    memoryRenderedHash codec candidate.memoryId candidate.revisionId (memoryRecord candidate),
    ⟨_, memoryLine_bounded candidate⟩⟩⟩

/-- The record of a source that has a value. -/
def sourceRendered (observed : ObservedContextSource) : Option (ContextSourcePolicy × RenderedSource) :=
  match observed.content, observed.snapshot.sourceRevision with
  | some (target, value), some sourceRevision =>
    let key := observed.snapshot.sourceKey
    some (observed.policy, ⟨key, sourceRevision, target, sourceRecord key sourceRevision target value,
      sourceRenderedHash codec key sourceRevision target (sourceRecord key sourceRevision target value),
      ⟨_, sourceLine_bounded key sourceRevision target value⟩⟩)
  | _, _ => none

theorem renderRanked_eq (ranked : RankedMemory) :
    renderRanked codec ranked = .ok (memoryRendered codec ranked) := by
  have made : renderMemory codec ranked = .ok (memoryRendered codec ranked).rendered :=
    renderMemory_ok_iff.mpr ⟨rfl, rfl, rfl, rfl, rfl⟩
  rw [renderRanked, made]
  rfl

theorem renderSource_eq (observed : ObservedContextSource) :
    (renderSource codec observed).map (fun rendered => rendered.map fun rendered =>
      (observed.policy, rendered)) = .ok (sourceRendered codec observed) := by
  have revised := observed.revised
  unfold sourceRendered
  cases hc : observed.content with
  | none =>
    rw [renderSource_ok_iff.mpr (.inl ⟨hc, rfl⟩)]
    rfl
  | some filled =>
    cases hr : observed.snapshot.sourceRevision with
    | none => simp [hc, hr] at revised
    | some sourceRevision =>
      have bounded := sourceLine_bounded observed.snapshot.sourceKey sourceRevision filled.1 filled.2
      rw [renderSource_ok_iff.mpr (.inr ⟨filled.1, filled.2, sourceRevision,
        ⟨_, _, _, _, _, ⟨_, bounded⟩⟩, hc, hr, rfl, rfl, rfl, rfl, rfl, rfl, rfl⟩)]
      rfl

theorem renderedSources_eq (observed : List ObservedContextSource) :
    renderedSources codec observed = .ok (observed.filterMap (sourceRendered codec)) := by
  rw [renderedSources, mapM_eq_ok fun source _ => renderSource_eq codec source, ok_bind,
    List.filterMap_map]
  rfl

/-- The rendered sources in the order in which they are tried. -/
def orderedSources (request : ContextBuildRequest) : List (ContextSourcePolicy × RenderedSource) :=
  ((sortSources request.observedSources).filterMap (sourceRendered codec)).mergeSort renderedBefore

/-- The rendered memories in the order in which they are tried. -/
def orderedMemories (request : ContextBuildRequest) : List RankedRenderedMemory :=
  (rank request.retrievalScope request.memoryCandidates).map (memoryRendered codec)

/-- What is left of the construction once the observations and revisions are checked. -/
def buildSelected (request : ContextBuildRequest) (snapshots : List ContextSourceSnapshot) :
    Except ContextError BuiltContext := do
  let selectedSources ← selectSources request (orderedSources codec request)
  let selectedMemories ← selectMemories request selectedSources (orderedMemories codec request)
  let prelude := renderContextPrelude selectedSources (memoryRenderings selectedMemories)
  let renderedTokenCount ← prelude.elim (EstimatedTokens.new 0) estimate
  let admissions ← buildAdmissions codec request.contextTurnId request.committedAt
    (sortSources request.observedSources) selectedSources selectedMemories
  .ok ⟨{ request with observedSources := sortSources request.observedSources }, prelude,
    renderedContextHash codec (prelude.getD ""), renderedTokenCount, snapshots, admissions,
    selectedSources, memoryRenderings selectedMemories⟩

theorem build_eq (request : ContextBuildRequest) :
    build codec request = (do
      validateRequest request
      let snapshots ← checkSources (sortSources request.observedSources) request.auditSnapshots
      validateUniqueRevisions (rank request.retrievalScope request.memoryCandidates)
      buildSelected codec request snapshots) := by
  simp only [build, renderedSources_eq, ok_bind, mapM_eq_ok fun ranked _ => renderRanked_eq codec ranked]
  rfl

end Rendered

section Order

variable {codec : FactCodec} {request : ContextBuildRequest}

theorem renderedBefore_trans (x y z : ContextSourcePolicy × RenderedSource)
    (hxy : renderedBefore x y = true) (hyz : renderedBefore y z = true) : renderedBefore x z = true := by
  simp only [renderedBefore, decide_eq_true_eq] at *
  exact hxy.trans hyz

theorem renderedBefore_total (x y : ContextSourcePolicy × RenderedSource) :
    (renderedBefore x y || renderedBefore y x) = true := by
  simp only [renderedBefore, Bool.or_eq_true, decide_eq_true_eq]
  exact le_total _ _

theorem orderedSources_sorted (codec : FactCodec) (request : ContextBuildRequest) :
    (orderedSources codec request).Pairwise fun x y => renderedBefore x y = true :=
  List.pairwise_mergeSort renderedBefore_trans renderedBefore_total _

theorem orderedSources_perm :
    (orderedSources codec request).Perm (request.observedSources.filterMap (sourceRendered codec)) :=
  (List.mergeSort_perm _ _).trans ((List.mergeSort_perm _ _).filterMap _)

theorem mem_orderedSources {source : ContextSourcePolicy × RenderedSource} :
    source ∈ orderedSources codec request ↔
      ∃ observed ∈ request.observedSources, sourceRendered codec observed = some source := by
  rw [orderedSources_perm.mem_iff, List.mem_filterMap]

/-- A source behind an optional one is optional. -/
theorem optional_of_renderedBefore {x y : ContextSourcePolicy × RenderedSource}
    (order : renderedBefore x y = true) (optional : x.1 ≠ .required) : y.1 ≠ .required := by
  intro required
  simp only [renderedBefore, sourcePriority, optional, required, if_false, if_true, decide_eq_true_eq,
    Prod.Lex.toLex_le_toLex] at order
  omega

theorem required_first {sources : List (ContextSourcePolicy × RenderedSource)}
    (sorted : sources.Pairwise fun x y => renderedBefore x y = true) :
    sources = sources.filter (fun source => source.1 = .required) ++
      sources.filter (fun source => source.1 ≠ .required) := by
  induction sources with
  | nil => rfl
  | cons source sources ih =>
    obtain ⟨first, rest⟩ := List.pairwise_cons.mp sorted
    by_cases required : source.1 = .required
    · rw [List.filter_cons_of_pos (by simp [required]), List.filter_cons_of_neg (by simp [required]),
        List.cons_append, ← ih rest]
    · have later : ∀ other ∈ sources, other.1 ≠ .required := fun other mem =>
        optional_of_renderedBefore (first other mem) required
      have none : sources.filter (fun source => source.1 = .required) = [] := by
        simpa [List.filter_eq_nil_iff] using later
      have all : sources.filter (fun source => source.1 ≠ .required) = sources := by
        simpa [List.filter_eq_self] using later
      rw [List.filter_cons, List.filter_cons, none, all]
      simp [required]

end Order

section Select

variable {codec : FactCodec} {request : ContextBuildRequest}

theorem sourceBytes_append (x y : List RenderedSource) :
    sourceBytes (x ++ y) = sourceBytes x + sourceBytes y := by
  simp [sourceBytes]

theorem preludeBytes_mono (sources more : List RenderedSource) (memories : List RenderedMemory)
    (nonempty : sources ≠ [] ∨ memories ≠ []) :
    preludeBytes sources memories ≤ preludeBytes (sources ++ more) memories := by
  have filled : (sources.isEmpty && memories.isEmpty) = false := by
    rcases nonempty with h | h
    · simp [h]
    · simp [h]
  have filled' : ((sources ++ more).isEmpty && memories.isEmpty) = false := by
    rcases nonempty with h | h
    · simp [h]
    · simp [h]
  rw [preludeBytes, preludeBytes, filled, filled', sourceBytes_append]
  simp only [Bool.false_eq_true, if_false]
  omega

/-- The size does not depend on the order. -/
theorem preludeBytes_perm {x y : List RenderedSource} (perm : x.Perm y) (memories : List RenderedMemory) :
    preludeBytes x memories = preludeBytes y memories := by
  have bytes : sourceBytes x = sourceBytes y := (perm.map _).sum_nat
  rw [preludeBytes, preludeBytes, bytes, perm.isEmpty_eq]

theorem fitsTotal_true_iff {sources : List RenderedSource} {memories : List RankedRenderedMemory} :
    fitsTotal request sources memories = .ok true ↔
      WithinBudget request (preludeBytes sources (memoryRenderings memories)) := by
  rw [fitsTotal_eq]
  simp

theorem refuseSource_ok_iff {source : ContextSourcePolicy × RenderedSource} :
    refuseSource source = .ok () ↔ source.1 ≠ .required := by
  unfold refuseSource
  split
  · rename_i required
    simp [required]
  · rename_i optional
    simp [optional]

theorem selectSources_error {sources : List (ContextSourcePolicy × RenderedSource)} {e : ContextError}
    (h : selectSources request sources = .error e) : e = .budgetExceeded := by
  obtain ⟨front, item, back, before, -, -, failed⟩ := choose_error_iff.mp h
  rcases attempt_error_iff.mp failed with failed | ⟨-, failed⟩
  · rw [fitsTotal_eq] at failed
    cases failed
  · unfold refuseSource at failed
    split at failed
    · exact (Except.error.inj failed).symm
    · cases failed

/-- Optional sources can be left out, so they never fail. -/
theorem choose_optional {sources : List (ContextSourcePolicy × RenderedSource)}
    (optional : ∀ source ∈ sources, source.1 ≠ .required) (chosen : List RenderedSource) :
    ∃ final, choose Prod.snd (fun trial => fitsTotal request trial []) refuseSource chosen sources =
      .ok final := by
  cases made : choose Prod.snd (fun trial => fitsTotal request trial []) refuseSource chosen sources with
  | ok final => exact ⟨final, rfl⟩
  | error e =>
    obtain ⟨front, item, back, before, rfl, -, failed⟩ := choose_error_iff.mp made
    rcases attempt_error_iff.mp failed with failed | ⟨-, failed⟩
    · rw [fitsTotal_eq] at failed
      cases failed
    · rw [refuseSource_ok_iff.mpr (optional item (by simp))] at failed
      cases failed

/-- The records of the required sources that have a value. -/
def requiredSources (codec : FactCodec) (request : ContextBuildRequest) : List RenderedSource :=
  ((request.observedSources.filterMap (sourceRendered codec)).filter fun source =>
    source.1 = .required).map Prod.snd

theorem requiredSources_perm (codec : FactCodec) (request : ContextBuildRequest) :
    (((orderedSources codec request).filter fun source => source.1 = .required).map Prod.snd).Perm
      (requiredSources codec request) :=
  (orderedSources_perm.filter _).map _

/-- Sources can be selected exactly when all required ones fit together. -/
theorem selectSources_ok_iff (reserved : request.reservedTokens.get ≤ request.tokenBudget.get) :
    (∃ selected, selectSources request (orderedSources codec request) = .ok selected) ↔
      WithinBudget request (preludeBytes (requiredSources codec request) []) := by
  have split := required_first (orderedSources_sorted codec request)
  have perm := requiredSources_perm codec request
  rw [← preludeBytes_perm perm []]
  generalize hfront : (orderedSources codec request).filter (fun source => source.1 = .required) = front
    at split perm ⊢
  generalize hback : (orderedSources codec request).filter (fun source => source.1 ≠ .required) = back
    at split
  have required : ∀ source ∈ front, source.1 = .required := by
    intro source mem
    rw [← hfront] at mem
    simpa using (List.mem_filter.mp mem).2
  have optional : ∀ source ∈ back, source.1 ≠ .required := by
    intro source mem
    rw [← hback] at mem
    simpa using (List.mem_filter.mp mem).2
  rw [selectSources, split, choose_append]
  constructor
  · rintro ⟨selected, made⟩
    obtain ⟨before, made, -⟩ := bind_eq_ok_iff.mp made
    have same : before = [] ++ front.map Prod.snd := choose_forced made fun source mem left =>
      refuseSource_ok_iff.mp left (required source mem)
    rw [List.nil_append] at same
    rcases choose_fits made with empty | fits
    · rw [← same, empty]
      exact ⟨Nat.zero_le _, by simpa [preludeBytes] using reserved⟩
    · rw [← same]
      exact fitsTotal_true_iff.mp fits
  · intro fits
    have taken : choose Prod.snd (fun trial => fitsTotal request trial []) refuseSource [] front =
        .ok ([] ++ front.map Prod.snd) := by
      refine choose_all ?_
      rintro first item last same
      refine fitsTotal_true_iff.mpr (fits.mono ?_)
      have more := preludeBytes_mono (first.map Prod.snd ++ [item.2]) (last.map Prod.snd)
        [] (.inl (by simp))
      simpa [same, memoryRenderings] using more
    rw [taken]
    exact choose_optional optional _

end Select

end AutoHarness
