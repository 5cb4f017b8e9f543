import AutoHarness.CompactionFacts
import AutoHarness.ContextSelection

namespace AutoHarness

open FallibleRun GreedySelection

section Accounts

variable {codec : FactCodec} {request : ContextBuildRequest}

/-- The bytes of what is rendered of a selection. -/
def renderedBytes (sources : List RenderedSource) (memories : List RenderedMemory) : Nat :=
  (renderContextPrelude sources memories).elim 0 String.utf8ByteSize

def admittedTokens (admissions : List ContextAdmission) : Nat :=
  (admissions.map fun admission => admission.tokenCount.get).sum

/-- What the admissions charge to durable memory. -/
def durableTokens (admissions : List ContextAdmission) : Nat :=
  admittedTokens (admissions.filter fun admission => admission.memoryRevisionId.isSome)

theorem durableTokens_eq {sources : List RenderedSource} {memories : List RenderedMemory}
    {admissions : List ContextAdmission}
    (h : admissions.map admissionSubject = sources.map sourceSubject ++ memories.map memorySubject) :
    durableTokens admissions = (memories.map fun memory => memory.estimatedTokens.get).sum := by
  have tokens : durableTokens admissions =
      (((admissions.map admissionSubject).filter fun subject => subject.2.1.isSome).map
        fun subject => subject.2.2.2.get).sum := by
    rw [durableTokens, admittedTokens, List.filter_map, List.map_map]
    rfl
  have unfiltered : (sources.map sourceSubject).filter (fun subject => subject.2.1.isSome) = [] := by
    simp [List.filter_eq_nil_iff, sourceSubject]
  have filtered : (memories.map memorySubject).filter (fun subject => subject.2.1.isSome) =
      memories.map memorySubject := by
    simp [List.filter_eq_self, memorySubject]
  rw [tokens, h, List.filter_append, unfiltered, filtered, List.nil_append, List.map_map]
  rfl

/-- The estimate of a record is its line. -/
theorem tokens_of_orderedMemories {taken : List RankedRenderedMemory}
    (sub : taken.Sublist (orderedMemories codec request)) :
    ((memoryRenderings taken).map fun memory => memory.estimatedTokens.get).sum =
      memoryBytes (memoryRenderings taken) := by
  rw [memoryBytes]
  congr 1
  refine List.map_congr_left fun memory mem => ?_
  obtain ⟨ranked, there, rfl⟩ := List.mem_map.mp mem
  obtain ⟨source, -, rfl⟩ := List.mem_map.mp (sub.subset there)
  rfl

end Accounts

section Built

variable {codec : FactCodec} {request : ContextBuildRequest} {built : BuiltContext}

/-- What a successful construction selected, and in which order it tried. -/
structure SelectionOf (codec : FactCodec) (request : ContextBuildRequest) (built : BuiltContext)
    (sources : List (ContextSourcePolicy × RenderedSource)) (memories : List RankedRenderedMemory) :
    Prop where
  sourcesSelected : built.selectedSources = sources.map Prod.snd
  memoriesSelected : built.selectedMemories = memoryRenderings memories
  sourcesTried : sources.Sublist (orderedSources codec request)
  memoriesTried : memories.Sublist (orderedMemories codec request)
  sourcesOrdered : sources.Pairwise fun x y => renderedBefore x y = true
  memoriesOrdered : memories.Pairwise fun x y => rankedBefore x.ranked y.ranked = true
  requiredTaken : ∀ observed ∈ request.observedSources, observed.policy = .required →
    observed.content.isSome = true →
      ∃ source ∈ built.selectedSources, renderSource codec observed = .ok (some source)
  eligibleOnly : ∀ memory ∈ built.selectedMemories, ∃ candidate ∈ request.memoryCandidates,
    eligible request.retrievalScope candidate = true ∧
      renderMemory codec (rankOne request.retrievalScope candidate) = .ok memory
  sourcesGreedy : Greedy (fun trial => WithinBudget request (renderedBytes (trial.map Prod.snd) []))
    (orderedSources codec request) sources
  memoriesGreedy : Greedy (fun trial =>
      memoryBytes (memoryRenderings trial) ≤ request.durableMemoryLimit.get ∧
        WithinBudget request (renderedBytes built.selectedSources (memoryRenderings trial)))
    (orderedMemories codec request) memories

/-- The limits that a successful construction keeps, and its admissions in their order. -/
structure KeepsLimits (request : ContextBuildRequest) (built : BuiltContext) : Prop where
  counted : built.renderedTokenCount.get = built.prelude.elim 0 String.utf8ByteSize
  total : request.reservedTokens.get + built.renderedTokenCount.get ≤ request.tokenBudget.get
  bounded : built.prelude.elim 0 String.utf8ByteSize ≤ maxRenderedContextBytes
  durable : durableTokens built.admissions ≤ request.durableMemoryLimit.get
  ranked : built.admissions.map ContextAdmission.rank = List.range' 1 built.admissions.length
  admitted : built.admissions.map admissionSubject =
    built.selectedSources.map sourceSubject ++ built.selectedMemories.map memorySubject

theorem validateRequest_ok_iff :
    validateRequest request = .ok () ↔
      request.runTurn ≠ 0 ∧ request.reservedTokens.get ≤ request.tokenBudget.get := by
  unfold validateRequest
  split
  · rename_i h
    simp only [reduceCtorEq, false_iff, not_and, Nat.not_le]
    intro turn
    exact h.resolve_left turn
  · rename_i h
    obtain ⟨turn, reserved⟩ := not_or.mp h
    simp only [true_iff]
    exact ⟨turn, Nat.not_lt.mp reserved⟩

theorem renderedBytes_eq (sources : List RenderedSource) (memories : List RenderedMemory) :
    renderedBytes sources memories = preludeBytes sources memories :=
  renderContextPrelude_size sources memories

/-- The construction in its steps. -/
theorem build_ok_iff :
    build codec request = .ok built ↔
      validateRequest request = .ok () ∧
      (∃ snapshots, checkSources (sortSources request.observedSources) request.auditSnapshots =
        .ok snapshots ∧
        validateUniqueRevisions (rank request.retrievalScope request.memoryCandidates) = .ok () ∧
        buildSelected codec request snapshots = .ok built) := by
  rw [build_eq]
  constructor
  · intro h
    obtain ⟨_, valid, h⟩ := bind_eq_ok_iff.mp h
    obtain ⟨snapshots, checked, h⟩ := bind_eq_ok_iff.mp h
    obtain ⟨_, unique, h⟩ := bind_eq_ok_iff.mp h
    exact ⟨valid, snapshots, checked, unique, h⟩
  · rintro ⟨valid, snapshots, checked, unique, h⟩
    rw [valid, ok_bind, checked, ok_bind, unique, ok_bind]
    exact h

theorem requiredSource_taken {selected : List RenderedSource}
    (made : selectSources request (orderedSources codec request) = .ok selected)
    {observed : ObservedContextSource} (mem : observed ∈ request.observedSources)
    (required : observed.policy = .required) (available : observed.content.isSome = true) :
    ∃ source ∈ selected, renderSource codec observed = .ok (some source) := by
  obtain ⟨rendered, rendering, filled⟩ := renderSource_total codec observed
  rw [available] at filled
  obtain ⟨source, rfl⟩ := Option.isSome_iff_exists.mp filled
  have entry : sourceRendered codec observed = some (observed.policy, source) := by
    have same := renderSource_eq codec observed
    rw [rendering] at same
    exact (Except.ok.inj same).symm
  have ordered : (observed.policy, source) ∈ orderedSources codec request :=
    mem_orderedSources.mpr ⟨observed, mem, entry⟩
  obtain ⟨taken, -, same, refused, -⟩ := choose_greedy made
  refine ⟨source, ?_, rendering⟩
  have there : (observed.policy, source) ∈ taken := by
    by_contra absent
    exact refuseSource_ok_iff.mp (refused _ ordered absent) required
  rw [same, List.nil_append]
  exact List.mem_map_of_mem there

theorem eligible_of_orderedMemories {memory : RankedRenderedMemory}
    (mem : memory ∈ orderedMemories codec request) :
    ∃ candidate ∈ request.memoryCandidates, eligible request.retrievalScope candidate = true ∧
      renderMemory codec (rankOne request.retrievalScope candidate) = .ok memory.rendered := by
  obtain ⟨ranked, there, rfl⟩ := List.mem_map.mp mem
  obtain ⟨candidate, listed, allowed, rfl⟩ := mem_rank.mp there
  exact ⟨candidate, listed, allowed, renderMemory_ok_iff.mpr ⟨rfl, rfl, rfl, rfl, rfl⟩⟩

theorem orderedMemories_sorted (codec : FactCodec) (request : ContextBuildRequest) :
    (orderedMemories codec request).Pairwise fun x y => rankedBefore x.ranked y.ranked = true :=
  List.pairwise_map.mpr (rank_sorted request.retrievalScope request.memoryCandidates)

theorem build_selection (h : build codec request = .ok built) :
    KeepsLimits request built ∧ ∃ sources memories, SelectionOf codec request built sources memories := by
  obtain ⟨valid, snapshots, -, -, made⟩ := build_ok_iff.mp h
  obtain ⟨selectedSources, sourcesMade, made⟩ := bind_eq_ok_iff.mp made
  obtain ⟨selectedMemories, memoriesMade, made⟩ := bind_eq_ok_iff.mp made
  obtain ⟨tokens, counted, made⟩ := bind_eq_ok_iff.mp made
  obtain ⟨admissions, admitted, made⟩ := bind_eq_ok_iff.mp made
  cases made
  have reserved := (validateRequest_ok_iff.mp valid).2
  have hcounted : tokens.get = (renderContextPrelude selectedSources
      (memoryRenderings selectedMemories)).elim 0 String.utf8ByteSize := by
    cases hp : renderContextPrelude selectedSources (memoryRenderings selectedMemories) with
    | none =>
      rw [hp] at counted
      unfold EstimatedTokens.new at counted
      cases counted
      rfl
    | some prelude =>
      rw [hp] at counted
      exact estimate_ok counted
  have hsources : WithinBudget request (preludeBytes selectedSources []) := by
    rcases choose_fits sourcesMade with empty | fits
    · rw [empty]
      exact ⟨Nat.zero_le _, reserved⟩
    · exact fitsTotal_true_iff.mp fits
  have hmemories : memoryBytes (memoryRenderings selectedMemories) ≤ request.durableMemoryLimit.get ∧
      WithinBudget request (preludeBytes selectedSources (memoryRenderings selectedMemories)) := by
    rcases choose_fits memoriesMade with empty | fits
    · rw [empty]
      exact ⟨Nat.zero_le _, hsources⟩
    · exact fitsMemories_eq_true_iff.mp fits
  obtain ⟨sources, sub, same, -, greedy⟩ := choose_greedy sourcesMade
  obtain ⟨memories, sub', same', -, greedy'⟩ := choose_greedy memoriesMade
  rw [List.nil_append] at same same'
  rw [List.map_id] at same'
  subst same same'
  obtain ⟨subjects, ranks, -⟩ := buildAdmissions_ok admitted
  have hsize := renderContextPrelude_size (sources.map Prod.snd) (memoryRenderings selectedMemories)
  refine ⟨⟨hcounted, ?_, ?_, ?_, ranks, subjects⟩, sources, selectedMemories, rfl, rfl, sub, sub',
    (orderedSources_sorted codec request).sublist sub,
    (orderedMemories_sorted codec request).sublist sub',
    fun observed mem required available => requiredSource_taken sourcesMade mem required available,
    ?_, ?_, ?_⟩
  · rw [hcounted, hsize]
    exact hmemories.2.2
  · rw [hsize]
    exact hmemories.2.1
  · rw [durableTokens_eq subjects, tokens_of_orderedMemories sub']
    exact hmemories.1
  · intro memory mem
    obtain ⟨taken, there, rfl⟩ := List.mem_map.mp mem
    exact eligible_of_orderedMemories (sub'.subset there)
  · have none : memoryRenderings [] = [] := rfl
    simpa only [List.nil_append, fitsTotal_true_iff, renderedBytes_eq, none] using greedy
  · simpa only [List.nil_append, List.map_id, fitsMemories_eq_true_iff, renderedBytes_eq] using greedy'

theorem preludeBytes_le_of_extended {sources sources' : List RenderedSource} {memories memories' : List RenderedMemory}
    (before : sources <+: sources') (before' : memories <+: memories') :
    preludeBytes sources memories ≤ preludeBytes sources' memories' := by
  obtain ⟨later, rfl⟩ := before
  obtain ⟨later', rfl⟩ := before'
  unfold preludeBytes
  by_cases none : (sources.isEmpty && memories.isEmpty) = true
  · rw [if_pos none]
    exact Nat.zero_le _
  · have some_ : ¬ ((sources ++ later).isEmpty && (memories ++ later').isEmpty) = true := by
      simp only [Bool.and_eq_true, List.isEmpty_iff, List.append_eq_nil_iff] at none ⊢
      exact fun h => none ⟨h.1.1, h.2.1⟩
    rw [if_neg none, if_neg some_]
    simp only [sourceBytes, memoryBytes, List.map_append, List.sum_append]
    omega

/-- A request whose records all fit is built with all of them. -/
theorem buildSelected_of_fits {snapshots : List ContextSourceSnapshot} {admissions : List ContextAdmission}
    (fits : WithinBudget request (preludeBytes ((orderedSources codec request).map Prod.snd)
      (memoryRenderings (orderedMemories codec request))))
    (durable : memoryBytes (memoryRenderings (orderedMemories codec request)) ≤
      request.durableMemoryLimit.get)
    (admitted : buildAdmissions codec request.contextTurnId request.committedAt
      (sortSources request.observedSources) ((orderedSources codec request).map Prod.snd)
      (orderedMemories codec request) = .ok admissions) :
    ∃ built, buildSelected codec request snapshots = .ok built ∧
      built.selectedSources = (orderedSources codec request).map Prod.snd ∧
      built.selectedMemories = memoryRenderings (orderedMemories codec request) := by
  have before {α : Type} (front : List α) (item : α) (back : List α) :
      front ++ [item] <+: front ++ item :: back := ⟨back, by simp⟩
  have sources : selectSources request (orderedSources codec request) =
      .ok ((orderedSources codec request).map Prod.snd) := by
    refine choose_all fun front item back split => fitsTotal_true_iff.mpr (fits.mono ?_)
    refine preludeBytes_le_of_extended ?_  List.nil_prefix
    rw [split, List.nil_append, ← List.map_singleton, ← List.map_append]
    exact (before front item back).map Prod.snd
  have memories : selectMemories request ((orderedSources codec request).map Prod.snd)
      (orderedMemories codec request) = .ok ([] ++ (orderedMemories codec request).map id) := by
    refine choose_all fun front item back split => ?_
    have part : memoryRenderings ([] ++ front.map id ++ [id item]) <+:
        memoryRenderings (orderedMemories codec request) := by
      rw [split, List.nil_append, List.map_id]
      exact (before front item back).map _
    refine fitsMemories_eq_true_iff.mpr ⟨?_, fits.mono (preludeBytes_le_of_extended (List.prefix_refl _) part)⟩
    obtain ⟨later, same⟩ := part
    refine Nat.le_trans ?_ durable
    rw [← same, memoryBytes, memoryBytes, List.map_append, List.sum_append]
    exact Nat.le_add_right _ _
  rw [List.nil_append, List.map_id] at memories
  have counted : ∃ tokens, (renderContextPrelude ((orderedSources codec request).map Prod.snd)
      (memoryRenderings (orderedMemories codec request))).elim (EstimatedTokens.new 0) estimate =
        .ok tokens := by
    have size := renderContextPrelude_size ((orderedSources codec request).map Prod.snd)
      (memoryRenderings (orderedMemories codec request))
    cases made : renderContextPrelude ((orderedSources codec request).map Prod.snd)
        (memoryRenderings (orderedMemories codec request)) with
    | none => exact ⟨_, rfl⟩
    | some prelude =>
      rw [made, Option.elim_some] at size
      refine ⟨_, estimate_eq (size.le.trans (fits.1.trans ?_))⟩
      decide
  obtain ⟨tokens, counted⟩ := counted
  exact ⟨_, bind_eq_ok_iff.mpr ⟨_, sources, bind_eq_ok_iff.mpr ⟨_, memories,
    bind_eq_ok_iff.mpr ⟨_, counted, bind_eq_ok_iff.mpr ⟨_, admitted, rfl⟩⟩⟩⟩, rfl, rfl⟩

theorem checkSources_ne_budgetExceeded (observed : List ObservedContextSource)
    (audits : List ContextSourceSnapshot) : checkSources observed audits ≠ .error .budgetExceeded := by
  have refuse (keys : List ContextSourceKey) : refuseDuplicate keys ≠ .error .budgetExceeded := by
    intro h
    unfold refuseDuplicate at h
    split at h
    · cases h
    · cases h
  intro h
  rcases bind_eq_error_iff.mp h with h | ⟨_, -, h⟩
  · exact refuse _ h
  split at h
  · cases h
  rcases bind_eq_error_iff.mp h with h | ⟨_, -, h⟩
  · exact refuse _ h
  · cases h

theorem buildSelected_budgetExceeded_iff {snapshots : List ContextSourceSnapshot} :
    buildSelected codec request snapshots = .error .budgetExceeded ↔
      selectSources request (orderedSources codec request) = .error .budgetExceeded := by
  constructor
  · intro h
    rcases bind_eq_error_iff.mp h with h | ⟨sources, -, h⟩
    · exact h
    rcases bind_eq_error_iff.mp h with h | ⟨memories, -, h⟩
    · obtain ⟨front, item, back, before, -, -, failed⟩ := choose_error_iff.mp h
      rcases attempt_error_iff.mp failed with failed | ⟨-, failed⟩
      · exact absurd failed (fitsMemories_ne_budgetExceeded sources _)
      · cases failed
    rcases bind_eq_error_iff.mp h with h | ⟨tokens, -, h⟩
    · cases hp : renderContextPrelude sources (memoryRenderings memories) with
      | none =>
        rw [hp] at h
        cases h
      | some prelude =>
        rw [hp, Option.elim_some, estimate, EstimatedTokens.new] at h
        split at h
        · cases h
        · cases h
    rcases bind_eq_error_iff.mp h with h | ⟨admissions, -, h⟩
    · exact absurd h (buildAdmissions_ne_budgetExceeded _ _ _)
    · cases h
  · intro h
    rw [buildSelected, h]
    rfl

/-- The budget is the failure of a request of run turn zero, of one whose reserved tokens exceed it,
and of one that passes its checks but cannot hold the required sources. -/
theorem build_budgetExceeded_iff :
    build codec request = .error .budgetExceeded ↔
      request.runTurn = 0 ∨ request.tokenBudget.get < request.reservedTokens.get ∨
      ((∃ snapshots, checkSources (sortSources request.observedSources) request.auditSnapshots =
          .ok snapshots) ∧
        validateUniqueRevisions (rank request.retrievalScope request.memoryCandidates) = .ok () ∧
        ¬ WithinBudget request (renderedBytes (requiredSources codec request) [])) := by
  rw [build_eq]
  by_cases valid : validateRequest request = .ok ()
  · obtain ⟨turn, reserved⟩ := validateRequest_ok_iff.mp valid
    rw [valid, ok_bind, renderedBytes_eq, ← selectSources_ok_iff reserved]
    constructor
    · intro h
      rcases bind_eq_error_iff.mp h with h | ⟨snapshots, checked, h⟩
      · exact absurd h (checkSources_ne_budgetExceeded _ _)
      rcases bind_eq_error_iff.mp h with h | ⟨_, unique, h⟩
      · unfold validateUniqueRevisions at h
        split at h
        · cases h
        · cases h
      · have failed := buildSelected_budgetExceeded_iff.mp h
        refine .inr (.inr ⟨⟨snapshots, checked⟩, unique, ?_⟩)
        rintro ⟨selected, made⟩
        rw [made] at failed
        cases failed
    · rintro (zero | exceeds | ⟨⟨snapshots, checked⟩, unique, unselected⟩)
      · exact absurd zero turn
      · exact absurd reserved (Nat.not_le.mpr exceeds)
      · rw [checked, ok_bind, unique, ok_bind, buildSelected_budgetExceeded_iff]
        cases made : selectSources request (orderedSources codec request) with
        | ok selected => exact absurd ⟨selected, made⟩ unselected
        | error e => rw [selectSources_error made]
  · have failed : validateRequest request = .error .budgetExceeded := by
      unfold validateRequest at valid ⊢
      split
      · rfl
      · rename_i fine
        exact absurd (if_neg fine) valid
    rw [failed]
    refine ⟨fun _ => ?_, fun _ => rfl⟩
    by_contra fine
    obtain ⟨turn, rest⟩ := not_or.mp fine
    exact valid (validateRequest_ok_iff.mpr ⟨turn, Nat.not_lt.mp (not_or.mp rest).1⟩)

/-- A successful construction keeps every limit and is the greedy choice of the sources and then of
the memories. -/
theorem build_greedy_within_limits (codec : FactCodec) (request : ContextBuildRequest) :
    (∀ built, build codec request = .ok built → KeepsLimits request built ∧
      ∃ sources memories, SelectionOf codec request built sources memories) ∧
    (build codec request = .error .budgetExceeded ↔
      request.runTurn = 0 ∨ request.tokenBudget.get < request.reservedTokens.get ∨
      ((∃ snapshots, checkSources (sortSources request.observedSources) request.auditSnapshots =
          .ok snapshots) ∧
        validateUniqueRevisions (rank request.retrievalScope request.memoryCandidates) = .ok () ∧
        ¬ WithinBudget request (renderedBytes (requiredSources codec request) []))) :=
  ⟨fun _ made => build_selection made, build_budgetExceeded_iff⟩

end Built

section Sample

theorem sampleText_nonblank : isBlank "Keep <b> & quotes" = false := by decide

theorem sampleText_bounded : ("Keep <b> & quotes").utf8ByteSize ≤ maxContextSourceValueBytes := by decide

def sampleText : ContextSourceValue := ⟨"Keep <b> & quotes", sampleText_nonblank, sampleText_bounded⟩

theorem sampleSection_free : ¬ reservedSection .authorizedInstruction = true := by decide

theorem sampleObservation_valid : observationValid .available .preludeEligible (some sampleHash)
    (some sampleHash) = true := rfl

theorem sampleObservation_revised : (some (ContextSection.authorizedInstruction, sampleText)).isSome =
    (some sampleHash).isSome := rfl

def sampleSourceKey : ContextSourceKey := ⟨"workspace:agents-md:v1", rfl⟩

def sampleObserved : ObservedContextSource :=
  ⟨⟨sampleSourceKey, .available, .preludeEligible, some sampleHash, some sampleHash, ⟨0⟩,
      sampleObservation_valid⟩, .required, some (.authorizedInstruction, sampleText), rfl,
    sampleObservation_revised, unreserved sampleSection_free sampleText⟩

theorem sampleMemory_nonblank : isBlank "Prefers tabs" = false := by decide

theorem sampleMemory_bounded : ("Prefers tabs").utf8ByteSize ≤ maxMemoryContentBytes := by decide

theorem sampleConfidence_bounded : (9000 : UInt16) ≤ 10000 := by decide

def sampleCandidate : MemoryCandidate where
  memoryId := sampleId _ 1
  revisionId := sampleId _ 2
  status := .active
  scope := .session sampleSession
  kind := .preference
  trust := .userApproved
  confidence := ⟨9000, sampleConfidence_bounded⟩
  sensitivity := .internal
  validity := .indefinite
  content := ⟨"Prefers tabs", sampleMemory_nonblank, sampleMemory_bounded⟩
  contentHash := sampleHash
  createdAt := ⟨0⟩
  exactMatch := false
  lexicalBasisPoints := 5000
  conflicted := false

def sampleRetrieval : RetrievalScope :=
  ⟨sampleId _ 1, sampleId _ 1, sampleSession, none, ⟨0⟩, .secret⟩

theorem sampleGeneration_bounded : 0 ≤ maxEstimatedTokens := Nat.zero_le _

def sampleContextRequest (runTurn : UInt32) (tokenBudget : ContextTokenBudget)
    (reservedTokens durableMemoryLimit : EstimatedTokens) : ContextBuildRequest where
  contextTurnId := sampleId _ 1
  epochId := sampleId _ 1
  sessionId := sampleSession
  attemptId := sampleAttempt
  runTurn := runTurn
  expectedSessionSequence := .first
  memoryGeneration := ⟨0, sampleGeneration_bounded⟩
  model := sampleModel
  tokenBudget := tokenBudget
  reservedTokens := reservedTokens
  durableMemoryLimit := durableMemoryLimit
  committedAt := ⟨0⟩
  retrievalScope := sampleRetrieval
  observedSources := [sampleObserved]
  auditSnapshots := []
  memoryCandidates := [sampleCandidate]

theorem sampleBudget_positive : 0 < 4000 := by decide

theorem sampleBudget_bounded : 4000 ≤ maxEstimatedTokens := by decide

def sampleBudget : ContextTokenBudget := ⟨4000, sampleBudget_positive, sampleBudget_bounded⟩

theorem sampleReserved_bounded : 100 ≤ maxEstimatedTokens := by decide

def sampleReserved : EstimatedTokens := ⟨100, sampleReserved_bounded⟩

theorem sampleDurable_bounded : 1000 ≤ maxEstimatedTokens := by decide

def sampleDurable : EstimatedTokens := ⟨1000, sampleDurable_bounded⟩

theorem sampleSources_ordered (runTurn : UInt32) (tokenBudget : ContextTokenBudget)
    (reservedTokens durableMemoryLimit : EstimatedTokens) :
    orderedSources sampleCodec
        (sampleContextRequest runTurn tokenBudget reservedTokens durableMemoryLimit) =
      (sourceRendered sampleCodec sampleObserved).toList := by
  have sorted : sortSources [sampleObserved] = [sampleObserved] := List.mergeSort_singleton _
  have one : [sampleObserved].filterMap (sourceRendered sampleCodec) =
      (sourceRendered sampleCodec sampleObserved).toList := rfl
  rw [orderedSources, sampleContextRequest, sorted, one, sourceRendered]
  exact List.mergeSort_singleton _

theorem sampleRank : rank sampleRetrieval [sampleCandidate] = [rankOne sampleRetrieval sampleCandidate] := by
  have allowed : eligible sampleRetrieval sampleCandidate = true := by decide
  rw [rank, List.filter_cons_of_pos allowed, List.filter_nil, List.map_singleton,
    List.mergeSort_singleton]

theorem sampleSources_checked :
    checkSources (sortSources [sampleObserved]) [] = .ok [sampleObserved.snapshot] := by
  have sorted : sortSources [sampleObserved] = [sampleObserved] := List.mergeSort_singleton _
  have one : sortSnapshots [sampleObserved.snapshot] = [sampleObserved.snapshot] :=
    List.mergeSort_singleton _
  rw [sorted, checkSources, List.map_singleton, List.map_singleton, List.append_nil, one]
  rfl

theorem sampleSources_sorted : sortSources [sampleObserved] = [sampleObserved] :=
  List.mergeSort_singleton _

theorem sampleMemories_ordered (tokenBudget : ContextTokenBudget)
    (reservedTokens durableMemoryLimit : EstimatedTokens) :
    orderedMemories sampleCodec
        (sampleContextRequest 1 tokenBudget reservedTokens durableMemoryLimit) =
      [memoryRendered sampleCodec (rankOne sampleRetrieval sampleCandidate)] := by
  show (rank sampleRetrieval [sampleCandidate]).map (memoryRendered sampleCodec) = _
  rw [sampleRank, List.map_singleton]

theorem sampleRequest_observed (tokenBudget : ContextTokenBudget)
    (reservedTokens durableMemoryLimit : EstimatedTokens) :
    (sampleContextRequest 1 tokenBudget reservedTokens durableMemoryLimit).observedSources =
      [sampleObserved] := rfl

/-- The size of a quoted text, without building it. -/
theorem boundarySafeJsonString_eq (value : String) :
    (boundarySafeJsonString value).utf8ByteSize = String.utf8Len (value.toList.flatMap boundarySafe) + 2 := by
  have quote : ('"').utf8Size = 1 := by decide
  rw [utf8ByteSize_eq_utf8Len, toList_boundarySafeJsonString, String.utf8Len_cons, String.utf8Len_append,
    String.utf8Len_cons, String.utf8Len_nil, quote]

theorem sourceRecord_bytes (key : ContextSourceKey) (revision : Sha256Digest) (target : ContextSection)
    (value : ContextSourceValue) :
    (sourceRecord key revision target value).utf8ByteSize ≤
      2 * (sourceTag target).utf8ByteSize + (sectionName target).utf8ByteSize +
        (toString value.value.utf8ByteSize).utf8ByteSize +
        String.utf8Len (key.value.toList.flatMap boundarySafe) +
        String.utf8Len (revision.value.toList.flatMap boundarySafe) +
        String.utf8Len (value.value.toList.flatMap boundarySafe) + 81 := by
  have names : ("source_key").utf8ByteSize = 10 ∧ ("source_revision").utf8ByteSize = 15 ∧
      ("section").utf8ByteSize = 7 ∧ ("bytes").utf8ByteSize = 5 ∧ ("content").utf8ByteSize = 7 ∧
      ("\"").utf8ByteSize = 1 := by decide
  refine (recordText_size _ _).trans ?_
  simp only [List.map_cons, List.map_nil, List.sum_cons, List.sum_nil, boundarySafeJsonString_eq,
    String.utf8ByteSize_append, names]
  omega

theorem memoryRecord_bytes (candidate : MemoryCandidate) :
    (memoryRecord candidate).utf8ByteSize ≤
      2 * memoryTag.utf8ByteSize + (toString candidate.content.value.utf8ByteSize).utf8ByteSize +
        String.utf8Len (candidate.memoryId.value.toList.flatMap boundarySafe) +
        String.utf8Len (candidate.revisionId.value.toList.flatMap boundarySafe) +
        String.utf8Len (candidate.content.value.toList.flatMap boundarySafe) + 63 := by
  have names : ("memory_id").utf8ByteSize = 9 ∧ ("revision_id").utf8ByteSize = 11 ∧
      ("bytes").utf8ByteSize = 5 ∧ ("content").utf8ByteSize = 7 := by decide
  refine (recordText_size _ _).trans ?_
  simp only [List.map_cons, List.map_nil, List.sum_cons, List.sum_nil, boundarySafeJsonString_eq, names]
  omega

theorem sampleSource_size :
    (sourceRecord sampleSourceKey sampleHash .authorizedInstruction sampleText).utf8ByteSize ≤ 300 := by
  refine (sourceRecord_bytes _ _ _ _).trans ?_
  decide +kernel

theorem sampleMemory_size : (memoryRecord sampleCandidate).utf8ByteSize ≤ 140 := by
  refine (memoryRecord_bytes _).trans ?_
  decide +kernel

theorem samplePrelude_size : contextPreludeV1.utf8ByteSize = 254 := by
  decide +kernel

theorem sourceBytes_singleton {source : RenderedSource} {n : Nat} (h : source.rendered.utf8ByteSize ≤ n) :
    sourceBytes [source] ≤ n + 1 := by
  rw [sourceBytes, List.map_singleton, List.sum_singleton]
  exact Nat.add_le_add_right h 1

theorem memoryBytes_singleton {memory : RenderedMemory} {n : Nat} (h : memory.rendered.utf8ByteSize ≤ n) :
    memoryBytes [memory] ≤ n + 1 := by
  rw [memoryBytes, List.map_singleton, List.sum_singleton]
  exact Nat.add_le_add_right h 1

theorem sampleSource_bytes :
    sourceBytes ((sourceRendered sampleCodec sampleObserved).toList.map Prod.snd) ≤ 301 :=
  sourceBytes_singleton sampleSource_size

theorem sampleMemory_bytes : memoryBytes (memoryRenderings
    [memoryRendered sampleCodec (rankOne sampleRetrieval sampleCandidate)]) ≤ 141 :=
  memoryBytes_singleton sampleMemory_size

theorem sampleAdmissions : ∃ admissions, buildAdmissions sampleCodec (sampleId _ 1) ⟨0⟩ [sampleObserved]
    ((sourceRendered sampleCodec sampleObserved).toList.map Prod.snd)
    [memoryRendered sampleCodec (rankOne sampleRetrieval sampleCandidate)] = .ok admissions := by
  have made : (buildAdmissions sampleCodec (sampleId _ 1) ⟨0⟩ [sampleObserved]
      ((sourceRendered sampleCodec sampleObserved).toList.map Prod.snd)
      [memoryRendered sampleCodec (rankOne sampleRetrieval sampleCandidate)]).isOk = true := by
    decide +kernel
  revert made
  generalize buildAdmissions _ _ _ _ _ _ = admissions
  cases admissions with
  | error e => exact fun made => absurd made Bool.false_ne_true
  | ok admissions => exact fun _ => ⟨admissions, rfl⟩

/-- A request with room for 696 bytes is built with its source and its memory. -/
theorem sampleContext_built_of {tokenBudget : ContextTokenBudget}
    {reservedTokens durableMemoryLimit : EstimatedTokens}
    (room : reservedTokens.get + 696 ≤ tokenBudget.get) (durable : 141 ≤ durableMemoryLimit.get) :
    ∃ built, build sampleCodec
        (sampleContextRequest 1 tokenBudget reservedTokens durableMemoryLimit) = .ok built ∧
      (built.selectedSources.length = 1 && built.selectedMemories.length = 1) = true := by
  let request := sampleContextRequest 1 tokenBudget reservedTokens durableMemoryLimit
  have valid : validateRequest request = .ok () :=
    validateRequest_ok_iff.mpr ⟨by simp [request, sampleContextRequest], by
      show reservedTokens.get ≤ tokenBudget.get
      omega⟩
  have unique : validateUniqueRevisions (rank sampleRetrieval [sampleCandidate]) = .ok () := by
    rw [sampleRank]
    rfl
  have sources := sampleSources_ordered 1 tokenBudget reservedTokens durableMemoryLimit
  have memories := sampleMemories_ordered tokenBudget reservedTokens durableMemoryLimit
  have bytes : preludeBytes ((sourceRendered sampleCodec sampleObserved).toList.map Prod.snd)
      (memoryRenderings [memoryRendered sampleCodec (rankOne sampleRetrieval sampleCandidate)]) ≤ 696 := by
    have sourceSize := sampleSource_bytes
    have memorySize := sampleMemory_bytes
    rw [preludeBytes, if_neg (by simp [memoryRenderings]), samplePrelude_size]
    omega
  obtain ⟨admissions, admitted⟩ := sampleAdmissions
  have fits : WithinBudget request 696 := ⟨by decide, room⟩
  have selected : ∃ built, buildSelected sampleCodec request [sampleObserved.snapshot] = .ok built ∧
      built.selectedSources = (orderedSources sampleCodec request).map Prod.snd ∧
      built.selectedMemories = memoryRenderings (orderedMemories sampleCodec request) := by
    have admitted' : buildAdmissions sampleCodec request.contextTurnId request.committedAt
        (sortSources request.observedSources) ((orderedSources sampleCodec request).map Prod.snd)
        (orderedMemories sampleCodec request) = .ok admissions := by
      rw [sources, memories, sampleRequest_observed, sampleSources_sorted]
      exact admitted
    refine buildSelected_of_fits ?_ ?_ admitted'
    · rw [sources, memories]
      exact fits.mono bytes
    · rw [memories]
      exact sampleMemory_bytes.trans durable
  obtain ⟨built, made, selectedSources, selectedMemories⟩ := selected
  refine ⟨built, build_ok_iff.mpr ⟨valid, _, sampleSources_checked, unique, made⟩, ?_⟩
  rw [selectedSources, selectedMemories, sources, memories]
  rfl

theorem sampleContext_built : ∃ built,
    build sampleCodec (sampleContextRequest 1 sampleBudget sampleReserved sampleDurable) = .ok built ∧
      (built.selectedSources.length = 1 && built.selectedMemories.length = 1) = true :=
  sampleContext_built_of (by decide) (by decide)

theorem sample_greedy_within_limits : ∃ built,
    build sampleCodec (sampleContextRequest 1 sampleBudget sampleReserved sampleDurable) = .ok built ∧
      built.selectedSources.length = 1 ∧ built.selectedMemories.length = 1 ∧
      KeepsLimits (sampleContextRequest 1 sampleBudget sampleReserved sampleDurable) built := by
  obtain ⟨built, made, selected⟩ := sampleContext_built
  obtain ⟨sources, memories⟩ := Bool.and_eq_true_iff.mp selected
  have within := build_greedy_within_limits sampleCodec
    (sampleContextRequest 1 sampleBudget sampleReserved sampleDurable)
  exact ⟨built, made, of_decide_eq_true sources, of_decide_eq_true memories, (within.1 built made).1⟩

/-- A request of run turn zero is refused for its budget although its one required source fits. -/
theorem zero_turn_budgetExceeded :
    build sampleCodec (sampleContextRequest 0 sampleBudget sampleReserved sampleDurable) =
        .error .budgetExceeded ∧
      (requiredSources sampleCodec
        (sampleContextRequest 0 sampleBudget sampleReserved sampleDurable)).length = 1 ∧
      WithinBudget (sampleContextRequest 0 sampleBudget sampleReserved sampleDurable)
        (renderedBytes (requiredSources sampleCodec
          (sampleContextRequest 0 sampleBudget sampleReserved sampleDurable)) []) := by
  have required : requiredSources sampleCodec
      (sampleContextRequest 0 sampleBudget sampleReserved sampleDurable) =
        (sourceRendered sampleCodec sampleObserved).toList.map Prod.snd := rfl
  refine ⟨rfl, by rw [required]; rfl, ?_⟩
  have filled : ¬ (((sourceRendered sampleCodec sampleObserved).toList.map Prod.snd).isEmpty &&
      ([] : List RenderedMemory).isEmpty) = true := Bool.false_ne_true
  have fits : WithinBudget (sampleContextRequest 0 sampleBudget sampleReserved sampleDurable) 696 := by
    decide
  rw [required, renderedBytes_eq, preludeBytes, if_neg filled, samplePrelude_size]
  exact fits.mono (by
    have sourceSize := sampleSource_bytes
    rw [memoryBytes, List.map_nil, List.sum_nil]
    omega)

end Sample

end AutoHarness
