import AutoHarness.MemoryReadableRun
import AutoHarness.MemoryReader
import Mathlib.Data.List.Sort

namespace AutoHarness

open FallibleRun KeyedTable MemoryTables

variable {t : MemoryTables} {codec : FactCodec} {revisionId : MemoryRevisionId}

theorem MemoryContent.new_value (content : MemoryContent) :
    MemoryContent.new content.value = some content := by
  obtain ⟨value, filled, short⟩ := content
  simp [MemoryContent.new, filled, short]

theorem MemoryEvidenceExcerpt.new_value (excerpt : MemoryEvidenceExcerpt) :
    MemoryEvidenceExcerpt.new excerpt.value = some excerpt := by
  obtain ⟨value, filled, short⟩ := excerpt
  simp [MemoryEvidenceExcerpt.new, filled, short]

/-- A sorted list without repetition that has exactly the numbers below `n`. -/
theorem sorted_eq_range {ordinals : List Nat} {n : Nat} (sorted : ordinals.Pairwise (· ≤ ·))
    (distinct : ordinals.Nodup) (all : ∀ k, k ∈ ordinals ↔ k < n) : ordinals = List.range n := by
  have increasing : ordinals.Pairwise (· < ·) :=
    (sorted.and distinct).imp fun ⟨le, ne⟩ => lt_of_le_of_ne le ne
  have perm : ordinals.Perm (List.range n) :=
    (List.perm_ext_iff_of_nodup distinct List.nodup_range).mpr (by simp [all])
  exact List.Perm.eq_of_pairwise (fun a b _ _ h h' => by omega) increasing List.pairwise_lt_range perm

section Content

variable {row : MemoryRevisionRow}

theorem contentOf_none (unstored : row.contentId = none) : t.contentOf row = none := by
  simp [contentOf, unstored]

/-- The text that a revision refers to is there, and it is the one that was hashed. -/
theorem Readable.contentOf (r : Readable codec t) (hr : row ∈ t.revisions)
    (stored : row.contentId ≠ none) : ∃ content : MemoryContent,
      t.contentOf row = some content.value ∧
      normalizedContentHash codec content.value = row.metadata.contentHash := by
  obtain ⟨blob, hb, content, key, text, hash⟩ := r.legible.contents row hr stored
  obtain ⟨id, some_⟩ := Option.ne_none_iff_exists'.mp stored
  have own := r.keys.content row hr id some_
  refine ⟨content, ?_, hash⟩
  rw [MemoryTables.contentOf, some_, Option.bind_some, find?_eq_some_iff.mpr ⟨hb, key.trans own.symm⟩,
    Option.map_some, text]

theorem decodeContent_eq_ok {area : CorruptionArea} {revision : MemoryRevision} {content : MemoryContent}
    (hash : normalizedContentHash codec content.value = revision.contentHash) :
    decodeContent codec area revision content.value = .ok content := by
  rw [decodeContent, if_neg (not_not.mpr hash), content.new_value]

theorem Readable.decodeOptionalContent (r : Readable codec t) (hr : row ∈ t.revisions)
    {revision : MemoryRevision} (same : revision.contentHash = row.metadata.contentHash) :
    ∃ content, decodeOptionalContent codec .memoryProjection revision (t.contentOf row) = .ok content ∧
      (content = none → row.contentId = none) := by
  by_cases unstored : row.contentId = none
  · rw [contentOf_none unstored]
    exact ⟨none, rfl, fun _ => unstored⟩
  · obtain ⟨content, text, hash⟩ := r.contentOf hr unstored
    refine ⟨some content, ?_, by simp⟩
    rw [text, AutoHarness.decodeOptionalContent, decodeContent_eq_ok (hash.trans same.symm)]
    rfl

theorem Readable.loadMemoryContent (r : Readable codec t) (revisionId : MemoryRevisionId) :
    ∃ content, t.loadMemoryContent codec revisionId = .ok content := by
  unfold MemoryTables.loadMemoryContent
  split
  next => exact ⟨none, rfl⟩
  next row found =>
    obtain ⟨content, decoded, -⟩ := r.decodeOptionalContent (find?_eq_some_iff.mp found).1 rfl
    exact ⟨content, decoded⟩

theorem findOwned_eq_some {item : MemoryItemRow} (h : t.findOwned revisionId = some (row, item)) :
    row ∈ t.revisions ∧ row.revisionId = revisionId ∧ item ∈ t.items ∧
      item.memoryId = row.memoryId := by
  unfold findOwned at h
  obtain ⟨found, hf, h⟩ := Option.bind_eq_some_iff.mp h
  obtain ⟨owner, ho, same⟩ := Option.map_eq_some_iff.mp h
  cases same
  obtain ⟨hr, named⟩ := find?_eq_some_iff.mp hf
  obtain ⟨hi, own⟩ := find?_eq_some_iff.mp ho
  exact ⟨hr, named, hi, own⟩

theorem Readable.findOwned (r : Readable codec t) (hr : row ∈ t.revisions) :
    ∃ item ∈ t.items, item.memoryId = row.memoryId ∧
      t.findOwned row.revisionId = some (row, item) := by
  obtain ⟨item, hi, own⟩ := r.keys.owned row hr
  refine ⟨item, hi, own, ?_⟩
  rw [MemoryTables.findOwned, find?_eq_some_iff.mpr ⟨hr, rfl⟩, Option.bind_some,
    find?_eq_some_iff.mpr ⟨hi, own⟩, Option.map_some]

theorem Readable.loadMemoryCandidate (r : Readable codec t) (revisionId : MemoryRevisionId) :
    ∃ candidate, t.loadMemoryCandidate codec revisionId = .ok candidate := by
  unfold MemoryTables.loadMemoryCandidate
  split
  next => exact ⟨none, rfl⟩
  next row item found =>
    obtain ⟨hr, named, -⟩ := findOwned_eq_some found
    dsimp only
    rw [if_neg (not_not.mpr ((r.keys.named row hr).trans named))]
    by_cases unstored : row.contentId = none
    · rw [contentOf_none unstored, unstored]
      exact ⟨_, rfl⟩
    · obtain ⟨content, text, hash⟩ := r.contentOf hr unstored
      obtain ⟨id, some_⟩ := Option.ne_none_iff_exists'.mp unstored
      have hashed : normalizedContentHash codec content.value =
          (row.metadata.withStatus row.state).contentHash := hash
      rw [text, some_]
      dsimp only
      rw [decodeContent_eq_ok hashed]
      exact ⟨_, rfl⟩

end Content

section Evidence

variable {rev : MemoryRevisionRow} {metadata : MemoryEvidenceMetadata} {row : MemoryEvidenceRow}

theorem mem_evidenceRows : row ∈ t.evidenceRows revisionId ↔
    row ∈ t.evidence ∧ row.revisionId = revisionId := by
  simp [evidenceRows]

/-- An evidence row of a revision repeats the metadata at its ordinal. -/
theorem Readable.repeats (r : Readable codec t) (hr : rev ∈ t.revisions)
    (he : row ∈ t.evidenceRows rev.revisionId) : ∃ metadata,
      rev.metadata.evidence[row.ordinal]? = some metadata ∧ Repeats metadata row ∧
      ExcerptState codec t rev.memoryId metadata row := by
  obtain ⟨stored, own⟩ := mem_evidenceRows.mp he
  obtain ⟨other, ho, metadata, named, listed, repeats, state⟩ := r.legible.evidence row stored
  cases eq_of_key ho hr (named.trans own)
  exact ⟨metadata, listed, repeats, state⟩

theorem Readable.ordinals (r : Readable codec t) (hr : rev ∈ t.revisions) :
    (t.evidenceRows rev.revisionId).map (·.ordinal) = List.range rev.metadata.evidence.length := by
  refine sorted_eq_range ?_ ?_ fun n => ?_
  · refine List.pairwise_map.mpr ?_
    exact List.pairwise_insertionSort (fun a b : MemoryEvidenceRow => a.ordinal ≤ b.ordinal) _
  · have distinct : (t.evidenceRows rev.revisionId).Nodup :=
      (List.perm_insertionSort _ _).nodup_iff.mpr (List.Nodup.of_map _ (t.evidence.distinct_select _))
    refine List.Nodup.map_on (fun a ha b hb same => ?_) distinct
    obtain ⟨first, listed, repeats, -⟩ := r.repeats hr ha
    obtain ⟨second, listed', repeats', -⟩ := r.repeats hr hb
    have equal : first = second := by
      rw [same, listed'] at listed
      exact (Option.some.inj listed).symm
    refine eq_of_key (mem_evidenceRows.mp ha).1 (mem_evidenceRows.mp hb).1 ?_
    rw [repeats.id, repeats'.id, equal]
  · constructor
    · intro listed
      obtain ⟨row, he, rfl⟩ := List.mem_map.mp listed
      obtain ⟨metadata, listed, -⟩ := r.repeats hr he
      exact (List.getElem?_eq_some_iff.mp listed).1
    · intro small
      obtain ⟨row, he, own, rfl⟩ := r.legible.complete rev hr n small
      exact List.mem_map.mpr ⟨row, mem_evidenceRows.mpr ⟨he, own⟩, rfl⟩

theorem ExcerptState.decode {m : MemoryId} {lifecycle : MemoryRevisionStatus}
    (s : ExcerptState codec t m metadata row) (gone : t.Deleted m → lifecycle = .deleted) :
    ∃ excerpt, t.decodeExcerpt codec lifecycle metadata row = .ok excerpt := by
  unfold decodeExcerpt
  cases s with
  | absent unhashed unstored unindexed unmarked =>
    rw [unhashed, unstored, unindexed, unmarked]
    exact ⟨_, rfl⟩
  | erased hashed unstored unindexed cause =>
    obtain ⟨hash, some_⟩ := Option.ne_none_iff_exists'.mp hashed
    have erased : lifecycle = .deleted ∨ row.erasedBy.isSome := by
      rcases cause with deleted | marked
      · exact .inl (gone deleted)
      · exact .inr (Option.isSome_iff_ne_none.mpr marked)
    rw [some_, unstored, unindexed]
    exact ⟨.erased, if_pos erased⟩
  | @retained hash blob excerpt hashed stored indexed unmarked kept key text sum =>
    have found : t.blobs.find? (.evidence row.evidenceId) = some blob :=
      find?_eq_some_iff.mpr ⟨kept, key⟩
    rw [hashed, stored, indexed, unmarked, Option.bind_some, found]
    dsimp only
    rw [if_pos ⟨rfl, rfl, by rw [text, sum]⟩, text, excerpt.new_value]
    exact ⟨_, rfl⟩

theorem Readable.evidence_length (r : Readable codec t) (hr : rev ∈ t.revisions) :
    (t.evidenceRows rev.revisionId).length = rev.metadata.evidence.length := by
  have lengths := congrArg List.length (r.ordinals hr)
  simpa using lengths

theorem Readable.decodeEvidence (r : Readable codec t) (hr : rev ∈ t.revisions)
    {item : MemoryItemRow} (hi : item ∈ t.items) (own : item.memoryId = rev.memoryId)
    {entry : (MemoryEvidenceMetadata × MemoryEvidenceRow) × Nat}
    (he : entry ∈ (rev.metadata.evidence.zip (t.evidenceRows rev.revisionId)).zipIdx) :
    ∃ stored, t.decodeEvidence codec item.lifecycle entry = .ok stored := by
  obtain ⟨⟨metadata, row⟩, n⟩ := entry
  have listed : (rev.metadata.evidence.zip (t.evidenceRows rev.revisionId))[n]? =
      some (metadata, row) := List.mem_zipIdx_iff_getElem?.mp he
  have both : rev.metadata.evidence[n]? = some metadata ∧
      (t.evidenceRows rev.revisionId)[n]? = some row := List.getElem?_zip_eq_some.mp listed
  obtain ⟨first, second⟩ := both
  have ordinal : row.ordinal = n := by
    have ordinals := congrArg (·[n]?) (r.ordinals hr)
    have small := (List.getElem?_eq_some_iff.mp first).1
    rw [List.getElem?_map, second, List.getElem?_range small] at ordinals
    exact Option.some.inj ordinals
  obtain ⟨repeated, at_, repeats, state⟩ := r.repeats hr (List.mem_of_getElem? second)
  have same : repeated = metadata := by
    rw [ordinal, first] at at_
    exact (Option.some.inj at_).symm
  subst same
  have gone : t.Deleted rev.memoryId → item.lifecycle = .deleted := by
    rintro ⟨other, ho, mine, deleted⟩
    rwa [eq_of_key hi ho (own.trans mine.symm)]
  obtain ⟨excerpt, decoded⟩ := state.decode gone
  refine ⟨⟨repeated.evidenceId, excerpt⟩, ?_⟩
  have agrees : ¬ (row.ordinal ≠ n ∨ row.evidenceId ≠ repeated.evidenceId ∨
      row.source ≠ repeated.source ∨ row.relation ≠ repeated.relation) := by
    simp [ordinal, repeats.id, repeats.source, repeats.relation]
  unfold MemoryTables.decodeEvidence
  dsimp only
  rw [if_neg agrees, decoded]
  rfl

/-- The evidence of a stored revision. -/
theorem Readable.loadEvidence (r : Readable codec t) (hr : rev ∈ t.revisions) :
    ∃ stored, t.loadMemoryEvidenceContent codec rev.revisionId = .ok (some stored) := by
  obtain ⟨item, hi, own, found⟩ := r.findOwned hr
  have each : ∀ entry ∈ (rev.metadata.evidence.zip (t.evidenceRows rev.revisionId)).zipIdx,
      ∃ stored, t.decodeEvidence codec item.lifecycle entry = .ok stored :=
    fun entry he => r.decodeEvidence hr hi own he
  obtain ⟨stored, decoded, -⟩ := mapM_ok each
  refine ⟨stored, ?_⟩
  unfold loadMemoryEvidenceContent
  rw [found]
  dsimp only
  rw [if_neg (not_not.mpr (r.keys.named rev hr)), if_neg (not_not.mpr (r.evidence_length hr)), decoded]
  rfl

theorem Readable.loadMemoryEvidenceContent (r : Readable codec t) (revisionId : MemoryRevisionId) :
    ∃ stored, t.loadMemoryEvidenceContent codec revisionId = .ok stored := by
  by_cases known : ∃ rev ∈ t.revisions, rev.revisionId = revisionId
  · obtain ⟨rev, hr, rfl⟩ := known
    obtain ⟨stored, loaded⟩ := r.loadEvidence hr
    exact ⟨some stored, loaded⟩
  · refine ⟨none, ?_⟩
    unfold MemoryTables.loadMemoryEvidenceContent
    split
    next => rfl
    next row item found =>
      obtain ⟨hr, named, -⟩ := findOwned_eq_some found
      exact absurd ⟨row, hr, named⟩ known

end Evidence

section Validations

variable {rev : MemoryRevisionRow} {m : MemoryId} {operation : MemoryOperationEnvelope}

theorem mem_validationsOf : operation ∈ t.validationsOf m revisionId ↔
    operation ∈ t.operations ∧ operation.memoryId = m ∧
      ∃ validation, operation.payload = .revisionValidated revisionId validation := by
  unfold validationsOf
  rw [List.mem_insertionSort, mem_select, Bool.and_eq_true, decide_eq_true_iff]
  refine and_congr_right fun _ => and_congr_right fun _ => ?_
  split
  next id validation hp => simp [hp]
  next other =>
    simp only [Bool.false_eq_true, false_iff]
    rintro ⟨validation, hp⟩
    exact other _ _ hp

/-- A validation of the ledger agrees with its row. -/
theorem Readable.checkValidation (r : Readable codec t) (hr : rev ∈ t.revisions)
    (ho : operation ∈ t.validationsOf m rev.revisionId) {revision : MemoryRevision}
    (named : revision.revisionId = rev.revisionId)
    (hash : revision.contentHash = rev.metadata.contentHash) :
    ∃ validation, t.checkValidation revision operation = .ok validation := by
  obtain ⟨recorded, -, validation, hp⟩ := mem_validationsOf.mp ho
  obtain ⟨schema, ⟨other, hother, same, -, content⟩, projected⟩ :=
    r.legible.validated.recorded operation recorded _ _ hp
  cases eq_of_key hother hr same
  have found := find?_eq_some_iff.mpr ⟨projected, rfl⟩
  dsimp only at found
  unfold MemoryTables.checkValidation
  rw [hp]
  dsimp only
  rw [if_neg (by simp [schema, named, hash, content]), found]
  dsimp only
  rw [if_neg (by simp [named])]
  exact ⟨_, rfl⟩

/-- A revision has as many validations in the ledger as it has rows. -/
theorem Readable.validations_length (r : Readable codec t) (hr : rev ∈ t.revisions) :
    (t.validations.select (·.revisionId = rev.revisionId)).length =
      (t.validationsOf rev.memoryId rev.revisionId).length := by
  have ids : ((t.validations.select (·.revisionId = rev.revisionId)).map (·.operationId)).Perm
      ((t.validationsOf rev.memoryId rev.revisionId).map (·.operationId)) := by
    refine (List.perm_ext_iff_of_nodup (t.validations.distinct_select _) ?_).mpr fun id => ?_
    · have sorted : (t.validationsOf rev.memoryId rev.revisionId).Perm _ := List.perm_insertionSort _ _
      exact (sorted.map _).nodup_iff.mpr (t.operations.distinct_select _)
    · constructor
      · intro listed
        obtain ⟨row, hv, rfl⟩ := List.mem_map.mp listed
        obtain ⟨stored, own⟩ := mem_select.mp hv
        obtain ⟨operation, ho, same, hp⟩ := r.legible.validated.projected row stored
        obtain ⟨-, ⟨other, hother, named, mine, -⟩, -⟩ :=
          r.legible.validated.recorded operation ho _ _ hp
        rw [of_decide_eq_true own] at hp named
        cases eq_of_key hother hr named
        exact List.mem_map.mpr ⟨operation, mem_validationsOf.mpr ⟨ho, mine.symm, _, hp⟩, same⟩
      · intro listed
        obtain ⟨operation, ho, rfl⟩ := List.mem_map.mp listed
        obtain ⟨recorded, -, validation, hp⟩ := mem_validationsOf.mp ho
        obtain ⟨-, -, projected⟩ := r.legible.validated.recorded operation recorded _ _ hp
        exact List.mem_map.mpr ⟨_, mem_select.mpr ⟨projected, decide_eq_true rfl⟩, rfl⟩
  have lengths := ids.length_eq
  simpa using lengths

theorem Readable.loadLatestRevisionValidation (r : Readable codec t) (hr : rev ∈ t.revisions)
    {revision : MemoryRevision} (named : revision.revisionId = rev.revisionId)
    (hash : revision.contentHash = rev.metadata.contentHash) :
    ∃ validation, t.loadLatestRevisionValidation rev.memoryId revision = .ok validation := by
  have each : ∀ operation ∈ t.validationsOf rev.memoryId rev.revisionId,
      ∃ validation, t.checkValidation revision operation = .ok validation :=
    fun operation ho => r.checkValidation hr ho named hash
  obtain ⟨found, checked, length⟩ := mapM_ok each
  unfold MemoryTables.loadLatestRevisionValidation
  rw [named, checked, ok_bind, r.validations_length hr, if_neg (by simp [length])]
  exact ⟨_, rfl⟩

end Validations

section Pages

variable {codec : MemoryReadCodec}

theorem Readable.inspectRecord (r : Readable codec.toFactCodec t) {item : MemoryItemRow}
    {rev : MemoryRevisionRow} (hi : item ∈ t.items) (hr : rev ∈ t.revisions)
    (own : rev.memoryId = item.memoryId) :
    ∃ record, t.inspectRecord codec (item, rev) = .ok record := by
  have named := r.keys.named rev hr
  have status : (rev.metadata.withStatus rev.state).contentHash = rev.metadata.contentHash := rfl
  have same : (rev.metadata.withStatus rev.state).revisionId = rev.revisionId := named
  obtain ⟨content, decoded, absent⟩ := r.decodeOptionalContent hr status
  obtain ⟨evidence, loaded⟩ := r.loadEvidence hr
  obtain ⟨validation, validated⟩ := r.loadLatestRevisionValidation hr same status
  have present : ¬ (item.lifecycle ≠ .deleted ∧ content.isNone) := by
    rintro ⟨live, none_⟩
    obtain ⟨other, ho, mine, gone⟩ := r.legible.erased rev hr (absent (Option.isNone_iff_eq_none.mp none_))
    exact live (eq_of_key hi ho (own.symm.trans mine.symm) ▸ gone)
  unfold MemoryTables.inspectRecord
  dsimp only
  rw [decoded, ok_bind, if_neg present, same, loaded, ok_bind]
  dsimp only
  rw [← own, validated]
  exact ⟨_, rfl⟩

theorem Readable.inspectMemoryPage (r : Readable codec.toFactCodec t) (query : MemoryInspectionQuery) :
    ∃ page, t.inspectMemoryPage codec query = .ok page := by
  have each : ∀ pair ∈ t.inspectionRows codec query, ∃ record, t.inspectRecord codec pair = .ok record := by
    rintro ⟨item, rev⟩ listed
    have kept := List.mem_of_mem_take listed
    rw [List.mem_insertionSort, List.mem_filter] at kept
    obtain ⟨other, ho, joined⟩ := List.mem_filterMap.mp kept.1
    obtain ⟨row, found, same⟩ := Option.map_eq_some_iff.mp joined
    cases same
    obtain ⟨id, latest, found⟩ := Option.bind_eq_some_iff.mp found
    obtain ⟨hr, named⟩ := find?_eq_some_iff.mp found
    obtain ⟨mine, hm, named', own⟩ := r.keys.latest item ho id latest
    cases eq_of_key hm hr (named'.trans named.symm)
    exact r.inspectRecord ho hr own
  obtain ⟨records, read, -⟩ := mapM_ok each
  unfold MemoryTables.inspectMemoryPage
  rw [read]
  exact ⟨_, rfl⟩

theorem loadActiveMemoryHeads_ok (t : MemoryTables) (query : ActiveMemoryHeadQuery) :
    ∃ heads, t.loadActiveMemoryHeads query = .ok heads := by
  unfold loadActiveMemoryHeads
  dsimp only
  refine (mapM_ok fun pair listed => ?_).imp fun heads read => read.1
  have kept := List.mem_of_mem_take listed
  rw [List.mem_insertionSort, List.mem_filter] at kept
  have active : pair.2.state = .active := by
    have filtered := kept.2
    simp only [Bool.and_eq_true, decide_eq_true_eq] at filtered
    exact filtered.1.1.1.1.2
  have current : (pair.2.metadata.withStatus pair.2.state).status = .active := active
  exact ⟨_, if_neg (not_not.mpr current)⟩

theorem Readable.searchMemory (r : Readable codec.toFactCodec t) (query : MemorySearchQuery) :
    ∃ batch, t.searchMemory codec query = .ok batch := by
  unfold MemoryTables.searchMemory
  split
  next => exact ⟨_, rfl⟩
  next matching _ =>
    have each : ∀ entry ∈ (t.searchRows codec query matching).zipIdx,
        ∃ candidate, searchCandidate codec.toFactCodec entry = .ok candidate := by
      rintro ⟨⟨rank, item, rev, text⟩, n⟩ listed
      have kept := List.mem_of_mem_take (List.fst_mem_of_mem_zipIdx listed)
      rw [List.mem_insertionSort] at kept
      obtain ⟨indexed, -, joined⟩ := List.mem_filterMap.mp kept
      obtain ⟨ranked, -, joined⟩ := Option.bind_eq_some_iff.mp joined
      obtain ⟨⟨row, owner⟩, owned, joined⟩ := Option.bind_eq_some_iff.mp joined
      obtain ⟨content, found, joined⟩ := Option.bind_eq_some_iff.mp joined
      obtain ⟨hr, -⟩ := findOwned_eq_some owned
      split at joined
      next =>
        cases Option.some.inj joined
        have stored : rev.contentId ≠ none := fun unstored => by
          rw [contentOf_none unstored] at found
          cases found
        obtain ⟨decoded, text_, hash⟩ := r.contentOf hr stored
        have same : text = decoded.value := Option.some.inj (found.symm.trans text_)
        have hashed : normalizedContentHash codec.toFactCodec decoded.value =
            (rev.metadata.withStatus rev.state).contentHash := hash
        unfold searchCandidate
        dsimp only
        rw [same, decodeContent_eq_ok hashed]
        exact ⟨_, rfl⟩
      next => cases joined
    obtain ⟨candidates, read, length⟩ := mapM_ok each
    have short : candidates.length ≤ maxMemorySearchCandidates := by
      have bounded := query.bounded
      rw [length, List.length_zipIdx, searchRows, List.length_take]
      omega
    rw [read, ok_bind, if_neg (by omega)]
    exact ⟨_, rfl⟩

/-- Every read of the memory store succeeds. -/
structure ReadsOk (codec : MemoryReadCodec) (t : MemoryTables) : Prop where
  content : ∀ revisionId, ∃ content, t.loadMemoryContent codec.toFactCodec revisionId = .ok content
  evidence : ∀ revisionId, ∃ stored,
    t.loadMemoryEvidenceContent codec.toFactCodec revisionId = .ok stored
  candidate : ∀ revisionId, ∃ candidate,
    t.loadMemoryCandidate codec.toFactCodec revisionId = .ok candidate
  inspection : ∀ query, ∃ page, t.inspectMemoryPage codec query = .ok page
  heads : ∀ query, ∃ heads, t.loadActiveMemoryHeads query = .ok heads
  search : ∀ query, ∃ batch, t.searchMemory codec query = .ok batch

theorem Readable.reads (r : Readable codec.toFactCodec t) : ReadsOk codec t where
  content := r.loadMemoryContent
  evidence := r.loadMemoryEvidenceContent
  candidate := r.loadMemoryCandidate
  inspection := r.inspectMemoryPage
  heads := loadActiveMemoryHeads_ok t
  search := r.searchMemory

end Pages

/-- No read finds damage after a run that deletes beside no live revision. -/
theorem memoryRun_reads (codec : MemoryReadCodec) {actions : List MemoryAction}
    (beside : EachAfter (fun before action =>
      ¬ DeletesBesideLive (memoryRun codec.toMemoryCodec before) action) actions) :
    ReadsOk codec (memoryRun codec.toMemoryCodec actions) :=
  (memoryRun_readable beside).reads

def sampleReadCodec : MemoryReadCodec where
  toMemoryCodec := sampleMemoryCodec
  metadataJson _ := "\x7b\x7d"
  validationJson _ := "\x7b\x7d"
  isAlphanumeric := Char.isAlphanum
  toLowercase := String.toLower
  rankFts _ _ := some 0

theorem memoryRun_reads_deletion :
    ReadsOk sampleReadCodec (memoryRun sampleMemoryCodec deletedAlone) := by
  refine memoryRun_reads sampleReadCodec ?_
  refine eachAfter_cons_iff.mpr ⟨?_, eachAfter_cons_iff.mpr ⟨?_, eachAfter_nil⟩⟩
  · rintro ⟨revisionId, hp, -⟩
    cases hp
  · rintro ⟨revisionId, hp, -, other, different, rev, hr, rfl, -⟩
    cases hp
    exact different (sampleCreation_alone rev hr)

/-- Everything of one user. -/
def sampleInspection : MemoryInspectionQuery where
  eligibleScopes := [.user (sampleId _ 1)]
  statuses := []
  effectiveStatuses := []
  asOf := none
  memoryKind := none
  subjectKey := none
  literalSearch := none
  sensitivityCeiling := .secret
  before := none
  limit := 10
  authorized := by simp
  positive := by omega
  bounded := by simp [maxMemoryInspectionPageSize]
  observed := by simp

theorem deletedBeside_unreadable : ¬ ReadsOk sampleReadCodec (memoryRun sampleMemoryCodec
    (deletedBeside ++ [.command sampleRetraction ⟨0⟩ []])) := by
  intro reads
  obtain ⟨page, read⟩ := reads.inspection sampleInspection
  have corrupt : ((memoryRun sampleMemoryCodec (deletedBeside ++
    [.command sampleRetraction ⟨0⟩ []])).inspectMemoryPage sampleReadCodec
      sampleInspection).isOk = false := by decide +kernel
  rw [read] at corrupt
  cases corrupt

end AutoHarness
