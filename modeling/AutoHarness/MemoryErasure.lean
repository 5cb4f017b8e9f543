import AutoHarness.MemoryLifecycle

namespace AutoHarness

open FallibleRun KeyedTable MemoryTables

variable {t u v : MemoryTables} {m n : MemoryId} {revisionId : MemoryRevisionId}
  {sessionId : SessionId} {lastSequence : SessionSequence} {erasedAt : TimestampMillis}
  {item : MemoryItemRow}

section Memory

theorem eraseSessionMemory_eq_ok (h : eraseSessionMemory sessionId lastSequence erasedAt t item = .ok u) :
    ∃ latest deleted tombstones, item.latestRevisionId = some latest ∧
      t.deleteMemoryContent item.memoryId latest = .ok deleted ∧
      deleted.tombstones.insert? ⟨item.memoryId, sessionId, lastSequence, erasedAt⟩ =
        some tombstones ∧
      u = { deleted with
        revisions := deleted.revisions.update (·.memoryId = item.memoryId) (withState .deleted)
        tombstones } := by
  unfold eraseSessionMemory at h
  split at h
  next => cases h
  next latest found =>
    obtain ⟨deleted, erased, h⟩ := bind_eq_ok_iff.mp h
    split at h
    next tombstones inserted =>
      exact ⟨latest, deleted, tombstones, found, erased, inserted, (Except.ok.inj h).symm⟩
    next => cases h

theorem belongs_deleteMemoryContent (h : t.deleteMemoryContent m revisionId = .ok u)
    {other : MemoryRevisionId} : u.Belongs other n ↔ t.Belongs other n := by
  obtain ⟨rfl, -⟩ := updateItem_eq_ok (deleteMemoryContent_eq_ok h)
  exact belongs_setState.trans belongs_eraseContent

theorem belongs_eraseSessionMemory
    (h : eraseSessionMemory sessionId lastSequence erasedAt t item = .ok u)
    {other : MemoryRevisionId} : u.Belongs other n ↔ t.Belongs other n := by
  obtain ⟨latest, deleted, tombstones, -, erased, -, rfl⟩ := eraseSessionMemory_eq_ok h
  have kept : ({ deleted with
      revisions := deleted.revisions.update (·.memoryId = item.memoryId) (withState .deleted) } :
      MemoryTables).Belongs other n ↔ deleted.Belongs other n := belongs_update fun _ => rfl
  exact kept.trans (belongs_deleteMemoryContent erased)

/-- The latest revision of an item, as a row selected before the erasure has it. -/
def LatestStored (t : MemoryTables) (item : MemoryItemRow) : Prop :=
  ∀ latest, item.latestRevisionId = some latest → t.Belongs latest item.memoryId

theorem soundFor_eraseSessionMemory (k : MemoryKeys t) (stored : LatestStored t item)
    (h : eraseSessionMemory sessionId lastSequence erasedAt t item = .ok u) :
    SoundFor item.memoryId t u := by
  obtain ⟨latest, deleted, tombstones, found, erased, -, rfl⟩ := eraseSessionMemory_eq_ok h
  have first := soundFor_delete k (stored latest found) erased
  refine first.trans ⟨{ AgreeOutside.refl _ deleted with revisions := ?_ }, ?_⟩
  · intro rev other
    exact mem_update_of_ne (φ := MemoryRevisionRow.memoryId) (fun row _ same => by simpa using same)
      (fun _ => rfl) other
  · have marked : MemoryKeys { deleted with
        revisions := deleted.revisions.update (·.memoryId = item.memoryId) (withState .deleted) } :=
      first.keys.updateRevisions (fun _ => rfl) fun _ => .inl rfl
    exact { marked with }

/-- What is left of a deleted memory: its rows without any text, none of them open. -/
structure Erased (m : MemoryId) (t : MemoryTables) : Prop where
  stored : ∃ item ∈ t.items, item.memoryId = m
  retired : ∀ item ∈ t.items, item.memoryId = m →
    item.lifecycle = .deleted ∧ item.activeRevisionId = none
  closed : ∀ rev ∈ t.revisions, rev.memoryId = m →
    rev.state ∈ [.superseded, .deleted] ∧ rev.contentId = none
  excerpts : ∀ row ∈ t.evidence, t.Belongs row.revisionId m → row.excerptContentId = none
  unindexed : ∀ row ∈ t.fts, row.memoryId ≠ m

/-- The condition under which a deletion leaves no revision open. -/
def DeletesLast (t : MemoryTables) (m : MemoryId) (revisionId : MemoryRevisionId) : Prop :=
  ∀ rev ∈ t.revisions, rev.memoryId = m → rev.revisionId ≠ revisionId →
    rev.state ∈ [.superseded, .deleted]

/-- The texts and the item after a deletion, whatever becomes of the states. -/
theorem deleteMemoryContent_erases (h : t.deleteMemoryContent m revisionId = .ok u) :
    (∀ item ∈ u.items, item.memoryId = m →
        item.lifecycle = .deleted ∧ item.activeRevisionId = none) ∧
      (∀ rev ∈ u.revisions, rev.memoryId = m → rev.contentId = none) ∧
      (∀ row ∈ u.evidence, u.Belongs row.revisionId m → row.excerptContentId = none) ∧
      ∀ row ∈ u.fts, row.memoryId ≠ m := by
  have belongs : ∀ other, u.Belongs other m ↔ t.Belongs other m :=
    fun _ => belongs_deleteMemoryContent h
  obtain ⟨rfl, -⟩ := updateItem_eq_ok (deleteMemoryContent_eq_ok h)
  refine ⟨fun item hu own => ?_, fun rev hu own => ?_, fun row hu own => ?_, fun row hf own => ?_⟩
  · obtain ⟨old, hi, rfl⟩ := mem_update.mp hu
    have id : (alter (·.memoryId = m) (retired .deleted) old).memoryId = old.memoryId :=
      alter_congr (fun _ => rfl) old
    rw [alter, if_pos (by simpa using id.symm.trans own)]
    exact ⟨rfl, rfl⟩
  · obtain ⟨erased, he, rfl⟩ := mem_setState.mp hu
    obtain ⟨old, hr, rfl⟩ := mem_eraseContent.mp he
    exact if_pos own
  · obtain ⟨old, he, rfl⟩ := mem_update.mp hu
    have id : (alter (·.revisionId ∈ t.revisionIds m) withoutExcerpt old).revisionId =
      old.revisionId := alter_congr (fun _ => rfl) old
    rw [id, belongs, ← mem_revisionIds] at own
    rw [alter, if_pos (by simpa using own)]
    rfl
  · obtain ⟨-, kept⟩ := mem_delete.mp hf
    simp [own] at kept

theorem SoundFor.stored (s : SoundFor m t u) (b : u.Belongs revisionId n) :
    ∃ item ∈ u.items, item.memoryId = n := by
  obtain ⟨rev, hr, -, rfl⟩ := b
  exact s.keys.owned rev hr

theorem Erased.of_delete (k : MemoryKeys t) (b : t.Belongs revisionId m)
    (last : DeletesLast t m revisionId) (h : t.deleteMemoryContent m revisionId = .ok u) :
    Erased m u := by
  have stored := (soundFor_delete k b h).stored ((belongs_deleteMemoryContent h).mpr b)
  obtain ⟨retired, contents, excerpts, unindexed⟩ := deleteMemoryContent_erases h
  refine ⟨stored, retired, fun rev hu own => ⟨?_, contents rev hu own⟩, excerpts, unindexed⟩
  obtain ⟨rfl, -⟩ := updateItem_eq_ok (deleteMemoryContent_eq_ok h)
  obtain ⟨erased, he, rfl⟩ := mem_setState.mp hu
  obtain ⟨old, hr, rfl⟩ := mem_eraseContent.mp he
  show (if old.revisionId = revisionId then _ else old.state) ∈ _
  split
  next => simp
  next other => exact last old hr own other

theorem Erased.of_eraseSessionMemory (k : MemoryKeys t) (known : LatestStored t item)
    (h : eraseSessionMemory sessionId lastSequence erasedAt t item = .ok u) :
    Erased item.memoryId u := by
  have belongs : ∀ other, u.Belongs other item.memoryId ↔ t.Belongs other item.memoryId :=
    fun _ => belongs_eraseSessionMemory h
  have sound := soundFor_eraseSessionMemory k known h
  obtain ⟨latest, deleted, tombstones, found, erased, -, rfl⟩ := eraseSessionMemory_eq_ok h
  have stored := sound.stored ((belongs latest).mpr (known latest found))
  obtain ⟨retired, contents, excerpts, unindexed⟩ := deleteMemoryContent_erases erased
  refine ⟨stored, retired, fun rev hu own => ?_, fun row he own => excerpts row he ?_, unindexed⟩
  · obtain ⟨old, hr, rfl⟩ := mem_update.mp hu
    have id : (alter (·.memoryId = item.memoryId) (withState .deleted) old).memoryId =
      old.memoryId := alter_congr (fun _ => rfl) old
    have mine : old.memoryId = item.memoryId := id.symm.trans own
    rw [alter, if_pos (by simpa using mine)]
    exact ⟨by simp [withState], contents old hr mine⟩
  · exact (belongs_deleteMemoryContent erased).mpr ((belongs _).mp own)

/-- An erased memory stays so while other memories change. -/
theorem Erased.frame (e : Erased n t) (s : SoundFor m t u) (other : n ≠ m) : Erased n u where
  stored := by
    obtain ⟨item, hi, own⟩ := e.stored
    exact ⟨item, (s.agree.items item (own ▸ other)).mpr hi, own⟩
  retired item hu own := by
    have hi := (s.agree.items item (own ▸ other)).mp hu
    exact e.retired item hi own
  closed rev hu own := by
    have hr := (s.agree.revisions rev (own ▸ other)).mp hu
    exact e.closed rev hr own
  excerpts row hu own := by
    obtain ⟨rev, hr, id, memory⟩ := own
    have foreign : rev.memoryId ≠ m := memory ▸ other
    have ht := (s.agree.revisions rev foreign).mp hr
    have he := (s.agree.evidence rev ht foreign row id.symm).mp hu
    exact e.excerpts row he ⟨rev, ht, id, memory⟩
  unindexed row hf own := e.unindexed row ((s.agree.fts row (own ▸ other)).mp hf) own

theorem Erased.noneActive (e : Erased m t) (k : MemoryKeys t) : NoneActive m t where
  idle rev hr own active := by
    have closed := (e.closed rev hr own).1
    simp [active] at closed
  unindexed rev hr own row hf same := by
    have owner := (k.indexed row hf).memory_eq hr same.symm
    exact e.unindexed row hf (owner.symm.trans own)

theorem Erased.lifecycle (e : Erased m t) (k : MemoryKeys t) : LifecycleOf m t :=
  (e.noneActive k).lifecycle fun item hi own => (e.retired item hi own).2

end Memory

section Excerpts

/-- A row whose excerpt a session has taken along. -/
def MemoryEvidenceRow.excerptErased (row : MemoryEvidenceRow) (mark : SessionId × TimestampMillis) :
    MemoryEvidenceRow :=
  { row with excerptContentId := none, excerptHash := none, erasedBy := some mark }

/-- Excerpts are dropped and counters advance; revisions and their contents stay. -/
structure DropsExcerpts (t u : MemoryTables) : Prop where
  rest : u = { t with
    evidence := u.evidence
    blobs := u.blobs
    generation := u.generation
    mutationGeneration := u.mutationGeneration }
  evidence : ∀ row ∈ u.evidence, ∃ old ∈ t.evidence,
    row = old ∨ old.excerptContentId ≠ none ∧ ∃ mark, row = old.excerptErased mark
  kept : ∀ old ∈ t.evidence, ∃ row ∈ u.evidence, row = old ∨ ∃ mark, row = old.excerptErased mark
  blobs : ∀ blob ∈ u.blobs, blob ∈ t.blobs
  retained : ∀ row ∈ u.evidence, ∀ blob ∈ t.blobs, row.excerptContentId = some blob.contentId →
    blob ∈ u.blobs
  contents : ∀ blob ∈ t.blobs, ∀ id, blob.contentId = .content id → blob ∈ u.blobs
  references : ∀ blob ∈ u.blobs, ∀ row ∈ t.evidence, row.excerptContentId = some blob.contentId →
    ∃ new ∈ u.evidence, new.excerptContentId = some blob.contentId

theorem DropsExcerpts.refl (t : MemoryTables) : DropsExcerpts t t where
  rest := rfl
  evidence row he := ⟨row, he, .inl rfl⟩
  kept old he := ⟨old, he, .inl rfl⟩
  blobs _ hb := hb
  retained _ _ _ hb _ := hb
  contents _ hb _ _ := hb
  references _ _ row he key := ⟨row, he, key⟩

theorem DropsExcerpts.trans (a : DropsExcerpts t u) (b : DropsExcerpts u v) : DropsExcerpts t v where
  rest := by rw [b.rest, a.rest]
  evidence row hv := by
    obtain ⟨mid, hu, last⟩ := b.evidence row hv
    obtain ⟨old, ht, first⟩ := a.evidence mid hu
    rcases last with rfl | ⟨stored, mark, rfl⟩
    · exact ⟨old, ht, first⟩
    · rcases first with rfl | ⟨-, _, rfl⟩
      · exact ⟨mid, ht, .inr ⟨stored, mark, rfl⟩⟩
      · exact absurd rfl stored
  kept old ht := by
    obtain ⟨mid, hu, first⟩ := a.kept old ht
    obtain ⟨row, hv, last⟩ := b.kept mid hu
    refine ⟨row, hv, ?_⟩
    rcases last with rfl | ⟨mark, rfl⟩
    · exact first
    · rcases first with rfl | ⟨_, rfl⟩
      · exact .inr ⟨mark, rfl⟩
      · exact .inr ⟨mark, rfl⟩
  blobs blob hv := a.blobs blob (b.blobs blob hv)
  retained row hv blob ht key := by
    obtain ⟨mid, hu, rfl | ⟨-, _, rfl⟩⟩ := b.evidence row hv
    · exact b.retained row hv blob (a.retained row hu blob ht key) key
    · cases key
  contents blob ht id key := b.contents blob (a.contents blob ht id key) id key
  references blob hv row ht key := by
    obtain ⟨mid, hu, key⟩ := a.references blob (b.blobs blob hv) row ht key
    exact b.references blob hv mid hu key

theorem DropsExcerpts.row (d : DropsExcerpts t u) {row : MemoryEvidenceRow} (hu : row ∈ u.evidence) :
    ∃ old ∈ t.evidence, row.evidenceId = old.evidenceId ∧ row.revisionId = old.revisionId ∧
      (row.excerptContentId = old.excerptContentId ∨ row.excerptContentId = none) := by
  obtain ⟨old, ht, rfl | ⟨-, _, rfl⟩⟩ := d.evidence row hu
  · exact ⟨row, ht, rfl, rfl, .inl rfl⟩
  · exact ⟨old, ht, rfl, rfl, .inr rfl⟩

theorem DropsExcerpts.keys (d : DropsExcerpts t u) (k : MemoryKeys t) : MemoryKeys u := by
  have excerpt : ∀ row ∈ u.evidence, ∀ id, row.excerptContentId = some id →
      id = .evidence row.evidenceId := by
    intro row hu id stored
    obtain ⟨old, ht, same, -, kept | kept⟩ := d.row hu
    · rw [same]
      exact k.excerpt old ht id (kept ▸ stored)
    · simp [kept] at stored
  have attached : ∀ row ∈ u.evidence, ∃ rev ∈ t.revisions, rev.revisionId = row.revisionId := by
    intro row hu
    obtain ⟨old, ht, -, owner, -⟩ := d.row hu
    rw [owner]
    exact k.attached old ht
  rw [d.rest]
  exact { k with excerpt, attached }

theorem DropsExcerpts.lifecycle (d : DropsExcerpts t u) (k : MemoryKeys t) (l : LifecycleOf m t) :
    LifecycleOf m u := by
  have contents := d.contents
  rw [d.rest]
  refine { l with eligible := fun rev hr own active => ?_ }
  refine (l.eligible rev hr own active).transfer rfl rfl rfl (fun blob hb stored => ?_) fun _ hv => hv
  exact contents blob hb _ (k.content rev hr _ stored)

theorem DropsExcerpts.erased (d : DropsExcerpts t u) (e : Erased m t) : Erased m u := by
  have excerpts : ∀ row ∈ u.evidence, t.Belongs row.revisionId m → row.excerptContentId = none := by
    intro row hu own
    obtain ⟨old, ht, -, owner, kept | kept⟩ := d.row hu
    · rw [kept]
      exact e.excerpts old ht (owner ▸ own)
    · exact kept
  rw [d.rest]
  exact { e with excerpts }

theorem eraseExcerpt_drops {row : MemoryEvidenceRow} (k : MemoryKeys t) (he : row ∈ t.evidence)
    (own : row.excerptContentId = some (.evidence row.evidenceId)) :
    DropsExcerpts t (eraseExcerpt sessionId erasedAt t row) where
  rest := rfl
  evidence new hu := by
    obtain ⟨old, ho, rfl⟩ := mem_update.mp hu
    refine ⟨old, ho, ?_⟩
    unfold alter
    split
    next same =>
      rw [eq_of_key ho he (by simpa using same)]
      exact .inr ⟨by simp [own], (sessionId, erasedAt), rfl⟩
    next => exact .inl rfl
  kept old ho := by
    refine ⟨_, alter_mem_update ho, ?_⟩
    unfold alter
    split
    · exact .inr ⟨(sessionId, erasedAt), rfl⟩
    · exact .inl rfl
  blobs blob hb := (mem_delete.mp hb).1
  retained new hu blob hb key := by
    refine mem_delete.mpr ⟨hb, ?_⟩
    obtain ⟨old, ho, rfl⟩ := mem_update.mp hu
    rw [decide_eq_false_iff_not, own, Option.some.injEq]
    intro same
    unfold alter at key
    split at key
    next => cases key
    next other =>
      have stored := k.excerpt old ho _ key
      rw [same] at stored
      exact other (by simpa using (ContentId.evidence.inj stored).symm)
  contents blob hb id key := by
    refine mem_delete.mpr ⟨hb, ?_⟩
    rw [decide_eq_false_iff_not, key]
    intro clash
    cases own.symm.trans clash.symm
  references blob hb old he key := by
    obtain ⟨-, kept⟩ := mem_delete.mp hb
    rw [decide_eq_false_iff_not, own, Option.some.injEq] at kept
    have other : old.evidenceId ≠ row.evidenceId := by
      intro same
      exact kept (same ▸ k.excerpt old he _ key)
    refine ⟨old, mem_update.mpr ⟨old, he, ?_⟩, key⟩
    rw [alter, if_neg (by simpa using other)]

theorem eraseExcerpts_drops {rows : List MemoryEvidenceRow} (k : MemoryKeys t)
    (distinct : (rows.map (·.evidenceId)).Nodup) (stored : ∀ row ∈ rows, row ∈ t.evidence)
    (own : ∀ row ∈ rows, row.excerptContentId = some (.evidence row.evidenceId)) :
    DropsExcerpts t (rows.foldl (eraseExcerpt sessionId erasedAt) t) := by
  induction rows generalizing t with
  | nil => exact .refl t
  | cons row rows ih =>
    have first : DropsExcerpts t (eraseExcerpt sessionId erasedAt t row) :=
      eraseExcerpt_drops k (stored row (by simp)) (own row (by simp))
    obtain ⟨apart, distinct⟩ := List.nodup_cons.mp distinct
    refine first.trans (ih (first.keys k) distinct (fun other ho => ?_)
      fun other ho => own other (by simp [ho]))
    have different : other.evidenceId ≠ row.evidenceId :=
      fun same => apart (List.mem_map.mpr ⟨other, ho, same⟩)
    refine mem_update.mpr ⟨other, stored other (by simp [ho]), ?_⟩
    rw [alter, if_neg (by simpa using different)]

theorem advanceGenerations_drops {changed : Bool} (h : t.advanceGenerations changed = .ok u) :
    DropsExcerpts t u := by
  unfold advanceGenerations at h
  dsimp only at h
  split at h
  next =>
    cases Except.ok.inj h
    exact { DropsExcerpts.refl t with rest := rfl }
  next => cases h

end Excerpts

/-- Session erasure: each memory of the session is erased, then excerpts are dropped elsewhere. -/
theorem eraseSessionMemoryAndEvidence_eq_ok
    (h : t.eraseSessionMemoryAndEvidence sessionId lastSequence erasedAt = .ok u) :
    ∃ erased, run (eraseSessionMemory sessionId lastSequence erasedAt) t
        (t.items.select (·.scope = .session sessionId)) = .ok erased ∧
      (MemoryKeys erased → DropsExcerpts erased u) := by
  unfold eraseSessionMemoryAndEvidence at h
  obtain ⟨erased, h₁, h⟩ := bind_eq_ok_iff.mp h
  refine ⟨erased, h₁, fun k => ?_⟩
  have selected : ∀ row ∈ erased.evidence.select fun row => row.excerptContentId ≠ none &&
      erased.isCrossScope sessionId row && evidenceBelongsToSession row.source sessionId,
      row.excerptContentId = some (.evidence row.evidenceId) := by
    intro row hr
    obtain ⟨he, chosen⟩ := mem_select.mp hr
    simp only [ne_eq, decide_not, Bool.and_eq_true, Bool.not_eq_true', decide_eq_false_iff_not] at chosen
    obtain ⟨id, stored⟩ := Option.ne_none_iff_exists'.mp chosen.1.1
    rw [stored, k.excerpt row he id stored]
  have drops : DropsExcerpts erased ((erased.evidence.select fun row => row.excerptContentId ≠ none &&
      erased.isCrossScope sessionId row && evidenceBelongsToSession row.source sessionId).foldl
        (eraseExcerpt sessionId erasedAt) erased) :=
    eraseExcerpts_drops k (distinct_select erased.evidence _) (fun row hr => (mem_select.mp hr).1)
      selected
  dsimp only at h
  split at h
  next =>
    cases Except.ok.inj h
    exact drops
  next => exact drops.trans (advanceGenerations_drops h)

section Run

variable {memories : List MemoryItemRow}

/-- A property that the erasure of each memory keeps is kept by the erasure of all of them. -/
theorem eraseSessionMemory_run {I : MemoryTables → Prop} (start : I t) (k : MemoryKeys t)
    (stored : ∀ item ∈ memories, LatestStored t item)
    (next : ∀ s item w, I s → MemoryKeys s → LatestStored s item →
      eraseSessionMemory sessionId lastSequence erasedAt s item = .ok w → I w)
    (h : run (eraseSessionMemory sessionId lastSequence erasedAt) t memories = .ok u) :
    MemoryKeys u ∧ I u := by
  induction memories generalizing t with
  | nil =>
    cases Except.ok.inj h
    exact ⟨k, start⟩
  | cons item memories ih =>
    obtain ⟨w, first, h⟩ := bind_eq_ok_iff.mp (run_cons t item memories ▸ h)
    have known := stored item (by simp)
    have sound := soundFor_eraseSessionMemory k known first
    refine ih (next t item w start k known first) sound.keys (fun other ho latest found => ?_) h
    exact (belongs_eraseSessionMemory first).mpr (stored other (by simp [ho]) latest found)

theorem latestStored_select (k : MemoryKeys t) {p : MemoryItemRow → Bool} :
    ∀ item ∈ t.items.select p, LatestStored t item :=
  fun item hi => k.latest item (mem_select.mp hi).1

theorem MemoryValid.erase (valid : MemoryValid t)
    (h : t.eraseSessionMemoryAndEvidence sessionId lastSequence erasedAt = .ok u) :
    MemoryValid u := by
  obtain ⟨erased, h₁, dropped⟩ := eraseSessionMemoryAndEvidence_eq_ok h
  have done : MemoryKeys erased ∧ MemoryValid erased := by
    refine eraseSessionMemory_run valid valid.keys (latestStored_select valid.keys) ?_ h₁
    intro s item w valid k known step
    have sound := soundFor_eraseSessionMemory k known step
    exact valid.of_soundFor sound ((Erased.of_eraseSessionMemory k known step).lifecycle sound.keys)
  have drops := dropped done.1
  exact ⟨drops.keys done.1, fun m => drops.lifecycle done.1 (done.2.lifecycle m)⟩

end Run

end AutoHarness
