import AutoHarness.MemoryStore

namespace AutoHarness

open FallibleRun KeyedTable

variable {t u v : MemoryTables} {m : MemoryId} {revisionId : MemoryRevisionId}

namespace MemoryTables

/-- A stored revision of a memory. -/
def Belongs (t : MemoryTables) (revisionId : MemoryRevisionId) (m : MemoryId) : Prop :=
  ∃ rev ∈ t.revisions, rev.revisionId = revisionId ∧ rev.memoryId = m

/-- A stored revision of a memory in one of the given states. -/
def HasState (t : MemoryTables) (revisionId : MemoryRevisionId) (m : MemoryId)
    (states : List MemoryRevisionStatus) : Prop :=
  ∃ rev ∈ t.revisions, rev.revisionId = revisionId ∧ rev.memoryId = m ∧ rev.state ∈ states

theorem HasState.belongs {states : List MemoryRevisionStatus} (h : t.HasState revisionId m states) :
    t.Belongs revisionId m := by
  obtain ⟨rev, hr, same, memory, -⟩ := h
  exact ⟨rev, hr, same, memory⟩

theorem requireRevisionState_eq_ok {allowed : List MemoryRevisionStatus} {x : Unit}
    (h : t.requireRevisionState m revisionId allowed = .ok x) :
    t.HasState revisionId m allowed := by
  unfold requireRevisionState at h
  split at h
  next rev found =>
    obtain ⟨hm, same⟩ := find?_eq_some_iff.mp found
    split at h
    next accepted => exact ⟨rev, hm, same, accepted⟩
    next => cases h
  next => cases h

theorem setRevisionState_eq_ok {state : MemoryRevisionStatus}
    (h : t.setRevisionState revisionId state = .ok u) : u = t.setState revisionId state := by
  unfold setRevisionState at h
  split at h
  next =>
    split at h
    next => cases h
    next => exact (Except.ok.inj h).symm
  next => cases h

theorem updateItem_eq_ok {f : RowMap MemoryItemRow.memoryId} (h : t.updateItem m f = .ok u) :
    u = { t with items := t.items.update (·.memoryId = m) f } ∧
      ∀ item ∈ t.items, item.memoryId = m → (f.apply item).check = true := by
  unfold updateItem at h
  split at h
  next checked =>
    refine ⟨(Except.ok.inj h).symm, fun item hm same => checked item ?_⟩
    simp [hm, same]
  next => cases h

theorem addRevisionToFts_eq_ok (h : t.addRevisionToFts revisionId = .ok u) :
    ∃ rev ∈ t.revisions, ∃ blob ∈ t.blobs, ∃ fts, rev.revisionId = revisionId ∧
      rev.contentId = some blob.contentId ∧
      t.fts.insert? ⟨revisionId, rev.memoryId, blob.content⟩ = some fts ∧ u = { t with fts } := by
  unfold addRevisionToFts at h
  split at h
  next => cases h
  next rev found =>
    obtain ⟨hr, same⟩ := find?_eq_some_iff.mp found
    split at h
    next => cases h
    next blob stored =>
      obtain ⟨id, content, stored⟩ := Option.bind_eq_some_iff.mp stored
      obtain ⟨hb, rfl⟩ := find?_eq_some_iff.mp stored
      split at h
      next fts inserted => exact ⟨rev, hr, blob, hb, fts, same, content, inserted, (Except.ok.inj h).symm⟩
      next => cases h

theorem deactivateCurrentRevision_eq_ok {exempt : Option MemoryRevisionId}
    (h : t.deactivateCurrentRevision m exempt = .ok u) :
    ∃ item ∈ t.items, item.memoryId = m ∧
      ((u = t ∧ (item.activeRevisionId = none ∨ item.activeRevisionId = exempt)) ∨
        ∃ current, item.activeRevisionId = some current ∧ exempt ≠ some current ∧
          u = (t.setState current .superseded).removeRevisionFromFts current) := by
  unfold deactivateCurrentRevision at h
  split at h
  next => cases h
  next item found =>
    obtain ⟨hm, same⟩ := find?_eq_some_iff.mp found
    refine ⟨item, hm, same, ?_⟩
    split at h
    next none_ => exact .inl ⟨(Except.ok.inj h).symm, .inl none_⟩
    next current active =>
      split at h
      next exempted => exact .inl ⟨(Except.ok.inj h).symm, .inr (active.trans exempted.symm)⟩
      next kept => exact .inr ⟨current, active, kept, (Except.ok.inj h).symm⟩

end MemoryTables

open MemoryTables

/-- What identifiers of the tables refer to; no operation ever breaks it. -/
structure MemoryKeys (t : MemoryTables) : Prop where
  owned : ∀ rev ∈ t.revisions, ∃ item ∈ t.items, item.memoryId = rev.memoryId
  current : ∀ item ∈ t.items, ∀ id, item.activeRevisionId = some id → t.Belongs id item.memoryId
  latest : ∀ item ∈ t.items, ∀ id, item.latestRevisionId = some id → t.Belongs id item.memoryId
  named : ∀ rev ∈ t.revisions, rev.metadata.revisionId = rev.revisionId
  content : ∀ rev ∈ t.revisions, ∀ id, rev.contentId = some id → id = .content rev.revisionId
  excerpt : ∀ row ∈ t.evidence, ∀ id, row.excerptContentId = some id →
    id = .evidence row.evidenceId
  attached : ∀ row ∈ t.evidence, ∃ rev ∈ t.revisions, rev.revisionId = row.revisionId
  indexed : ∀ row ∈ t.fts, t.Belongs row.revisionId row.memoryId
  numbered : ∀ item ∈ t.items, ∀ n,
    (∃ rev ∈ t.revisions, rev.memoryId = item.memoryId ∧ rev.metadata.revision.get = n) ↔
      1 ≤ n ∧ n ≤ item.latestRevision
  distinct : ∀ rev ∈ t.revisions, ∀ other ∈ t.revisions, rev.memoryId = other.memoryId →
    rev.metadata.revision.get = other.metadata.revision.get → rev.revisionId = other.revisionId
  checked : ∀ item ∈ t.items, item.check = true

/-- Two states of the tables agree on every memory but one. -/
structure AgreeOutside (m : MemoryId) (t u : MemoryTables) : Prop where
  items : ∀ item, item.memoryId ≠ m → (item ∈ u.items ↔ item ∈ t.items)
  revisions : ∀ rev, rev.memoryId ≠ m → (rev ∈ u.revisions ↔ rev ∈ t.revisions)
  fts : ∀ row, row.memoryId ≠ m → (row ∈ u.fts ↔ row ∈ t.fts)
  evidence : ∀ rev ∈ t.revisions, rev.memoryId ≠ m → ∀ row, row.revisionId = rev.revisionId →
    (row ∈ u.evidence ↔ row ∈ t.evidence)
  content : ∀ rev ∈ t.revisions, rev.memoryId ≠ m → ∀ blob,
    blob.contentId = .content rev.revisionId → (blob ∈ u.blobs ↔ blob ∈ t.blobs)
  excerpts : ∀ rev ∈ t.revisions, rev.memoryId ≠ m → ∀ row ∈ t.evidence,
    row.revisionId = rev.revisionId → ∀ blob, blob.contentId = .evidence row.evidenceId →
      (blob ∈ u.blobs ↔ blob ∈ t.blobs)
  validations : ∀ row ∈ t.validations, row ∈ u.validations

theorem AgreeOutside.refl (m : MemoryId) (t : MemoryTables) : AgreeOutside m t t where
  items _ _ := Iff.rfl
  revisions _ _ := Iff.rfl
  fts _ _ := Iff.rfl
  evidence _ _ _ _ _ := Iff.rfl
  content _ _ _ _ _ := Iff.rfl
  excerpts _ _ _ _ _ _ _ _ := Iff.rfl
  validations _ h := h

theorem AgreeOutside.trans (a : AgreeOutside m t u) (b : AgreeOutside m u v) :
    AgreeOutside m t v where
  items item other := (b.items item other).trans (a.items item other)
  revisions rev other := (b.revisions rev other).trans (a.revisions rev other)
  fts row other := (b.fts row other).trans (a.fts row other)
  evidence rev hr other row same :=
    (b.evidence rev ((a.revisions rev other).mpr hr) other row same).trans
      (a.evidence rev hr other row same)
  content rev hr other blob same :=
    (b.content rev ((a.revisions rev other).mpr hr) other blob same).trans
      (a.content rev hr other blob same)
  excerpts rev hr other row he same blob key := by
    have hu := (a.revisions rev other).mpr hr
    have eu := (a.evidence rev hr other row same).mpr he
    exact (b.excerpts rev hu other row eu same blob key).trans
      (a.excerpts rev hr other row he same blob key)
  validations row h := b.validations row (a.validations row h)

section Rows

variable {p : MemoryRevisionRow → Bool} {f : RowMap MemoryRevisionRow.revisionId}

/-- The columns of a revision that the references of the tables depend on. -/
def MemoryRevisionRow.identity (row : MemoryRevisionRow) :
    MemoryRevisionId × MemoryId × MemoryRevision :=
  (row.revisionId, row.memoryId, row.metadata)

theorem belongs_update (same : ∀ row, (f.apply row).identity = row.identity) :
    ({ t with revisions := t.revisions.update p f } : MemoryTables).Belongs revisionId m ↔
      t.Belongs revisionId m := by
  exact exists_mem_update (P := fun id => id.1 = revisionId ∧ id.2.1 = m) same

/-- An update of revisions keeps the references when it keeps identities and at most erases
contents. -/
theorem MemoryKeys.updateRevisions (k : MemoryKeys t) (same : ∀ row, (f.apply row).identity = row.identity)
    (content : ∀ row, (f.apply row).contentId = row.contentId ∨ (f.apply row).contentId = none) :
    MemoryKeys { t with revisions := t.revisions.update p f } where
  owned := (forall_mem_update (P := fun id => ∃ item ∈ t.items, item.memoryId = id.2.1) same).mpr
    k.owned
  current item hi id active := (belongs_update same).mpr (k.current item hi id active)
  latest item hi id last := (belongs_update same).mpr (k.latest item hi id last)
  named := (forall_mem_update (P := fun id => id.2.2.revisionId = id.1) same).mpr k.named
  content := by
    intro rev hu id stored
    obtain ⟨r, hr, rfl⟩ := mem_update.mp hu
    have key : (alter p f r).revisionId = r.revisionId := alter_congr f.keeps r
    have kept : (alter p f r).contentId = r.contentId ∨ (alter p f r).contentId = none := by
      unfold alter
      split
      · exact content r
      · exact .inl rfl
    rcases kept with kept | kept
    · rw [key]
      exact k.content r hr id (kept ▸ stored)
    · simp [kept] at stored
  excerpt := k.excerpt
  attached row he :=
    (exists_mem_update (P := fun id => id.1 = row.revisionId) same).mpr (k.attached row he)
  indexed row hf := (belongs_update same).mpr (k.indexed row hf)
  numbered item hi n :=
    (exists_mem_update (P := fun id => id.2.1 = item.memoryId ∧ id.2.2.revision.get = n) same).trans
      (k.numbered item hi n)
  distinct := by
    refine (forall_mem_update (P := fun id => ∀ other ∈ t.revisions.update p f,
      id.2.1 = other.memoryId → id.2.2.revision.get = other.metadata.revision.get →
        id.1 = other.revisionId) same).mpr fun rev hr => ?_
    exact (forall_mem_update (P := fun id => rev.memoryId = id.2.1 →
      rev.metadata.revision.get = id.2.2.revision.get → rev.revisionId = id.1) same).mpr
        (k.distinct rev hr)
  checked := k.checked

end Rows

/-- A change of the rows of one memory that leaves all references intact. -/
structure SoundFor (m : MemoryId) (t u : MemoryTables) : Prop where
  agree : AgreeOutside m t u
  keys : MemoryKeys u

theorem SoundFor.trans (a : SoundFor m t u) (b : SoundFor m u v) : SoundFor m t v :=
  ⟨a.agree.trans b.agree, b.keys⟩

section Statements

variable {state : MemoryRevisionStatus}

theorem MemoryTables.Belongs.memory_eq (b : t.Belongs revisionId m) {rev : MemoryRevisionRow}
    (hr : rev ∈ t.revisions) (same : rev.revisionId = revisionId) : rev.memoryId = m := by
  obtain ⟨own, ho, id, rfl⟩ := b
  rw [eq_of_key hr ho (same.trans id.symm)]

theorem belongs_setState {other : MemoryRevisionId} {n : MemoryId} :
    (t.setState revisionId state).Belongs other n ↔ t.Belongs other n :=
  belongs_update fun _ => rfl

theorem soundFor_setState (k : MemoryKeys t) (b : t.Belongs revisionId m) :
    SoundFor m t (t.setState revisionId state) where
  agree := { AgreeOutside.refl m t with
    revisions := fun rev other => mem_update_of_ne (φ := MemoryRevisionRow.memoryId)
      (fun row hr same => b.memory_eq hr (by simpa using same)) (fun _ => rfl) other }
  keys := k.updateRevisions (fun _ => rfl) fun _ => .inl rfl

theorem soundFor_removeRevisionFromFts (k : MemoryKeys t) (b : t.Belongs revisionId m) :
    SoundFor m t (t.removeRevisionFromFts revisionId) where
  agree := { AgreeOutside.refl m t with
    fts := fun row other => mem_delete_of_ne (φ := MemoryFtsRow.memoryId) (fun row hf same => by
      obtain ⟨rev, hr, id, memory⟩ := k.indexed row hf
      rw [← memory]
      exact b.memory_eq hr (id.trans (by simpa using same))) other }
  keys := { k with indexed := fun row hf => k.indexed row (mem_delete.mp hf).1 }

theorem soundFor_addRevisionToFts (k : MemoryKeys t) (b : t.Belongs revisionId m)
    (h : t.addRevisionToFts revisionId = .ok u) : SoundFor m t u := by
  obtain ⟨rev, hr, blob, hb, fts, same, -, inserted, rfl⟩ := addRevisionToFts_eq_ok h
  have rows := (insert?_eq_some inserted).1
  refine ⟨{ AgreeOutside.refl m t with fts := ?_ }, { k with indexed := ?_ }⟩
  · intro row other
    rw [rows row]
    refine or_iff_left ?_
    rintro rfl
    exact other (b.memory_eq hr same)
  · intro row hf
    rcases (rows row).mp hf with hf | rfl
    · exact k.indexed row hf
    · exact ⟨rev, hr, same, rfl⟩

theorem soundFor_updateItem {f : RowMap MemoryItemRow.memoryId} (k : MemoryKeys t)
    (h : t.updateItem m f = .ok u)
    (latest : ∀ row, ((f.apply row).latestRevision, (f.apply row).latestRevisionId) =
      (row.latestRevision, row.latestRevisionId))
    (active : ∀ item ∈ t.items, item.memoryId = m → ∀ id,
      (f.apply item).activeRevisionId = some id → t.Belongs id m) : SoundFor m t u := by
  obtain ⟨rfl, checked⟩ := updateItem_eq_ok h
  have memory := fun item => alter_congr (p := (·.memoryId = m)) f.keeps item
  have number : ∀ row, (f.apply row).latestRevision = row.latestRevision :=
    fun row => (Prod.mk.inj (latest row)).1
  have last : ∀ row, (f.apply row).latestRevisionId = row.latestRevisionId :=
    fun row => (Prod.mk.inj (latest row)).2
  refine ⟨{ AgreeOutside.refl m t with items := ?_ }, { k with
    owned := ?_, current := ?_, latest := ?_, numbered := ?_, checked := ?_ }⟩
  · intro item other
    exact mem_update_of_ne (φ := MemoryItemRow.memoryId) (fun row _ same => by simpa using same)
      f.keeps other
  · intro rev hr
    obtain ⟨item, hi, same⟩ := k.owned rev hr
    exact ⟨_, alter_mem_update hi, (memory item).trans same⟩
  · intro item hu id found
    obtain ⟨old, hi, rfl⟩ := mem_update.mp hu
    rw [memory]
    by_cases same : old.memoryId = m
    · rw [alter, if_pos (by simpa using same)] at found
      exact same ▸ active old hi same id found
    · rw [alter, if_neg (by simpa using same)] at found
      exact k.current old hi id found
  · intro item hu id found
    obtain ⟨old, hi, rfl⟩ := mem_update.mp hu
    rw [alter_congr last] at found
    rw [memory]
    exact k.latest old hi id found
  · intro item hu n
    obtain ⟨old, hi, rfl⟩ := mem_update.mp hu
    rw [memory, alter_congr number]
    exact k.numbered old hi n
  · intro item hu
    obtain ⟨old, hi, rfl⟩ := mem_update.mp hu
    unfold alter
    split
    next same => exact checked old hi (by simpa using same)
    next => exact k.checked old hi

theorem soundFor_deactivate {exempt : Option MemoryRevisionId} (k : MemoryKeys t)
    (h : t.deactivateCurrentRevision m exempt = .ok u) : SoundFor m t u := by
  obtain ⟨item, hi, same, ⟨rfl, -⟩ | ⟨current, active, -, rfl⟩⟩ := deactivateCurrentRevision_eq_ok h
  · exact ⟨.refl m u, k⟩
  · have b : t.Belongs current m := same ▸ k.current item hi current active
    have first : SoundFor m t (t.setState current .superseded) := soundFor_setState k b
    exact first.trans (soundFor_removeRevisionFromFts first.keys (belongs_setState.mpr b))

theorem belongs_deactivate {exempt : Option MemoryRevisionId} {other : MemoryRevisionId}
    {n : MemoryId} (h : t.deactivateCurrentRevision m exempt = .ok u) :
    u.Belongs other n ↔ t.Belongs other n := by
  obtain ⟨item, hi, same, ⟨rfl, -⟩ | ⟨current, active, -, rfl⟩⟩ := deactivateCurrentRevision_eq_ok h
  · exact Iff.rfl
  · exact belongs_setState

theorem activateRevision_eq_ok (h : t.activateRevision m revisionId true = .ok u) :
    ∃ cleared indexed, t.deactivateCurrentRevision m (some revisionId) = .ok cleared ∧
      (cleared.setState revisionId .active).addRevisionToFts revisionId = .ok indexed ∧
      indexed.updateItem m (activated revisionId) = .ok u := by
  unfold activateRevision at h
  obtain ⟨cleared, h₁, h⟩ := bind_eq_ok_iff.mp h
  obtain ⟨marked, h₂, h⟩ := bind_eq_ok_iff.mp h
  rw [setRevisionState_eq_ok h₂] at h
  obtain ⟨indexed, h₃, updated⟩ := bind_eq_ok_iff.mp h
  exact ⟨cleared, indexed, h₁, h₃, updated⟩

theorem soundFor_activate (k : MemoryKeys t) (b : t.Belongs revisionId m)
    (h : t.activateRevision m revisionId true = .ok u) : SoundFor m t u := by
  obtain ⟨cleared, indexed, h₁, h₂, h₃⟩ := activateRevision_eq_ok h
  have first := soundFor_deactivate k h₁
  have b₁ := (belongs_deactivate h₁).mpr b
  have second : SoundFor m cleared (cleared.setState revisionId .active) :=
    soundFor_setState first.keys b₁
  have b₂ : (cleared.setState revisionId .active).Belongs revisionId m := belongs_setState.mpr b₁
  have third := soundFor_addRevisionToFts second.keys b₂ h₂
  refine ((first.trans second).trans third).trans
    (soundFor_updateItem third.keys h₃ (fun _ => rfl) fun item hi same id found => ?_)
  obtain ⟨-, -, -, -, fts, -, -, -, rfl⟩ := addRevisionToFts_eq_ok h₂
  cases found
  exact b₂

end Statements

section Introduction

/-- Evidence rows of one new revision, with the excerpts they keep. -/
structure EvidenceAdded (revisionId : MemoryRevisionId) (t u : MemoryTables) : Prop where
  rest : u = { t with blobs := u.blobs, evidence := u.evidence }
  kept : ∀ row ∈ t.evidence, row ∈ u.evidence
  added : ∀ row ∈ u.evidence, row ∈ t.evidence ∨ row.revisionId = revisionId ∧
    ∀ id, row.excerptContentId = some id → id = .evidence row.evidenceId
  keptBlobs : ∀ blob ∈ t.blobs, blob ∈ u.blobs
  addedBlobs : ∀ blob ∈ u.blobs, blob ∈ t.blobs ∨
    ∃ row ∈ u.evidence, row.revisionId = revisionId ∧ blob.contentId = .evidence row.evidenceId ∧
      row.excerptContentId = some blob.contentId

theorem EvidenceAdded.refl (t : MemoryTables) : EvidenceAdded revisionId t t where
  rest := rfl
  kept _ h := h
  added _ h := .inl h
  keptBlobs _ h := h
  addedBlobs _ h := .inl h

theorem EvidenceAdded.trans (a : EvidenceAdded revisionId t u) (b : EvidenceAdded revisionId u v) :
    EvidenceAdded revisionId t v where
  rest := by rw [b.rest, a.rest]
  kept row h := b.kept row (a.kept row h)
  added row h := (b.added row h).elim (a.added row) .inr
  keptBlobs blob h := b.keptBlobs blob (a.keptBlobs blob h)
  addedBlobs blob h := by
    rcases b.addedBlobs blob h with h | h
    · rcases a.addedBlobs blob h with h | ⟨row, hr, same⟩
      · exact .inl h
      · exact .inr ⟨row, b.kept row hr, same⟩
    · exact .inr h

theorem insertBlob_eq_ok {blob : MemoryContentBlob} {kind : IdentityKind}
    (h : t.insertBlob blob kind = .ok u) :
    ∃ blobs, t.blobs.insert? blob = some blobs ∧ u = { t with blobs } := by
  unfold insertBlob at h
  split at h
  next => cases h
  next =>
    split at h
    next blobs inserted => exact ⟨blobs, inserted, (Except.ok.inj h).symm⟩
    next => cases h

theorem insertExcerpt_eq_ok {sidecars : List MemoryEvidenceContent}
    {evidence : MemoryEvidenceMetadata} {stored : MemoryTables × Option ContentId}
    (h : t.insertExcerpt sidecars evidence = .ok stored) :
    stored = (t, none) ∨ ∃ excerpt blobs,
      t.blobs.insert? ⟨.evidence evidence.evidenceId, excerpt⟩ = some blobs ∧
        stored = ({ t with blobs }, some (.evidence evidence.evidenceId)) := by
  unfold insertExcerpt at h
  split at h
  next => exact .inl (Except.ok.inj h).symm
  next sidecar _ =>
    split at h
    next => cases h
    next =>
      obtain ⟨_, inserted, h⟩ := bind_eq_ok_iff.mp h
      obtain ⟨blobs, stored, rfl⟩ := insertBlob_eq_ok inserted
      exact .inr ⟨_, blobs, stored, (Except.ok.inj h).symm⟩

theorem insertEvidence_added {sidecars : List MemoryEvidenceContent}
    {entry : MemoryEvidenceMetadata × Nat}
    (h : insertEvidence revisionId sidecars t entry = .ok u) : EvidenceAdded revisionId t u := by
  unfold insertEvidence at h
  obtain ⟨stored, excerpted, h⟩ := bind_eq_ok_iff.mp h
  split at h
  next evidence inserted =>
    cases Except.ok.inj h
    have rows := (insert?_eq_some inserted).1
    rcases insertExcerpt_eq_ok excerpted with rfl | ⟨excerpt, blobs, stored, rfl⟩
    · exact {
        rest := rfl
        kept := fun row hr => (rows row).mpr (.inl hr)
        added := fun row hr => ((rows row).mp hr).imp_right fun same => by
          subst same
          exact ⟨rfl, by simp⟩
        keptBlobs := fun _ hb => hb
        addedBlobs := fun _ hb => .inl hb }
    · have contents := (insert?_eq_some stored).1
      exact {
        rest := rfl
        kept := fun row hr => (rows row).mpr (.inl hr)
        added := fun row hr => ((rows row).mp hr).imp_right fun same => by
          subst same
          exact ⟨rfl, by simp⟩
        keptBlobs := fun blob hb => (contents blob).mpr (.inl hb)
        addedBlobs := fun blob hb => ((contents blob).mp hb).imp_right fun same => by
          subst same
          exact ⟨_, (rows _).mpr (.inr rfl), rfl, rfl, rfl⟩ }
  next => cases h

theorem insertEvidence_foldlM {sidecars : List MemoryEvidenceContent}
    {entries : List (MemoryEvidenceMetadata × Nat)}
    (h : entries.foldlM (insertEvidence revisionId sidecars) t = .ok u) :
    EvidenceAdded revisionId t u := by
  have ran : run (insertEvidence revisionId sidecars) t entries = .ok u := h
  exact run_invariant (P := EvidenceAdded revisionId t) (.refl t)
    (fun _ _ _ added one => added.trans (insertEvidence_added one)) ran

end Introduction

end AutoHarness
