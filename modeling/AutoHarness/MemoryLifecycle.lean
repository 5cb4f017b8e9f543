import AutoHarness.MemoryAppend

namespace AutoHarness

open FallibleRun KeyedTable MemoryTables

variable {t u v : MemoryTables} {m n : MemoryId} {revisionId : MemoryRevisionId}

/-- A revision that may be active: accepted, approved by the user and with its content. -/
structure Eligible (t : MemoryTables) (rev : MemoryRevisionRow) : Prop where
  content : ∃ blob ∈ t.blobs, rev.contentId = some blob.contentId
  origin : rev.metadata.origin = .explicitUser
  trust : rev.metadata.trustClass = .userApproved
  accepted : ∃ row ∈ t.validations, row.revisionId = rev.revisionId ∧
    row.validation.status = .accepted

/-- Eligibility depends on the content and the metadata of a revision only. -/
theorem Eligible.transfer {rev new : MemoryRevisionRow} (e : Eligible t rev)
    (id : new.revisionId = rev.revisionId) (metadata : new.metadata = rev.metadata)
    (content : new.contentId = rev.contentId)
    (contents : ∀ blob ∈ t.blobs, rev.contentId = some blob.contentId → blob ∈ u.blobs)
    (validations : ∀ row ∈ t.validations, row ∈ u.validations) : Eligible u new := by
  obtain ⟨⟨blob, hb, stored⟩, origin, trust, row, hv, accepted⟩ := e
  exact ⟨⟨blob, contents blob hb stored, content.trans stored⟩, metadata ▸ origin, metadata ▸ trust,
    row, validations row hv, id ▸ accepted⟩

/-- The item, the revisions and the index of one memory agree on what is active. -/
structure LifecycleOf (m : MemoryId) (t : MemoryTables) : Prop where
  single : ∀ item ∈ t.items, item.memoryId = m → ∀ rev ∈ t.revisions, rev.memoryId = m →
    (rev.state = .active ↔ item.activeRevisionId = some rev.revisionId)
  eligible : ∀ rev ∈ t.revisions, rev.memoryId = m → rev.state = .active → Eligible t rev
  indexed : ∀ rev ∈ t.revisions, rev.memoryId = m →
    ((∃ row ∈ t.fts, row.revisionId = rev.revisionId) ↔ rev.state = .active)

theorem LifecycleOf.frame (l : LifecycleOf n t) (k : MemoryKeys t) (s : SoundFor m t u)
    (other : n ≠ m) : LifecycleOf n u where
  single item hu own rev hr memory := by
    have hi := (s.agree.items item (own ▸ other)).mp hu
    have ht := (s.agree.revisions rev (memory ▸ other)).mp hr
    exact l.single item hi own rev ht memory
  eligible rev hr memory active := by
    have foreign : rev.memoryId ≠ m := memory ▸ other
    have ht := (s.agree.revisions rev foreign).mp hr
    refine (l.eligible rev ht memory active).transfer rfl rfl rfl (fun blob hb stored => ?_)
      s.agree.validations
    exact (s.agree.content rev ht foreign blob (k.content rev ht _ stored)).mpr hb
  indexed rev hr memory := by
    have foreign : rev.memoryId ≠ m := memory ▸ other
    have ht := (s.agree.revisions rev foreign).mp hr
    rw [← l.indexed rev ht memory]
    constructor
    · rintro ⟨row, hf, same⟩
      have own : rev.memoryId = row.memoryId := (s.keys.indexed row hf).memory_eq hr same.symm
      exact ⟨row, (s.agree.fts row (own ▸ foreign)).mp hf, same⟩
    · rintro ⟨row, hf, same⟩
      have own : rev.memoryId = row.memoryId := (k.indexed row hf).memory_eq ht same.symm
      exact ⟨row, (s.agree.fts row (own ▸ foreign)).mpr hf, same⟩

theorem Introduces.lifecycle {operation : MemoryOperationEnvelope} {revision : MemoryRevision}
    (i : Introduces operation revision t u) (k : MemoryKeys t) (proposed : revision.status = .proposed)
    (l : LifecycleOf m t) : LifecycleOf m u where
  single item hu own rev hr memory := by
    rw [i.items] at hu
    obtain ⟨old, hi, rfl⟩ := mem_update.mp hu
    have same : (alter (·.memoryId = operation.memoryId) revision.note old).activeRevisionId =
      old.activeRevisionId := alter_congr (fun _ => rfl) old
    have id : (alter (·.memoryId = operation.memoryId) revision.note old).memoryId =
      old.memoryId := alter_congr (fun _ => rfl) old
    rw [same]
    rcases (i.revisions rev).mp hr with hr | rfl
    · exact l.single old hi (id ▸ own) rev hr memory
    · refine iff_of_false (by simp [MemoryOperationEnvelope.introducedRow, proposed]) fun active => ?_
      obtain ⟨stored, hs, clash, -⟩ := k.current old hi _ active
      exact i.fresh stored hs clash
  eligible rev hr memory active := by
    rcases (i.revisions rev).mp hr with hr | rfl
    · exact (l.eligible rev hr memory active).transfer rfl rfl rfl
        (fun blob hb _ => i.keptBlobs blob hb) fun row hv => i.validations ▸ hv
    · simp [MemoryOperationEnvelope.introducedRow, proposed] at active
  indexed rev hr memory := by
    rw [i.fts]
    rcases (i.revisions rev).mp hr with hr | rfl
    · exact l.indexed rev hr memory
    · refine iff_of_false ?_ (by simp [MemoryOperationEnvelope.introducedRow, proposed])
      rintro ⟨row, hf, same⟩
      obtain ⟨stored, hs, clash, -⟩ := k.indexed row hf
      exact i.fresh stored hs (clash.trans same)

theorem LifecycleOf.insertValidation {codec : MemoryCodec} {row : MemoryValidationRow}
    (l : LifecycleOf m t) (h : t.insertValidation codec row = .ok u) : LifecycleOf m u := by
  obtain ⟨validations, inserted, rfl⟩ := insertValidation_eq_ok h
  have rows := (insert?_eq_some inserted).1
  refine { l with eligible := fun rev hr memory active => ?_ }
  exact (l.eligible rev hr memory active).transfer rfl rfl rfl (fun _ hb _ => hb)
    fun other hv => (rows other).mpr (.inl hv)

theorem LifecycleOf.ofItems {items : KeyedTable MemoryItemRow.memoryId} (l : LifecycleOf m t)
    (same : ∀ item ∈ items, ∃ old ∈ t.items, item.memoryId = old.memoryId ∧
      item.activeRevisionId = old.activeRevisionId) : LifecycleOf m { t with items } where
  single item hu own rev hr memory := by
    obtain ⟨old, hi, id, active⟩ := same item hu
    rw [active]
    exact l.single old hi (id.symm.trans own) rev hr memory
  eligible rev hr memory active :=
    (l.eligible rev hr memory active).transfer rfl rfl rfl (fun _ hb _ => hb) fun _ hv => hv
  indexed := l.indexed

/-- A statement on the item keeps the lifecycle when it keeps the active revision. -/
theorem LifecycleOf.updateItem {f : RowMap MemoryItemRow.memoryId} (l : LifecycleOf m t)
    (h : t.updateItem n f = .ok u)
    (kept : ∀ item, (f.apply item).activeRevisionId = item.activeRevisionId) : LifecycleOf m u := by
  obtain ⟨rfl, -⟩ := updateItem_eq_ok h
  refine l.ofItems fun item hu => ?_
  obtain ⟨old, hi, rfl⟩ := mem_update.mp hu
  exact ⟨old, hi, alter_congr f.keeps old, alter_congr kept old⟩

theorem mem_setState {state : MemoryRevisionStatus} {rev : MemoryRevisionRow} :
    rev ∈ (t.setState revisionId state).revisions ↔ ∃ old ∈ t.revisions,
      { old with state := if old.revisionId = revisionId then state else old.state } = rev := by
  refine mem_update.trans (exists_congr fun old => and_congr_right fun _ => ?_)
  by_cases same : old.revisionId = revisionId
  · simp [alter, withState, same]
  · simp [alter, same]

theorem mem_eraseContent {rev : MemoryRevisionRow} :
    rev ∈ (t.eraseContent m).revisions ↔ ∃ old ∈ t.revisions,
      { old with contentId := if old.memoryId = m then none else old.contentId } = rev := by
  refine mem_update.trans (exists_congr fun old => and_congr_right fun _ => ?_)
  by_cases same : old.memoryId = m
  · simp [alter, withoutContent, same]
  · simp [alter, same]

/-- A revision that is not active may change between states that are not active. -/
theorem LifecycleOf.setState {state : MemoryRevisionStatus} (l : LifecycleOf m t)
    (idle : ∀ rev ∈ t.revisions, rev.revisionId = revisionId → rev.state ≠ .active)
    (target : state ≠ .active) : LifecycleOf m (t.setState revisionId state) := by
  have active : ∀ old ∈ t.revisions,
      ((if old.revisionId = revisionId then state else old.state) = .active ↔
        old.state = .active) := by
    intro old hr
    split
    next same => exact iff_of_false target (idle old hr same)
    next => exact Iff.rfl
  constructor
  · intro item hi own rev hu memory
    obtain ⟨old, hr, rfl⟩ := mem_setState.mp hu
    exact (active old hr).trans (l.single item hi own old hr memory)
  · intro rev hu memory isActive
    obtain ⟨old, hr, rfl⟩ := mem_setState.mp hu
    exact (l.eligible old hr memory ((active old hr).mp isActive)).transfer rfl rfl rfl
      (fun _ hb _ => hb) fun _ hv => hv
  · intro rev hu memory
    obtain ⟨old, hr, rfl⟩ := mem_setState.mp hu
    exact (l.indexed old hr memory).trans (active old hr).symm

/-- No revision of a memory is active or indexed. -/
structure NoneActive (m : MemoryId) (t : MemoryTables) : Prop where
  idle : ∀ rev ∈ t.revisions, rev.memoryId = m → rev.state ≠ .active
  unindexed : ∀ rev ∈ t.revisions, rev.memoryId = m → ∀ row ∈ t.fts, row.revisionId ≠ rev.revisionId

theorem NoneActive.lifecycle (a : NoneActive m t)
    (cleared : ∀ item ∈ t.items, item.memoryId = m → item.activeRevisionId = none) :
    LifecycleOf m t where
  single item hi own rev hr memory :=
    iff_of_false (a.idle rev hr memory) (by simp [cleared item hi own])
  eligible rev hr memory active := absurd active (a.idle rev hr memory)
  indexed rev hr memory := by
    refine iff_of_false ?_ (a.idle rev hr memory)
    rintro ⟨row, hf, same⟩
    exact a.unindexed rev hr memory row hf same

theorem NoneActive.retire {lifecycle : MemoryRevisionStatus} (a : NoneActive m t)
    (h : t.updateItem m (retired lifecycle) = .ok u) : LifecycleOf m u := by
  obtain ⟨rfl, -⟩ := updateItem_eq_ok h
  refine NoneActive.lifecycle ⟨a.idle, a.unindexed⟩ fun item hu own => ?_
  obtain ⟨old, hi, rfl⟩ := mem_update.mp hu
  have id : (alter (·.memoryId = m) (retired lifecycle) old).memoryId = old.memoryId :=
    alter_congr (fun _ => rfl) old
  rw [alter, if_pos (by simpa using id.symm.trans own)]
  rfl

theorem LifecycleOf.noneActive {item : MemoryItemRow} (l : LifecycleOf m t) (hi : item ∈ t.items)
    (own : item.memoryId = m) (idle : item.activeRevisionId = none) : NoneActive m t := by
  have inactive : ∀ rev ∈ t.revisions, rev.memoryId = m → rev.state ≠ .active := by
    intro rev hr memory active
    have current := (l.single item hi own rev hr memory).mp active
    simp [idle] at current
  refine ⟨inactive, fun rev hr memory row hf same => ?_⟩
  exact inactive rev hr memory ((l.indexed rev hr memory).mp ⟨row, hf, same⟩)

/-- Taking the active revision out of its state and of the index leaves nothing active. -/
theorem LifecycleOf.noneActive_setState {item : MemoryItemRow} {state : MemoryRevisionStatus}
    (l : LifecycleOf m t) (hi : item ∈ t.items) (own : item.memoryId = m)
    (current : item.activeRevisionId = some revisionId) (target : state ≠ .active) :
    NoneActive m ((t.setState revisionId state).removeRevisionFromFts revisionId) := by
  have active : ∀ rev ∈ t.revisions, rev.memoryId = m → rev.state = .active →
      rev.revisionId = revisionId := by
    intro rev hr memory isActive
    have same := (l.single item hi own rev hr memory).mp isActive
    exact (Option.some.inj (current.symm.trans same)).symm
  constructor
  · intro rev hu memory
    obtain ⟨old, hr, rfl⟩ := mem_setState.mp hu
    show (if old.revisionId = revisionId then state else old.state) ≠ .active
    split
    next => exact target
    next other => exact fun isActive => other (active old hr memory isActive)
  · intro rev hu memory row hf same
    obtain ⟨hf, kept⟩ := mem_delete.mp hf
    obtain ⟨old, hr, rfl⟩ := mem_setState.mp hu
    have isActive := (l.indexed old hr memory).mp ⟨row, hf, same⟩
    have id : row.revisionId = revisionId := same.trans (active old hr memory isActive)
    simp [id] at kept

theorem deactivate_noneActive {exempt : MemoryRevisionId} (l : LifecycleOf m t)
    (required : t.HasState exempt m [.proposed])
    (h : t.deactivateCurrentRevision m (some exempt) = .ok u) : NoneActive m u := by
  obtain ⟨item, hi, own, ⟨rfl, idle | clash⟩ | ⟨current, active, -, rfl⟩⟩ :=
    deactivateCurrentRevision_eq_ok h
  · exact l.noneActive hi own idle
  · obtain ⟨rev, hr, id, memory, proposed⟩ := required
    have active := (l.single item hi own rev hr memory).mpr (clash.trans (by rw [id]))
    simp [active] at proposed
  · exact l.noneActive_setState hi own active (by simp)

/-- What an activation needs of a revision beside its retained content. -/
def Granted (t : MemoryTables) (revisionId : MemoryRevisionId) : Prop :=
  (∀ rev ∈ t.revisions, rev.revisionId = revisionId →
    rev.metadata.origin = .explicitUser ∧ rev.metadata.trustClass = .userApproved) ∧
  ∃ row ∈ t.validations, row.revisionId = revisionId ∧ row.validation.status = .accepted

theorem deactivate_granted {exempt : Option MemoryRevisionId} (g : Granted t revisionId)
    (h : t.deactivateCurrentRevision m exempt = .ok u) : Granted u revisionId := by
  obtain ⟨item, hi, own, ⟨rfl, -⟩ | ⟨current, active, -, rfl⟩⟩ := deactivateCurrentRevision_eq_ok h
  · exact g
  · refine ⟨fun rev hu same => ?_, g.2⟩
    obtain ⟨old, hr, rfl⟩ := mem_setState.mp hu
    exact g.1 old hr same

theorem LifecycleOf.activate (l : LifecycleOf m t)
    (required : t.HasState revisionId m [.proposed]) (granted : Granted t revisionId)
    (h : t.activateRevision m revisionId true = .ok u) : LifecycleOf m u := by
  obtain ⟨cleared, indexed, h₁, h₂, h₃⟩ := activateRevision_eq_ok h
  have a := deactivate_noneActive l required h₁
  have g := deactivate_granted granted h₁
  obtain ⟨marked, hm, blob, hb, fts, id, stored, inserted, rfl⟩ := addRevisionToFts_eq_ok h₂
  have rows := (insert?_eq_some inserted).1
  obtain ⟨rfl, -⟩ := updateItem_eq_ok h₃
  have known := (belongs_deactivate h₁).mpr required.belongs
  have active : ∀ rev ∈ (cleared.setState revisionId .active).revisions, rev.memoryId = m →
      (rev.state = .active ↔ rev.revisionId = revisionId) := by
    intro rev hu memory
    obtain ⟨old, hr, rfl⟩ := mem_setState.mp hu
    show (if old.revisionId = revisionId then _ else old.state) = _ ↔ old.revisionId = revisionId
    split
    next same => exact iff_of_true rfl same
    next other => exact iff_of_false (a.idle old hr memory) other
  constructor
  · intro item hu own rev hr memory
    obtain ⟨old, hi, rfl⟩ := mem_update.mp hu
    have same : (alter (·.memoryId = m) (activated revisionId) old).memoryId = old.memoryId :=
      alter_congr (fun _ => rfl) old
    rw [active rev hr memory, alter, if_pos (by simpa using same.symm.trans own)]
    show rev.revisionId = revisionId ↔ some revisionId = some rev.revisionId
    rw [Option.some.injEq, eq_comm]
  · intro rev hr memory isActive
    have same := (active rev hr memory).mp isActive
    cases eq_of_key hr hm (same.trans id.symm)
    obtain ⟨old, ho, rfl⟩ := mem_setState.mp hm
    obtain ⟨origin, trust⟩ := g.1 old ho id
    obtain ⟨row, hv, about, accepted⟩ := g.2
    exact ⟨⟨blob, hb, stored⟩, origin, trust, row, hv, about.trans id.symm, accepted⟩
  · intro rev hr memory
    rw [active rev hr memory]
    constructor
    · rintro ⟨row, hf, same⟩
      rcases (rows row).mp hf with hf | rfl
      · obtain ⟨old, ho, rfl⟩ := mem_setState.mp hr
        exact absurd same (a.unindexed old ho memory row hf)
      · exact same.symm
    · intro same
      exact ⟨_, (rows _).mpr (.inr rfl), same.symm⟩

theorem LifecycleOf.supersede {successor : MemoryRevisionId} (l : LifecycleOf m t)
    (k : MemoryKeys t) (required : t.HasState revisionId m [.active, .superseded])
    (next : t.HasState successor m [.active]) (different : revisionId ≠ successor) :
    LifecycleOf m ((t.setState revisionId .superseded).removeRevisionFromFts revisionId) := by
  have idle : ∀ rev ∈ t.revisions, rev.revisionId = revisionId → rev.state ≠ .active := by
    intro rev hr same active
    obtain ⟨other, ho, id, memory, isActive⟩ := next
    have own := required.belongs.memory_eq hr same
    obtain ⟨item, hi, owner⟩ := k.owned rev hr
    have first := (l.single item hi (owner.trans own) rev hr own).mp active
    have second := (l.single item hi (owner.trans own) other ho memory).mp (by simpa using isActive)
    have equal := Option.some.inj (first.symm.trans second)
    exact different (same.symm.trans (equal.trans id))
  have marked : LifecycleOf m (t.setState revisionId .superseded) := l.setState idle (by simp)
  refine { marked with eligible := ?_, indexed := ?_ }
  · intro rev hr memory active
    exact (marked.eligible rev hr memory active).transfer rfl rfl rfl (fun _ hb _ => hb) fun _ hv => hv
  · intro rev hr memory
    rw [← marked.indexed rev hr memory]
    constructor
    · rintro ⟨row, hf, same⟩
      exact ⟨row, (mem_delete.mp hf).1, same⟩
    · rintro ⟨row, hf, same⟩
      refine ⟨row, mem_delete.mpr ⟨hf, ?_⟩, same⟩
      rw [decide_eq_false_iff_not]
      intro clash
      have active := (marked.indexed rev hr memory).mp ⟨row, hf, same⟩
      obtain ⟨old, ho, rfl⟩ := mem_setState.mp hr
      have id : old.revisionId = revisionId := same.symm.trans clash
      simp [id] at active

/-- The condition under which a deletion leaves no revision active. -/
def DeletesActive (t : MemoryTables) (m : MemoryId) (revisionId : MemoryRevisionId) : Prop :=
  ∀ item ∈ t.items, item.memoryId = m → ∀ id, item.activeRevisionId = some id → id = revisionId

theorem LifecycleOf.delete (l : LifecycleOf m t) (k : MemoryKeys t)
    (addressed : DeletesActive t m revisionId)
    (h : t.deleteMemoryContent m revisionId = .ok u) : LifecycleOf m u := by
  refine NoneActive.retire ⟨?_, ?_⟩ (deleteMemoryContent_eq_ok h)
  · intro rev hu memory
    obtain ⟨erased, he, rfl⟩ := mem_setState.mp hu
    obtain ⟨old, hr, rfl⟩ := mem_eraseContent.mp he
    show (if old.revisionId = revisionId then _ else old.state) ≠ _
    split
    next => simp
    next other =>
      intro active
      obtain ⟨item, hi, owner⟩ := k.owned old hr
      have current := (l.single item hi (owner.trans memory) old hr memory).mp active
      exact other (addressed item hi (owner.trans memory) _ current)
  · intro rev hu memory row hf same
    obtain ⟨hf, kept⟩ := mem_delete.mp hf
    obtain ⟨stored, hs, id, own⟩ := k.indexed row hf
    have belongs : ((t.eraseContent m).setState revisionId .deleted).Belongs row.revisionId
        row.memoryId := belongs_setState.mpr (belongs_eraseContent.mpr ⟨stored, hs, id, own⟩)
    have owner := belongs.memory_eq hu same.symm
    simp [← owner, memory] at kept

/-- The invariant of the memory tables. -/
structure MemoryValid (t : MemoryTables) : Prop where
  keys : MemoryKeys t
  lifecycle : ∀ m, LifecycleOf m t

theorem MemoryValid.of_soundFor (valid : MemoryValid t) (s : SoundFor m t u)
    (own : LifecycleOf m u) : MemoryValid u where
  keys := s.keys
  lifecycle n := by
    by_cases same : n = m
    · exact same ▸ own
    · exact (valid.lifecycle n).frame valid.keys s same

/-- What an operation must find so that the lifecycle stays consistent. -/
def OperationAllowed (t : MemoryTables) (m : MemoryId) : MemoryOperationPayload → Prop
  | .revisionActivated revisionId => Granted t revisionId
  | .revisionSuperseded revisionId successor => revisionId ≠ successor
  | .memoryDeleted revisionId => DeletesActive t m revisionId
  | _ => True

variable {codec : MemoryCodec} {entry : MemoryAppendOperation}

theorem OperationEffect.lifecycle (effect : OperationEffect codec entry t u) (valid : MemoryValid t)
    (proposal : entry.operation.payload.IntroducesProposal)
    (allowed : OperationAllowed t entry.operation.memoryId entry.operation.payload) :
    LifecycleOf entry.operation.memoryId u := by
  have k := valid.keys
  have l := valid.lifecycle entry.operation.memoryId
  cases effect with
  | introduced hp stored => exact stored.lifecycle k (proposal _ hp) l
  | @approved proposalId revision _ hp required introduced =>
    have proposed : revision.status = .proposed := proposal _ (by rw [hp]; rfl)
    refine (introduced.lifecycle k proposed l).setState ?_ (by simp)
    intro rev hu same
    obtain ⟨known, hk, id, -, state⟩ := required
    have stored := (introduced.revisions known).mpr (.inl hk)
    rw [eq_of_key hu stored (same.trans id.symm)]
    simp [List.mem_singleton.mp state]
  | validated _ stored => exact l.insertValidation stored
  | activated hp required stored =>
    rw [hp] at allowed
    exact l.activate required allowed stored
  | superseded hp required successor =>
    rw [hp] at allowed
    exact l.supersede k required successor allowed
  | rejected _ required stored =>
    refine (l.setState ?_ (by simp)).updateItem stored fun _ => rfl
    intro rev hr same
    obtain ⟨known, hk, id, -, state⟩ := required
    rw [eq_of_key hr hk (same.trans id.symm)]
    simp [List.mem_singleton.mp state]
  | retracted _ required stored =>
    obtain ⟨rev, hr, id, memory, state⟩ := required
    obtain ⟨item, hi, owner⟩ := k.owned rev hr
    have own := owner.trans memory
    have current := (l.single item hi own rev hr memory).mp (List.mem_singleton.mp state)
    exact (l.noneActive_setState hi own (id ▸ current) (by simp)).retire stored
  | deleted hp _ stored =>
    rw [hp] at allowed
    exact l.delete k allowed stored

theorem MemoryValid.append (valid : MemoryValid t)
    (proposal : entry.operation.payload.IntroducesProposal)
    (allowed : OperationAllowed t entry.operation.memoryId entry.operation.payload)
    (h : appendOperation codec t entry = .ok u) : MemoryValid u := by
  obtain ⟨operations, applied, -, effect, rfl⟩ := appendOperation_eq_ok h
  have recorded : MemoryValid { t with operations } := by
    refine ⟨{ valid.keys with }, fun m => ?_⟩
    refine { valid.lifecycle m with eligible := fun rev hr memory active => ?_ }
    exact ((valid.lifecycle m).eligible rev hr memory active).transfer rfl rfl rfl
      (fun _ hb _ => hb) fun _ hv => hv
  have written := applyOperation_effect proposal effect
  have permitted : OperationAllowed { t with operations } entry.operation.memoryId
      entry.operation.payload := by
    revert allowed
    cases entry.operation.payload <;> exact id
  have second := recorded.of_soundFor (written.soundFor recorded.keys)
    (written.lifecycle recorded proposal permitted)
  refine second.of_soundFor (soundFor_advanceItem second.keys) ?_
  refine (second.lifecycle _).ofItems fun item hu => ?_
  obtain ⟨old, hi, rfl⟩ := mem_update.mp hu
  exact ⟨old, hi, alter_congr (fun _ => rfl) old, alter_congr (fun _ => rfl) old⟩

theorem MemoryValid.opened {operation : MemoryOperationEnvelope} (valid : MemoryValid t)
    (h : t.openBatch operation = .ok u) : MemoryValid u := by
  refine valid.of_soundFor (soundFor_openBatch valid.keys h) ?_
  obtain ⟨rfl, -⟩ | ⟨row, items, inserted, rfl, memory, -⟩ := openBatch_eq_ok h
  · exact valid.lifecycle _
  · obtain ⟨rows, fresh⟩ := insert?_eq_some inserted
    have foreign : ∀ rev ∈ t.revisions, rev.memoryId ≠ operation.memoryId := by
      intro rev hr own
      obtain ⟨item, hi, owner⟩ := valid.keys.owned rev hr
      exact fresh item hi (owner.trans (own.trans memory.symm))
    exact {
      single := fun _ _ _ rev hr own => absurd own (foreign rev hr)
      eligible := fun rev hr own => absurd own (foreign rev hr)
      indexed := fun rev hr own => absurd own (foreign rev hr) }

end AutoHarness
