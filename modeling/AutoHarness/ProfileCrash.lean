import AutoHarness.ProfileSafety

open EffectProgram (Safe Visits Returns)

namespace AutoHarness

section Vault

variable {v w : FakeVault} {reference : CredentialReference} {secret : String}
  {reply : Except VaultError VaultReply}

theorem save_effect (v : FakeVault) (reference : CredentialReference) (secret : String) :
     ((v.save reference.value secret).2 = v ∧
      ∀ answer, (v.save reference.value secret).1 ≠ .ok answer) ∨
    (v.save reference.value secret).2 = Function.update v reference.value (some secret) := by
  unfold FakeVault.save
  split
  next => exact .inl ⟨rfl, fun answer ok => by cases ok⟩
  next =>
    rw [reference.new_value]
    exact .inr rfl

theorem saveAnswer (h : VaultAnswer (.save reference.value secret) v reply w) :
    (w = v ∨ w = Function.update v reference.value (some secret)) ∧
      ((∃ answer, reply = .ok answer) → w = Function.update v reference.value (some secret)) := by
  have effect := save_effect v reference secret
  rcases h with same | ⟨e, rfl, took, -⟩
  · have hw : w = (v.save reference.value secret).2 := congrArg Prod.snd same
    have hr : reply = (v.save reference.value secret).1 := congrArg Prod.fst same
    rcases effect with ⟨kept, refused⟩ | stored
    · refine ⟨.inl (hw.trans kept), fun ⟨answer, ok⟩ => ?_⟩
      rw [hr] at ok
      exact absurd ok (refused answer)
    · exact ⟨.inr (hw.trans stored), fun _ => hw.trans stored⟩
  · refine ⟨?_, fun ⟨answer, ok⟩ => by cases ok⟩
    rcases took with kept | effected
    · exact .inl kept
    · rcases effect with ⟨unchanged, -⟩ | stored
      · exact .inl (effected.trans unchanged)
      · exact .inr (effected.trans stored)

theorem replace_effect : (v.replace reference secret).2 = v ∨
    (v.replace reference secret).2 = Function.update v reference.value (some secret) := by
  unfold FakeVault.replace
  split
  next => exact .inl rfl
  next =>
    split
    next => exact .inl rfl
    next => exact .inr rfl

theorem replaceAnswer (h : VaultAnswer (.replace reference secret) v reply w) :
    w = v ∨ w = Function.update v reference.value (some secret) := by
  rcases h with same | ⟨e, rfl, kept | effected, -⟩
  · have hw : w = (v.replace reference secret).2 := congrArg Prod.snd same
    rw [hw]
    exact replace_effect
  · exact .inl kept
  · rw [effected]
    exact replace_effect

theorem deleteAnswer (h : VaultAnswer (.delete reference) v reply w) :
    (w = v ∨ w = Function.update v reference.value none) ∧
      ((∃ answer, reply = .ok answer) ∨ reply = .error .missingEntry →
        w reference.value = none) := by
  rcases h with same | ⟨e, rfl, took, missing⟩
  · have hw : w = Function.update v reference.value none := congrArg Prod.snd same
    subst hw
    exact ⟨.inr rfl, fun _ => Function.update_self _ _ _⟩
  · refine ⟨took, fun gone => missing ?_⟩
    rcases gone with ⟨answer, ok⟩ | failed
    · cases ok
    · exact Except.error.inj failed

theorem load_effect (v : FakeVault) (reference : CredentialReference) :
     (v.load reference).2 = v ∧ ∀ answer, (v.load reference).1 = .ok answer →
    ∃ secret, answer = .loaded secret ∧ v reference.value = some secret := by
  unfold FakeVault.load
  split
  next secret there => exact ⟨rfl, fun answer ok => ⟨secret, (Except.ok.inj ok).symm, there⟩⟩
  next => exact ⟨rfl, fun answer ok => by cases ok⟩

theorem loadAnswer (h : VaultAnswer (.load reference) v reply w) :
    w = v ∧ ∀ answer, reply = .ok answer →
      ∃ secret, answer = .loaded secret ∧ v reference.value = some secret := by
  have effect := load_effect v reference
  rcases h with same | ⟨e, rfl, took, -⟩
  · have hw : w = (v.load reference).2 := congrArg Prod.snd same
    have hr : reply = (v.load reference).1 := congrArg Prod.fst same
    rw [hw, hr]
    exact effect
  · refine ⟨?_, fun answer ok => by cases ok⟩
    rcases took with kept | effected
    · exact kept
    · exact effected.trans effect.1

end Vault

section Credentials

variable {s : ProfileWorld} {id : ProfileId} {record : CredentialRecoveryRecord}

theorem harmless_commitSave (h : Consistent s) (own : record.reference = record.profile.reference)
    (mem : record ∈ s.document.credentialRecovery)
    (there : s.vault record.profile.reference.value ≠ none) :
    Harmless (ProfileManager.commitSave record) s := by
  have committed : Harmless (ProfileStore.commitSave record) s := by
    refine crashGuarded_mutate h (fun d done => ⟨?_, trivial⟩) fun _ => trivial
    exact Consistent.commitSave h own mem there done
  refine Safe.bind committed fun result t holds _ => ?_
  cases result with
  | ok value => exact ⟨holds, trivial⟩
  | error e => exact ⟨holds, trivial⟩

theorem harmless_storeSecret (h : Consistent s) (own : record.reference = record.profile.reference)
    (mem : record ∈ s.document.credentialRecovery) (secret : String) :
    Harmless (ProfileManager.storeSecret record secret) s := by
  have called : CrashGuarded (fun (result : Except ProfileManagementError _) t =>
      t.document = s.document ∧ ∀ answer, result = .ok (.ok answer) →
        t.vault record.profile.reference.value ≠ none)
      (ProfileManager.callVault (.save record.reference.value secret)) s := by
    refine crashGuarded_callVault h fun reply w answer => ?_
    obtain ⟨effect, success⟩ := saveAnswer answer
    refine ⟨?_, rfl, fun answer' ok => ?_⟩
    · rcases effect with rfl | rfl
      · exact h
      · exact Consistent.saved h own mem secret
    · have stored := success ⟨answer', Except.ok.inj ok⟩
      show w record.profile.reference.value ≠ none
      rw [stored, ← own, Function.update_self]
      exact Option.some_ne_none _
  refine harmless_bind called fun reply t holds reached => ?_
  obtain ⟨same, there⟩ := reached
  cases reply with
  | error e => exact harmless_done holds _
  | ok answer => exact harmless_commitSave holds own (by rwa [same]) (there answer rfl)

/-- Announcing the save of an unlinked profile. -/
theorem crashGuarded_beginSave (h : Consistent s) (free : s.document.credentialOf id = none) :
    CrashGuarded (fun result t => ∀ record, result = .ok record →
      record ∈ t.document.credentialRecovery ∧ record.reference = record.profile.reference)
      (ProfileStore.beginSave id id.reference) s := by
  refine crashGuarded_bind (crashGuarded_profile h) (fun e t _ _ => nofun) fun profile t holds reached => ?_
  obtain ⟨rfl, -⟩ := reached
  have pushed : CrashGuarded (fun result u => result = .ok () →
      (⟨id, id.reference, .uncommittedSave⟩ : CredentialRecoveryRecord) ∈
        u.document.credentialRecovery)
      (ProfileStore.mutateDocument fun d =>
        .ok (d.pushRecovery ⟨id, id.reference, .uncommittedSave⟩)) t := by
    refine crashGuarded_mutate holds (fun d done => ?_) fun _ => nofun
    cases Except.ok.inj done
    refine ⟨Consistent.pushRecovery holds rfl free, fun _ => ?_⟩
    exact Consistent.mem_pushRecovery.mpr (.inr rfl)
  refine crashGuarded_bind pushed (fun e u _ _ => nofun) fun _ u holds reached => ⟨holds, ?_⟩
  intro record same
  cases Except.ok.inj same
  exact ⟨reached rfl, rfl⟩

theorem harmless_saveCredential (h : Consistent s) (secret : String) :
    Harmless (ProfileManager.saveCredential id secret) s := by
  refine harmless_bind (crashGuarded_stored_profile h) fun profile t holds reached => ?_
  obtain ⟨rfl, found⟩ := reached
  split
  next => exact harmless_done holds _
  next unlinked =>
    have free : t.document.credentialOf id = none := by
      rw [SettingsDocument.credentialOf_of_find? (found profile rfl)]
      simpa using unlinked
    rw [deterministicReference_eq]
    refine harmless_bind (crashGuarded_ofResult holds _) fun reference u holds reached => ?_
    obtain ⟨rfl, same⟩ := reached
    cases Except.ok.inj same
    have announced : CrashGuarded (fun result t => ∀ record, result = .ok record →
        record ∈ t.document.credentialRecovery ∧ record.reference = record.profile.reference)
        (ProfileManager.stored (ProfileStore.beginSave id id.reference)) u := by
      refine crashGuarded_mapError (crashGuarded_beginSave holds free) fun result t reached record same => ?_
      cases result with
      | error e => cases same
      | ok value =>
        cases Except.ok.inj same
        exact reached _ rfl
    refine harmless_bind announced fun record t holds reached => ?_
    obtain ⟨mem, own⟩ := reached record rfl
    exact harmless_storeSecret holds own mem secret

theorem linkedReference_eq_ok {profile : ProviderProfile} {reference : CredentialReference}
    (h : ProfileManager.linkedReference profile = .ok reference) :
    profile.credential = some reference := by
  unfold ProfileManager.linkedReference at h
  split at h
  next => cases h
  next linked there =>
    rw [linked.new_value] at h
    cases Except.ok.inj h
    exact there

/-- The reference that a program works with is the one its profile links. -/
theorem crashGuarded_linkedReference (h : Consistent s) {profile : ProviderProfile}
    (found : s.document.profiles.find? id = some profile) :
    CrashGuarded (fun result t => t = s ∧ ∀ reference, result = .ok reference →
      reference = id.reference ∧ s.document.credentialOf id = some reference)
      (ProfileStore.ofResult (ProfileManager.linkedReference profile)) s := by
  refine crashGuarded_done h ⟨rfl, fun reference same => ?_⟩
  have linked : s.document.credentialOf id = some reference := by
    rw [SettingsDocument.credentialOf_of_find? found, linkedReference_eq_ok same]
  exact ⟨h.own id reference linked, linked⟩

theorem harmless_replaceCredential (h : Consistent s) (secret : String) :
    Harmless (ProfileManager.replaceCredential id secret) s := by
  refine harmless_bind (crashGuarded_stored_profile h) fun profile t holds reached => ?_
  obtain ⟨rfl, found⟩ := reached
  refine harmless_bind (crashGuarded_linkedReference holds (found profile rfl))
    fun reference u holds reached => ?_
  obtain ⟨rfl, same⟩ := reached
  obtain ⟨rfl, linked⟩ := same reference rfl
  have called : Harmless (ε := ProfileManagementError)
      (ProfileManager.callVault (.replace id.reference secret)) u := by
    refine crashGuarded_callVault holds fun reply w answer => ⟨?_, trivial⟩
    rcases replaceAnswer answer with rfl | rfl
    · exact holds
    · refine Consistent.replaced holds ?_ secret
      rw [linked]
      exact Option.some_ne_none _
  exact harmless_bind called fun reply t holds _ => harmless_done holds _

/-- What the clean-up of a record does to the other records. -/
def Settled (s : ProfileWorld) (record : CredentialRecoveryRecord)
    (result : Except ProfileManagementError Unit) (t : ProfileWorld) : Prop :=
  (∀ q, t.document.credentialOf q = s.document.credentialOf q) ∧
    (∀ other ∈ t.document.credentialRecovery, other ∈ s.document.credentialRecovery) ∧
    (result = .ok () → record ∉ t.document.credentialRecovery)

theorem crashGuarded_finishRecovery (h : Consistent s)
    (gone : s.vault record.profile.reference.value = none) :
    CrashGuarded (Settled s record)
      (EffectProgram.mapError (fun _ => ProfileManagementError.recoveryPending)
        (ProfileStore.finishRecovery record)) s := by
  have removed : CrashGuarded (fun result t => Settled s record
      (result.mapError fun _ => ProfileManagementError.recoveryPending) t)
      (ProfileStore.finishRecovery record) s := by
    refine crashGuarded_mutate h (fun d done => ?_) fun _ => ⟨fun _ => rfl, fun _ mem => mem, nofun⟩
    cases Except.ok.inj done
    refine ⟨Consistent.removeRecovery h gone, fun _ => rfl, fun other mem => ?_, fun _ mem => ?_⟩
    · exact (Consistent.mem_removeRecovery.mp mem).1
    · exact (Consistent.mem_removeRecovery.mp mem).2 rfl
  exact crashGuarded_mapError removed fun result t reached => reached

/-- Deleting the entry of an unlinked profile, whatever the vault answers. -/
theorem crashGuarded_finishVaultDelete (h : Consistent s)
    (own : record.reference = record.profile.reference)
    (free : s.document.credentialOf record.profile = none) :
    CrashGuarded (Settled s record) (ProfileManager.finishVaultDelete record) s := by
  have called : CrashGuarded (fun (result : Except ProfileManagementError _) t =>
      t.document = s.document ∧ ∀ reply, result = .ok reply →
        (∃ answer, reply = .ok answer) ∨ reply = .error .missingEntry →
          t.vault record.profile.reference.value = none)
      (ProfileManager.callVault (.delete record.reference)) s := by
    refine crashGuarded_callVault h fun reply w answer => ?_
    obtain ⟨effect, gone⟩ := deleteAnswer answer
    refine ⟨?_, rfl, fun reply' same absent => ?_⟩
    · rcases effect with rfl | rfl
      · exact h
      · rw [own]
        exact Consistent.deleted h free
    · cases Except.ok.inj same
      rw [← own]
      exact gone absent
  refine crashGuarded_bind called (fun e t _ reached => ?_) fun reply t holds reached => ?_
  · exact ⟨fun q => by rw [reached.1], fun other mem => by rwa [reached.1] at mem, nofun⟩
  · obtain ⟨same, gone⟩ := reached
    have after : ∀ result u, Settled t record result u → Settled s record result u := by
      intro result u settled
      unfold Settled at settled ⊢
      rwa [same] at settled
    cases reply with
    | ok answer =>
      refine Safe.mono (crashGuarded_finishRecovery holds (gone _ rfl (.inl ⟨answer, rfl⟩))) ?_
      exact fun result u _ settled => after result u settled
    | error e =>
      cases e with
      | missingEntry =>
        refine Safe.mono (crashGuarded_finishRecovery holds (gone _ rfl (.inr rfl))) ?_
        exact fun result u _ settled => after result u settled
      | unavailable => exact crashGuarded_done holds (after _ _ ⟨fun _ => rfl, fun _ mem => mem, nofun⟩)
      | invalidSecret reason =>
        exact crashGuarded_done holds (after _ _ ⟨fun _ => rfl, fun _ mem => mem, nofun⟩)
      | platform detail =>
        exact crashGuarded_done holds (after _ _ ⟨fun _ => rfl, fun _ mem => mem, nofun⟩)

end Credentials

end AutoHarness
