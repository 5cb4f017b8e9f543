import AutoHarness.ProfileManager

namespace AutoHarness

namespace SettingsDocument

variable {d e : SettingsDocument} {p q : ProfileId} {record : CredentialRecoveryRecord}

/-- The reference that a declared profile links. -/
def credentialOf (d : SettingsDocument) (p : ProfileId) : Option CredentialReference :=
  (d.profiles.find? p).bind ProviderProfile.credential

theorem credentialOf_of_find? {profile : ProviderProfile} (h : d.profiles.find? p = some profile) :
    d.credentialOf p = profile.credential := by
  simp [credentialOf, h]

theorem profile_eq_ok {profile : ProviderProfile} (h : d.profile p = .ok profile) :
    d.profiles.find? p = some profile := by
  unfold SettingsDocument.profile at h
  split at h
  next => cases h
  next snapshot taken =>
    split at h
    next => cases h
    next candidate found =>
      cases Except.ok.inj h
      have same : candidate.id = p := by simpa using List.find?_some found
      have mem := List.mem_of_find?_eq_some found
      unfold SettingsDocument.snapshot at taken
      split at taken
      next => cases taken
      next =>
        cases Except.ok.inj taken
        obtain ⟨entry, he, rfl⟩ := List.mem_map.mp mem
        simp only at same
        subst same
        exact d.profiles.mem_entries_iff.mp he

/-- What an edit of the declared profiles leaves alone. -/
structure KeepsRest (d e : SettingsDocument) : Prop where
  recovery : e.credentialRecovery = d.credentialRecovery
  active : e.activeProfile = d.activeProfile
  declared : ∀ q, (d.profiles.find? q).isSome → (e.profiles.find? q).isSome

theorem find?_insert_isSome {id : ProfileId} {profile : ProviderProfile}
    (h : (d.profiles.find? q).isSome) : ((d.profiles.insert id profile).find? q).isSome := by
  rw [SortedMap.find?_insert]
  split
  next => rfl
  next => exact h

/-- An edit keeps the linkage of every profile, unless it brings one of its own. -/
theorem upsertProfile_credentialOf {replacement : ProviderProfile}
    (h : d.upsertProfile p replacement = .ok e)
    (own : replacement.credential = none ∨ replacement.credential = d.credentialOf p) (q : ProfileId) :
    e.credentialOf q = d.credentialOf q := by
  unfold upsertProfile at h
  split at h
  next absent =>
    cases Except.ok.inj h
    have none : d.credentialOf p = none := by simp [credentialOf, absent]
    rw [none, or_self] at own
    by_cases same : q = p
    · subst same
      simp [credentialOf, absent, own]
    · simp [credentialOf, same]
  next existing there =>
    split at h
    next => cases h
    next =>
      cases Except.ok.inj h
      have before : d.credentialOf p = existing.credential := credentialOf_of_find? there
      have kept : keptCredential existing replacement = existing.credential := by
        unfold keptCredential
        split
        next reference linked => rw [linked]
        next unlinked =>
          rw [before, unlinked, or_self] at own
          rw [own, unlinked]
      by_cases same : q = p
      · subst same
        simp [credentialOf, there, kept]
      · simp [credentialOf, same]

theorem upsertProfile_keepsRest {replacement : ProviderProfile}
    (h : d.upsertProfile p replacement = .ok e) : KeepsRest d e := by
  unfold upsertProfile at h
  split at h
  next =>
    cases Except.ok.inj h
    exact ⟨rfl, rfl, fun q there => find?_insert_isSome there⟩
  next =>
    split at h
    next => cases h
    next =>
      cases Except.ok.inj h
      exact ⟨rfl, rfl, fun q there => find?_insert_isSome there⟩

theorem linkCredential_eq_ok {credential : Option CredentialReference}
    (h : d.linkCredential p credential = .ok e) :
    KeepsRest d e ∧ ∀ q, e.credentialOf q = if q = p then credential else d.credentialOf q := by
  unfold linkCredential at h
  split at h
  next => cases h
  next profile there =>
    cases Except.ok.inj h
    refine ⟨⟨rfl, rfl, fun q there => find?_insert_isSome there⟩, fun q => ?_⟩
    by_cases same : q = p
    · simp [credentialOf, same]
    · simp [credentialOf, same]

end SettingsDocument

open SettingsDocument

/-- The document file and the vault. -/
structure ProfileWorld where
  document : SettingsDocument
  vault : FakeVault

/-- Document and vault account for each other. -/
structure Consistent (s : ProfileWorld) : Prop where
  own : ∀ p reference, s.document.credentialOf p = some reference → reference = p.reference
  named : ∀ record ∈ s.document.credentialRecovery, record.reference = record.profile.reference
  single : ∀ record ∈ s.document.credentialRecovery, ∀ other ∈ s.document.credentialRecovery,
    record.profile = other.profile → record = other
  unlinked : ∀ record ∈ s.document.credentialRecovery,
    s.document.credentialOf record.profile = none
  entries : ∀ name, s.vault name ≠ none →
    (∃ p, s.document.credentialOf p ≠ none ∧ name = p.reference.value) ∨
      ∃ record ∈ s.document.credentialRecovery, name = record.profile.reference.value
  backed : ∀ p, s.document.credentialOf p ≠ none → s.vault p.reference.value ≠ none
  active : ∀ p, s.document.activeProfile = some p → (s.document.profiles.find? p).isSome

namespace Consistent

variable {s : ProfileWorld} {d e : SettingsDocument} {v : FakeVault} {p : ProfileId}
  {record : CredentialRecoveryRecord}

theorem start : Consistent ⟨.new, fun _ => none⟩ where
  own p reference h := by cases h
  named record mem := by cases mem
  single record mem := by cases mem
  unlinked record mem := by cases mem
  entries name there := absurd rfl there
  backed p linked := absurd rfl linked
  active p h := by cases h

/-- An edit that keeps every linkage. -/
theorem edit (h : Consistent ⟨d, v⟩) (rest : KeepsRest d e)
    (same : ∀ q, e.credentialOf q = d.credentialOf q) : Consistent ⟨e, v⟩ where
  own p reference linked := h.own p reference (by rwa [same] at linked)
  named record mem := h.named record (by rwa [rest.recovery] at mem)
  single record mem other mem' := h.single record (by rwa [rest.recovery] at mem) other
    (by rwa [rest.recovery] at mem')
  unlinked record mem := by
    rw [same]
    exact h.unlinked record (by rwa [rest.recovery] at mem)
  entries name there := by
    rw [rest.recovery]
    simp only [same]
    exact h.entries name there
  backed p linked := h.backed p (by rwa [same] at linked)
  active p chosen := rest.declared p (h.active p (by rwa [rest.active] at chosen))

theorem setActiveProfile (h : Consistent ⟨d, v⟩) {chosen : Option ProfileId}
    (done : d.setActiveProfile chosen = .ok e) : Consistent ⟨e, v⟩ := by
  unfold SettingsDocument.setActiveProfile at done
  split at done
  next id =>
    split at done
    next => cases done
    next there =>
      cases Except.ok.inj done
      refine ⟨h.own, h.named, h.single, h.unlinked, h.entries, h.backed, fun p same => ?_⟩
      cases Option.some.inj same
      simpa [Option.isSome_iff_ne_none] using there
  next =>
    cases Except.ok.inj done
    exact ⟨h.own, h.named, h.single, h.unlinked, h.entries, h.backed, fun p same => by cases same⟩

theorem mem_pushRecovery {other : CredentialRecoveryRecord} :
    other ∈ (d.pushRecovery record).credentialRecovery ↔
      (other ∈ d.credentialRecovery ∧ other.reference ≠ record.reference) ∨ other = record := by
  simp [pushRecovery]

theorem mem_removeRecovery {other : CredentialRecoveryRecord} :
    other ∈ (d.removeRecovery record).credentialRecovery ↔
      other ∈ d.credentialRecovery ∧ other ≠ record := by
  simp [removeRecovery]

/-- A record whose entry is gone can be dropped. -/
theorem removeRecovery (h : Consistent ⟨d, v⟩) (gone : v record.profile.reference.value = none) :
    Consistent ⟨d.removeRecovery record, v⟩ where
  own := h.own
  named other mem := h.named other (mem_removeRecovery.mp mem).1
  single first hf second hs := h.single first (mem_removeRecovery.mp hf).1 second
    (mem_removeRecovery.mp hs).1
  unlinked other mem := h.unlinked other (mem_removeRecovery.mp mem).1
  entries name there := by
    rcases h.entries name there with linked | ⟨other, mem, rfl⟩
    · exact .inl linked
    · refine .inr ⟨other, mem_removeRecovery.mpr ⟨mem, ?_⟩, rfl⟩
      rintro rfl
      exact there gone
  backed := h.backed
  active := h.active

/-- A save commits: the profile links the entry that its record announced. -/
theorem commitSave (h : Consistent ⟨d, v⟩) (own : record.reference = record.profile.reference)
    (mem : record ∈ d.credentialRecovery) (there : v record.profile.reference.value ≠ none)
    (done : d.commitSave record = .ok e) : Consistent ⟨e, v⟩ := by
  unfold SettingsDocument.commitSave at done
  cases linked : d.linkCredential record.profile (some record.reference) with
  | error reason =>
    rw [linked] at done
    cases done
  | ok middle =>
    rw [linked] at done
    cases Except.ok.inj done
    obtain ⟨rest, credential⟩ := linkCredential_eq_ok linked
    have other : ∀ q, q ≠ record.profile → middle.credentialOf q = d.credentialOf q := fun q hq => by
      rw [credential, if_neg hq]
    have self : middle.credentialOf record.profile = some record.reference := by
      rw [credential, if_pos rfl]
    have before : ∀ r, r ∈ (middle.removeRecovery record).credentialRecovery →
        r ∈ d.credentialRecovery ∧ r.profile ≠ record.profile := by
      intro r hr
      obtain ⟨hr, ne⟩ := mem_removeRecovery.mp hr
      rw [rest.recovery] at hr
      exact ⟨hr, fun same => ne (h.single r hr record mem same)⟩
    refine ⟨fun p reference hp => ?_, fun r hr => h.named r (before r hr).1,
      fun r hr r' hr' => h.single r (before r hr).1 r' (before r' hr').1, fun r hr => ?_,
      fun name hname => ?_, fun p hp => ?_, fun p hp => ?_⟩
    · change middle.credentialOf p = some reference at hp
      by_cases same : p = record.profile
      · subst same
        rw [self] at hp
        rw [← Option.some.inj hp, own]
      · rw [other p same] at hp
        exact h.own p reference hp
    · show middle.credentialOf r.profile = none
      rw [other _ (before r hr).2]
      exact h.unlinked r (before r hr).1
    · rcases h.entries name hname with ⟨p, hp, rfl⟩ | ⟨r, hr, rfl⟩
      · refine .inl ⟨p, ?_, rfl⟩
        show middle.credentialOf p ≠ none
        by_cases same : p = record.profile
        · subst same
          rw [self]
          exact Option.some_ne_none _
        · rwa [other p same]
      · by_cases same : r = record
        · subst same
          refine .inl ⟨r.profile, ?_, rfl⟩
          show middle.credentialOf r.profile ≠ none
          rw [self]
          exact Option.some_ne_none _
        · refine .inr ⟨r, mem_removeRecovery.mpr ⟨?_, same⟩, rfl⟩
          rwa [rest.recovery]
    · change middle.credentialOf p ≠ none at hp
      by_cases same : p = record.profile
      · subst same
        exact there
      · rw [other p same] at hp
        exact h.backed p hp
    · change middle.activeProfile = some p at hp
      rw [rest.active] at hp
      exact rest.declared p (h.active p hp)

/-- Taking away the linkage of a profile, with the record that its entry is to be deleted. -/
theorem release {middle : SettingsDocument} (h : Consistent ⟨d, v⟩)
    (own : record.reference = record.profile.reference)
    (recovery : middle.credentialRecovery = d.credentialRecovery)
    (credential : ∀ q, middle.credentialOf q =
      if q = record.profile then none else d.credentialOf q)
    (active : ∀ p, middle.activeProfile = some p → (middle.profiles.find? p).isSome) :
    Consistent ⟨middle.pushRecovery record, v⟩ := by
  have keep : ∀ q, middle.credentialOf q ≠ none → d.credentialOf q ≠ none := by
    intro q hq
    rw [credential] at hq
    split at hq
    next => exact absurd rfl hq
    next => exact hq
  refine ⟨fun p reference hp => ?_, fun r hr => ?_, fun first hf second hs same => ?_,
    fun r hr => ?_, fun name there => ?_, fun p hp => h.backed p (keep p hp), active⟩
  · change middle.credentialOf p = some reference at hp
    rw [credential] at hp
    split at hp
    next => cases hp
    next => exact h.own p reference hp
  · rcases mem_pushRecovery.mp hr with ⟨hr, -⟩ | rfl
    · rw [recovery] at hr
      exact h.named r hr
    · exact own
  · rcases mem_pushRecovery.mp hf with ⟨hf', nf⟩ | rfl
    · rw [recovery] at hf'
      rcases mem_pushRecovery.mp hs with ⟨hs', -⟩ | rfl
      · rw [recovery] at hs'
        exact h.single first hf' second hs' same
      · rw [h.named first hf', same, ← own] at nf
        exact absurd rfl nf
    · rcases mem_pushRecovery.mp hs with ⟨hs', ns⟩ | rfl
      · rw [recovery] at hs'
        rw [h.named second hs', ← same, ← own] at ns
        exact absurd rfl ns
      · rfl
  · show middle.credentialOf r.profile = none
    rw [credential]
    split
    next => rfl
    next other =>
      rcases mem_pushRecovery.mp hr with ⟨hr, -⟩ | rfl
      · rw [recovery] at hr
        exact h.unlinked r hr
      · exact absurd rfl other
  · rcases h.entries name there with ⟨p, hp, rfl⟩ | ⟨r, hr, rfl⟩
    · by_cases same : p = record.profile
      · exact .inr ⟨record, mem_pushRecovery.mpr (.inr rfl), by rw [same]⟩
      · refine .inl ⟨p, ?_, rfl⟩
        show middle.credentialOf p ≠ none
        rwa [credential, if_neg same]
    · by_cases same : r.reference = record.reference
      · refine .inr ⟨record, mem_pushRecovery.mpr (.inr rfl), ?_⟩
        rw [← own, ← same, h.named r hr]
      · exact .inr ⟨r, mem_pushRecovery.mpr (.inl ⟨by rwa [recovery], same⟩), rfl⟩

/-- Announcing a mutation of an unlinked profile replaces what was announced before. -/
theorem pushRecovery (h : Consistent ⟨d, v⟩) (own : record.reference = record.profile.reference)
    (free : d.credentialOf record.profile = none) : Consistent ⟨d.pushRecovery record, v⟩ := by
  refine h.release own rfl (fun q => ?_) h.active
  split
  next same => rw [same, free]
  next => rfl

theorem disconnectWith (h : Consistent ⟨d, v⟩) (own : record.reference = record.profile.reference)
    (done : d.disconnectWith record = .ok e) : Consistent ⟨e, v⟩ := by
  unfold SettingsDocument.disconnectWith at done
  cases linked : d.linkCredential record.profile none with
  | error reason =>
    rw [linked] at done
    cases done
  | ok middle =>
    rw [linked] at done
    cases Except.ok.inj done
    obtain ⟨rest, credential⟩ := linkCredential_eq_ok linked
    refine h.release own rest.recovery credential fun p hp => ?_
    rw [rest.active] at hp
    exact rest.declared p (h.active p hp)

theorem deleteWith (h : Consistent ⟨d, v⟩) (own : record.reference = record.profile.reference)
    (done : d.deleteWith record = .ok e) : Consistent ⟨e, v⟩ := by
  unfold SettingsDocument.deleteWith at done
  split at done
  next => cases done
  next =>
    cases Except.ok.inj done
    refine h.release own rfl (fun q => ?_) fun p hp => ?_
    · by_cases same : q = record.profile
      · simp [credentialOf, same]
      · simp [credentialOf, same]
    · simp only at hp
      split at hp
      next => cases hp
      next other =>
        have apart : p ≠ record.profile := by
          rintro rfl
          exact other hp
        rw [SortedMap.find?_erase, if_neg apart]
        exact h.active p hp

/-- Another vault whose entries are accounted for. -/
theorem withVault {w : FakeVault} (h : Consistent ⟨d, v⟩)
    (entries : ∀ name, w name ≠ none → v name ≠ none ∨
      (∃ p, d.credentialOf p ≠ none ∧ name = p.reference.value) ∨
      ∃ record ∈ d.credentialRecovery, name = record.profile.reference.value)
    (backed : ∀ p, d.credentialOf p ≠ none → w p.reference.value ≠ none) : Consistent ⟨d, w⟩ where
  own := h.own
  named := h.named
  single := h.single
  unlinked := h.unlinked
  entries name there := by
    rcases entries name there with before | new
    · exact h.entries name before
    · exact new
  backed := backed
  active := h.active

theorem update_ne_none {name other : String} {secret : String} (h : v name ≠ none) :
    Function.update v other (some secret) name ≠ none := by
  by_cases same : name = other
  · rw [same, Function.update_self]
    exact Option.some_ne_none _
  · rwa [Function.update_of_ne same]

/-- An entry may come to stand under a name that a record announces. -/
theorem saved (h : Consistent ⟨d, v⟩) (own : record.reference = record.profile.reference)
    (mem : record ∈ d.credentialRecovery) (secret : String) :
    Consistent ⟨d, Function.update v record.reference.value (some secret)⟩ := by
  refine h.withVault (fun name there => ?_) fun p linked => update_ne_none (h.backed p linked)
  by_cases same : name = record.reference.value
  · exact .inr (.inr ⟨record, mem, by rw [same, own]⟩)
  · rw [Function.update_of_ne same] at there
    exact .inl there

/-- A linked entry may get another secret. -/
theorem replaced (h : Consistent ⟨d, v⟩) (linked : d.credentialOf p ≠ none) (secret : String) :
    Consistent ⟨d, Function.update v p.reference.value (some secret)⟩ := by
  refine h.withVault (fun name there => ?_) fun q hq => update_ne_none (h.backed q hq)
  by_cases same : name = p.reference.value
  · exact .inr (.inl ⟨p, linked, same⟩)
  · rw [Function.update_of_ne same] at there
    exact .inl there

/-- The entry of an unlinked profile may go. -/
theorem deleted (h : Consistent ⟨d, v⟩) (free : d.credentialOf p = none) :
    Consistent ⟨d, Function.update v p.reference.value none⟩ := by
  refine h.withVault (fun name there => ?_) fun q hq => ?_
  · by_cases same : name = p.reference.value
    · rw [same, Function.update_self] at there
      exact absurd rfl there
    · rw [Function.update_of_ne same] at there
      exact .inl there
  · have apart : q.reference.value ≠ p.reference.value := by
      intro same
      have equal := ProfileId.reference_injective (CredentialReference.ext_value same)
      rw [equal] at hq
      exact hq free
    rw [Function.update_of_ne apart]
    exact h.backed q hq

end Consistent

end AutoHarness
