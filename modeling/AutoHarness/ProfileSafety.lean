import AutoHarness.ProfileConsistency

open EffectProgram (Safe Visits Returns)

namespace AutoHarness

/-- The vault answers as it should, or reports an error with or without having taken effect; it
reports a missing entry only where there is none. -/
def VaultAnswer (operation : VaultOperation) (v : FakeVault)
    (reply : Except VaultError VaultReply) (w : FakeVault) : Prop :=
  (reply, w) = v.call operation ∨
    ∃ e, reply = .error e ∧ (w = v ∨ w = (v.call operation).2) ∧
      (e = .missingEntry → w operation.name = none)

/-- A write of the document replaces it whole or fails without effect. -/
def WriteAnswer (mutate : SettingsDocument → Except ProfileStoreError SettingsDocument)
    (d : SettingsDocument) (reply : Except ProfileStoreError Unit) (e : SettingsDocument) : Prop :=
  (reply = .ok () ∧ mutate d = .ok e) ∨ ∃ reason, reply = .error reason ∧ e = d

def profileEnvironment : (effect : ProfileEffect) → ProfileWorld → effect.Reply → ProfileWorld → Prop
  | .readDocument, s, reply, t => t = s ∧ (reply = .ok s.document ∨ ∃ reason, reply = .error reason)
  | .writeDocument mutate, s, reply, t =>
    WriteAnswer mutate s.document reply t.document ∧ t.vault = s.vault
  | .callVault operation, s, reply, t =>
    t.document = s.document ∧ VaultAnswer operation s.vault reply t.vault

section Rules

variable {ε α β : Type} {s : ProfileWorld} {id : ProfileId}

/-- A program that keeps document and vault consistent wherever it stops. -/
abbrev CrashGuarded (post : Except ε α → ProfileWorld → Prop) (p : ProfileProgram ε α)
    (s : ProfileWorld) : Prop :=
  Safe profileEnvironment Consistent post p s

theorem crashGuarded_done {result : Except ε α} {post : Except ε α → ProfileWorld → Prop}
    (h : Consistent s) (reached : post result s) : CrashGuarded post (ProfileStore.ofResult result) s :=
  ⟨h, reached⟩

theorem crashGuarded_bind {p : ProfileProgram ε α} {f : α → ProfileProgram ε β}
    {mid : Except ε α → ProfileWorld → Prop} {post : Except ε β → ProfileWorld → Prop}
    (first : CrashGuarded mid p s) (failed : ∀ e t, Consistent t → mid (.error e) t → post (.error e) t)
    (next : ∀ value t, Consistent t → mid (.ok value) t → CrashGuarded post (f value) t) :
    CrashGuarded post (p >>= f) s :=
  Safe.andThen first failed next

theorem crashGuarded_mapError {δ : Type} {f : ε → δ} {p : ProfileProgram ε α}
    {mid : Except ε α → ProfileWorld → Prop} {post : Except δ α → ProfileWorld → Prop}
    (first : CrashGuarded mid p s)
    (weaken : ∀ result t, mid result t → post (result.mapError f) t) :
    CrashGuarded post (EffectProgram.mapError f p) s :=
  Safe.bind first fun result _ holds reached => ⟨holds, weaken result _ reached⟩

theorem crashGuarded_parsed (h : Consistent s) :
    CrashGuarded (fun result t => t = s ∧ ∀ d, result = .ok d → d = s.document)
      ProfileStore.parsed s := by
  refine Safe.emit h fun reply t answer => ?_
  obtain ⟨rfl, rfl | ⟨reason, rfl⟩⟩ := answer
  · exact ⟨h, rfl, fun d same => (Except.ok.inj same).symm⟩
  · exact ⟨h, rfl, fun d same => by cases same⟩

theorem crashGuarded_mutate {mutate : SettingsDocument → Except ProfileStoreError SettingsDocument}
    {post : Except ProfileStoreError Unit → ProfileWorld → Prop} (h : Consistent s)
    (written : ∀ d, mutate s.document = .ok d →
      Consistent ⟨d, s.vault⟩ ∧ post (.ok ()) ⟨d, s.vault⟩)
    (failed : ∀ e, post (.error e) s) : CrashGuarded post (ProfileStore.mutateDocument mutate) s := by
  refine Safe.emit h fun reply t answer => ?_
  obtain ⟨d, v⟩ := s
  obtain ⟨e, w⟩ := t
  obtain ⟨⟨rfl, done⟩ | ⟨reason, rfl, rfl⟩, rfl⟩ := answer
  · exact written e done
  · exact ⟨h, failed reason⟩

theorem crashGuarded_callVault {operation : VaultOperation}
    {post : Except ε (Except VaultError VaultReply) → ProfileWorld → Prop} (h : Consistent s)
    (answered : ∀ reply w, VaultAnswer operation s.vault reply w →
      Consistent ⟨s.document, w⟩ ∧ post (.ok reply) ⟨s.document, w⟩) :
    CrashGuarded post (ProfileManager.callVault operation) s := by
  refine Safe.bind (Safe.emit h fun reply t answer => ?_) fun reply t holds reached =>
    ⟨holds, reached⟩
  obtain ⟨e, w⟩ := t
  obtain ⟨rfl, answer⟩ := answer
  exact answered reply w answer

/-- Reading a profile changes nothing. -/
theorem crashGuarded_profile (h : Consistent s) :
    CrashGuarded (fun result t => t = s ∧ ∀ profile, result = .ok profile →
      s.document.profiles.find? id = some profile) (ProfileStore.profile id) s := by
  refine crashGuarded_bind (crashGuarded_parsed h) (fun e t _ reached => ⟨reached.1, nofun⟩)
    fun d t holds reached => ?_
  obtain ⟨rfl, same⟩ := reached
  cases same d rfl
  exact crashGuarded_done holds ⟨rfl, fun profile found => SettingsDocument.profile_eq_ok found⟩

theorem crashGuarded_stored_profile (h : Consistent s) :
    CrashGuarded (fun result t => t = s ∧ ∀ profile, result = .ok profile →
      s.document.profiles.find? id = some profile)
      (ProfileManager.stored (ProfileStore.profile id)) s := by
  refine crashGuarded_mapError (crashGuarded_profile h) fun result t reached => ⟨reached.1, ?_⟩
  intro profile found
  cases result with
  | error e => cases found
  | ok value =>
    rw [← Except.ok.inj found]
    exact reached.2 value rfl

end Rules

section Edits

variable {s : ProfileWorld} {id : ProfileId}
  {validateProfile : ProviderProfile → Except ProfileManagementError Unit}

/-- A program that only has to keep document and vault consistent. -/
abbrev Harmless {ε α : Type} (p : ProfileProgram ε α) (s : ProfileWorld) : Prop :=
  CrashGuarded (fun _ _ => True) p s

theorem harmless_done {ε α : Type} (h : Consistent s) (result : Except ε α) :
    Harmless (ProfileStore.ofResult result) s :=
  crashGuarded_done h trivial

theorem harmless_bind {ε α β : Type} {p : ProfileProgram ε α} {f : α → ProfileProgram ε β}
    {mid : Except ε α → ProfileWorld → Prop} (first : CrashGuarded mid p s)
    (next : ∀ value t, Consistent t → mid (.ok value) t → Harmless (f value) t) :
    Harmless (p >>= f) s :=
  crashGuarded_bind first (fun _ _ _ _ => trivial) next

theorem harmless_stored {α : Type} {p : ProfileProgram ProfileStoreError α}
    (h : Harmless p s) : Harmless (ProfileManager.stored p) s :=
  crashGuarded_mapError h fun _ _ _ => trivial

/-- A computed value that goes on with the state as it was. -/
theorem crashGuarded_ofResult {ε α : Type} (h : Consistent s) (result : Except ε α) :
    CrashGuarded (fun reply t => t = s ∧ reply = result) (ProfileStore.ofResult result) s :=
  ⟨h, rfl, rfl⟩

theorem harmless_upsertProfile (h : Consistent s) {replacement : ProviderProfile}
    (own : replacement.credential = none ∨
      replacement.credential = s.document.credentialOf id) :
    Harmless (ProfileStore.upsertProfile id replacement) s := by
  refine crashGuarded_mutate h (fun d done => ⟨?_, trivial⟩) fun _ => trivial
  exact Consistent.edit h (SettingsDocument.upsertProfile_keepsRest done)
    (SettingsDocument.upsertProfile_credentialOf done own)

theorem harmless_upsert (h : Consistent s) {profile : ProviderProfile}
    (fresh : profile.credential = none) :
    Harmless (ProfileManager.upsert validateProfile id profile) s := by
  refine harmless_bind (crashGuarded_ofResult h _) fun _ t holds reached => ?_
  obtain ⟨rfl, -⟩ := reached
  exact harmless_stored (harmless_upsertProfile holds (.inl fresh))

theorem harmless_copyProfile (h : Consistent s) (source : ProfileId) :
    Harmless (ProfileManager.copyProfile validateProfile source id) s := by
  refine harmless_bind (crashGuarded_stored_profile h) fun profile t holds _ => ?_
  refine harmless_bind (crashGuarded_ofResult holds _) fun _ u holds reached => ?_
  obtain ⟨rfl, -⟩ := reached
  exact harmless_stored (harmless_upsertProfile holds (.inl rfl))

theorem harmless_duplicate (h : Consistent s) (source : ProfileId) :
    Harmless (ProfileManager.duplicate validateProfile source id) s := by
  refine Safe.bind (crashGuarded_profile h) fun result t holds _ => ?_
  cases result with
  | ok profile => exact ⟨holds, trivial⟩
  | error e => exact harmless_copyProfile holds source

theorem harmless_activate (h : Consistent s) (chosen : Option ProfileId) :
    Harmless (ProfileManager.activate chosen) s := by
  refine harmless_stored (crashGuarded_mutate h (fun d done => ⟨?_, trivial⟩) fun _ => trivial)
  exact Consistent.setActiveProfile h done

theorem withDefaultModel_credential {profile configured : ProviderProfile} {model : Option String}
    (h : profile.withDefaultModel model = .ok configured) :
    configured.credential = profile.credential := by
  unfold ProviderProfile.withDefaultModel at h
  split at h
  next => cases h
  next =>
    cases Except.ok.inj h
    rfl

theorem withAgentDefaults_credential {profile configured : ProviderProfile} {model : String}
    {effort : Option String}
    (h : ProfileManager.withAgentDefaults profile model effort = .ok configured) :
    configured.credential = profile.credential := by
  obtain ⟨middle, first, second⟩ := FallibleRun.bind_eq_ok_iff.mp h
  rw [← withDefaultModel_credential first]
  unfold ProviderProfile.withDefaultReasoningEffort at second
  split at second
  next => cases second
  next =>
    cases Except.ok.inj second
    rfl

/-- A reconfigured profile keeps the linkage it was read with. -/
theorem harmless_reconfigure {configure : ProviderProfile → Except String ProviderProfile}
    (keeps : ∀ profile configured, configure profile = .ok configured →
      configured.credential = profile.credential) (h : Consistent s) :
    Harmless (do
      let profile ← ProfileManager.stored (ProfileStore.profile id)
      let configured ← ProfileStore.ofResult ((configure profile).mapError fun reason =>
        ProfileManagementError.store (.invalid reason))
      ProfileManager.stored (ProfileStore.upsertProfile id configured)) s := by
  refine harmless_bind (crashGuarded_stored_profile h) fun profile t holds reached => ?_
  obtain ⟨rfl, found⟩ := reached
  refine harmless_bind (crashGuarded_ofResult holds _) fun configured u holds reached => ?_
  obtain ⟨rfl, result⟩ := reached
  have kept : configured.credential = profile.credential := by
    cases outcome : configure profile with
    | error reason =>
      rw [outcome] at result
      cases result
    | ok value =>
      rw [outcome] at result
      cases Except.ok.inj result
      exact keeps profile _ outcome
  refine harmless_stored (harmless_upsertProfile holds (.inr ?_))
  rw [kept, SettingsDocument.credentialOf_of_find? (found profile rfl)]

theorem harmless_setDefaultModel (h : Consistent s) (model : Option String) :
    Harmless (ProfileManager.setDefaultModel id model) s :=
  harmless_reconfigure (fun _ _ => withDefaultModel_credential) h

theorem harmless_setAgentDefaults (h : Consistent s) (model : String) (effort : Option String) :
    Harmless (ProfileManager.setAgentDefaults id model effort) s :=
  harmless_reconfigure (fun _ _ => withAgentDefaults_credential) h

end Edits

end AutoHarness
