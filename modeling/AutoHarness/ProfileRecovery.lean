import AutoHarness.ProfileCrash
import Mathlib.Data.List.Sort

open EffectProgram (Safe Visits Returns)

namespace AutoHarness

variable {s t : ProfileWorld} {id : ProfileId} {record : CredentialRecoveryRecord}

section Removal

/-- A record of an unlinked profile. -/
def Pending (s : ProfileWorld) (record : CredentialRecoveryRecord) : Prop :=
  record.reference = record.profile.reference ∧ s.document.credentialOf record.profile = none

theorem Consistent.pending (h : Consistent s) (mem : record ∈ s.document.credentialRecovery) :
    Pending s record :=
  ⟨h.named record mem, h.unlinked record mem⟩

theorem crashGuarded_unlink (h : Consistent s) {reference : CredentialReference}
    (own : reference = id.reference) :
    CrashGuarded (fun result t => ∀ record, result = .ok (some record) → Pending t record)
      (ProfileStore.unlink id reference) s := by
  unfold ProfileStore.unlink
  rw [reference.new_value]
  refine crashGuarded_bind (crashGuarded_ofResult h _) (fun _ _ _ _ => nofun) fun _ t holds reached => ?_
  obtain ⟨rfl, same⟩ := reached
  cases Except.ok.inj same
  have removed : CrashGuarded (fun result u => result = .ok () → Pending u ⟨id, reference, .delete⟩)
      (ProfileStore.mutateDocument fun d => d.disconnectWith ⟨id, reference, .delete⟩) t := by
    refine crashGuarded_mutate holds (fun d done => ?_) fun _ => nofun
    have after := Consistent.disconnectWith holds own done
    refine ⟨after, fun _ => after.pending ?_⟩
    unfold SettingsDocument.disconnectWith at done
    cases middle : t.document.linkCredential id none with
    | error reason =>
      rw [middle] at done
      cases done
    | ok unlinked =>
      rw [middle] at done
      cases Except.ok.inj done
      exact Consistent.mem_pushRecovery.mpr (.inr rfl)
  refine crashGuarded_bind removed (fun _ _ _ _ => nofun) fun _ u holds reached => ⟨holds, ?_⟩
  intro record same
  cases Option.some.inj (Except.ok.inj same)
  exact reached rfl

theorem crashGuarded_beginDisconnect (h : Consistent s) :
    CrashGuarded (fun result t => ∀ record, result = .ok (some record) → Pending t record)
      (ProfileStore.beginDisconnect id) s := by
  refine crashGuarded_bind (crashGuarded_profile h) (fun _ _ _ _ => nofun) fun profile t holds reached => ?_
  obtain ⟨rfl, found⟩ := reached
  split
  next => exact ⟨holds, nofun⟩
  next reference linked =>
    refine crashGuarded_unlink holds (holds.own id reference ?_)
    rw [SettingsDocument.credentialOf_of_find? (found profile rfl), linked]

theorem harmless_finishVaultDelete (h : Consistent s) (pending : Pending s record) :
    Harmless (ProfileManager.finishVaultDelete record) s :=
  Safe.mono (crashGuarded_finishVaultDelete h pending.1 pending.2) fun _ _ _ _ => trivial

theorem harmless_disconnect (h : Consistent s) : Harmless (ProfileManager.disconnect id) s := by
  have begun : CrashGuarded (fun result t => ∀ record, result = .ok (some record) → Pending t record)
      (ProfileManager.stored (ProfileStore.beginDisconnect id)) s := by
    refine crashGuarded_mapError (crashGuarded_beginDisconnect h) fun result t reached record same => ?_
    cases result with
    | error e => cases same
    | ok value =>
      cases Except.ok.inj same
      exact reached record rfl
  refine harmless_bind begun fun found t holds reached => ?_
  cases found with
  | none => exact ⟨holds, trivial⟩
  | some record => exact harmless_finishVaultDelete holds (reached record rfl)

theorem crashGuarded_beginDelete (h : Consistent s) :
    CrashGuarded (fun result t => ∀ record, result = .ok record → Pending t record)
      (ProfileStore.beginDelete id) s := by
  unfold ProfileStore.beginDelete
  rw [deterministicReference_eq]
  refine crashGuarded_bind (crashGuarded_profile h) (fun _ _ _ _ => nofun) fun profile t holds reached => ?_
  obtain ⟨rfl, -⟩ := reached
  refine crashGuarded_bind (crashGuarded_ofResult holds _) (fun _ _ _ _ => nofun)
    fun reference u holds reached => ?_
  obtain ⟨rfl, same⟩ := reached
  cases Except.ok.inj same
  have removed : CrashGuarded (fun result w => result = .ok () → Pending w ⟨id, id.reference, .delete⟩)
      (ProfileStore.mutateDocument fun d => d.deleteWith ⟨id, id.reference, .delete⟩) u := by
    refine crashGuarded_mutate holds (fun d done => ?_) fun _ => nofun
    have after := Consistent.deleteWith holds rfl done
    refine ⟨after, fun _ => after.pending ?_⟩
    unfold SettingsDocument.deleteWith at done
    split at done
    next => cases done
    next =>
      cases Except.ok.inj done
      exact Consistent.mem_pushRecovery.mpr (.inr rfl)
  refine crashGuarded_bind removed (fun _ _ _ _ => nofun) fun _ w holds reached => ⟨holds, ?_⟩
  intro record same
  cases Except.ok.inj same
  exact reached rfl

theorem harmless_delete (h : Consistent s) : Harmless (ProfileManager.delete id) s := by
  have begun : CrashGuarded (fun result t => ∀ record, result = .ok record → Pending t record)
      (ProfileManager.stored (ProfileStore.beginDelete id)) s := by
    refine crashGuarded_mapError (crashGuarded_beginDelete h) fun result t reached record same => ?_
    cases result with
    | error e => cases same
    | ok value =>
      cases Except.ok.inj same
      exact reached _ rfl
  exact harmless_bind begun fun record t holds reached =>
    harmless_finishVaultDelete holds (reached record rfl)

end Removal

section Recovery

theorem crashGuarded_alreadyLinked (h : Consistent s) (pending : Pending s record) :
    CrashGuarded (fun result t => t = s ∧ ∀ linked, result = .ok linked → linked = false)
      (ProfileManager.alreadyLinked record) s := by
  unfold ProfileManager.alreadyLinked
  split
  next =>
    have read : CrashGuarded (fun result t => t = s ∧ ∀ linked, result = .ok linked → linked = false)
        (ProfileStore.profileLinks record.profile record.reference) s := by
      refine crashGuarded_bind (crashGuarded_parsed h) (fun e t _ reached => ⟨reached.1, nofun⟩)
        fun d t holds reached => ?_
      obtain ⟨rfl, same⟩ := reached
      cases same d rfl
      refine ⟨holds, rfl, fun linked result => ?_⟩
      cases Except.ok.inj result
      have free := pending.2
      unfold SettingsDocument.credentialOf at free
      unfold SettingsDocument.profileLinks
      cases found : t.document.profiles.find? record.profile with
      | none => rfl
      | some profile =>
        rw [found, Option.bind_some] at free
        simp [free]
    refine crashGuarded_mapError read fun result t reached => ⟨reached.1, fun linked same => ?_⟩
    cases result with
    | error e => cases same
    | ok value =>
      cases Except.ok.inj same
      exact reached.2 _ rfl
  next => exact ⟨h, rfl, fun linked same => (Except.ok.inj same).symm⟩

/-- After a reconciliation that leaves nothing pending no record is left. -/
theorem crashGuarded_recoverRecords {records : List CredentialRecoveryRecord} {remaining : Nat}
    (h : Consistent s) (pending : ∀ record ∈ records, Pending s record)
    (covered : ∀ record ∈ s.document.credentialRecovery, record ∈ records ∨ 0 < remaining) :
    CrashGuarded (fun result t => result = .ok 0 → t.document.credentialRecovery = [])
      (ProfileManager.recoverRecords records remaining) s := by
  induction records generalizing s remaining with
  | nil =>
    refine ⟨h, fun none => ?_⟩
    have zero : remaining = 0 := Except.ok.inj none
    rw [List.eq_nil_iff_forall_not_mem]
    intro record mem
    rcases covered record mem with listed | positive
    · cases listed
    · omega
  | cons record rest ih =>
    have own := pending record (by simp)
    refine crashGuarded_bind (crashGuarded_alreadyLinked h own) (fun _ _ _ _ => nofun)
      fun linked t holds reached => ?_
    obtain ⟨rfl, unlinked⟩ := reached
    cases unlinked linked rfl
    have settled := crashGuarded_finishVaultDelete holds own.1 own.2
    refine Safe.bind settled fun result u holds reached => ?_
    obtain ⟨credentials, subset, removed⟩ := reached
    have still : ∀ other ∈ rest, Pending u other := fun other mem => by
      have before := pending other (List.mem_cons_of_mem _ mem)
      exact ⟨before.1, by rw [credentials]; exact before.2⟩
    cases result with
    | ok value =>
      refine ih holds still fun other mem => ?_
      rcases covered other (subset other mem) with listed | positive
      · rcases List.mem_cons.mp listed with rfl | later
        · exact absurd mem (removed rfl)
        · exact .inl later
      · exact .inr positive
    | error e => exact ih holds still fun _ _ => .inr (by omega)

theorem crashGuarded_recoverPending (h : Consistent s) :
    CrashGuarded (fun result t => result = .ok 0 → t.document.credentialRecovery = [])
      ProfileManager.recoverPending s := by
  have read : CrashGuarded (fun result t => t = s ∧ ∀ records, result = .ok records →
      records = s.document.credentialRecovery)
      (ProfileManager.stored ProfileStore.recoveryRecords) s := by
    have inner : CrashGuarded (fun result t => t = s ∧ ∀ records, result = .ok records →
        records = s.document.credentialRecovery) ProfileStore.recoveryRecords s := by
      refine crashGuarded_bind (crashGuarded_parsed h) (fun e t _ reached => ⟨reached.1, nofun⟩)
        fun d t holds reached => ?_
      obtain ⟨rfl, same⟩ := reached
      cases same d rfl
      exact ⟨holds, rfl, fun records result => (Except.ok.inj result).symm⟩
    refine crashGuarded_mapError inner fun result t reached => ⟨reached.1, fun records same => ?_⟩
    cases result with
    | error e => cases same
    | ok value =>
      cases Except.ok.inj same
      exact reached.2 _ rfl
  refine crashGuarded_bind read (fun _ _ _ _ => nofun) fun records t holds reached => ?_
  obtain ⟨rfl, same⟩ := reached
  cases same records rfl
  exact crashGuarded_recoverRecords holds (fun record mem => holds.pending mem) fun record mem => .inl mem

end Recovery

section Redaction

theorem crashGuarded_credentialForTest (h : Consistent s) :
    CrashGuarded (fun result t => t = s ∧ ∀ secret, result = .ok secret →
      s.vault id.reference.value = some secret) (ProfileManager.credentialForTest id) s := by
  refine crashGuarded_bind (crashGuarded_stored_profile h) (fun e t _ reached => ⟨reached.1, nofun⟩)
    fun profile t holds reached => ?_
  obtain ⟨rfl, found⟩ := reached
  refine crashGuarded_bind (crashGuarded_linkedReference holds (found profile rfl))
    (fun e t _ reached => ⟨reached.1, nofun⟩) fun reference u holds reached => ?_
  obtain ⟨rfl, same⟩ := reached
  obtain ⟨rfl, -⟩ := same reference rfl
  have called : CrashGuarded (fun (result : Except ProfileManagementError _) t => t = u ∧
      ∀ answer, result = .ok (.ok answer) →
        ∃ secret, answer = .loaded secret ∧ u.vault id.reference.value = some secret)
      (ProfileManager.callVault (.load id.reference)) u := by
    refine crashGuarded_callVault holds fun reply w answer => ?_
    obtain ⟨rfl, loaded⟩ := loadAnswer answer
    exact ⟨holds, rfl, fun answer' ok => loaded answer' (Except.ok.inj ok)⟩
  refine crashGuarded_bind called (fun e t _ reached => ⟨reached.1, nofun⟩) fun reply t holds reached => ?_
  obtain ⟨rfl, loaded⟩ := reached
  cases reply with
  | error e => exact crashGuarded_done holds ⟨rfl, nofun⟩
  | ok answer =>
    obtain ⟨secret, rfl, there⟩ := loaded answer rfl
    refine ⟨holds, rfl, fun secret' same => ?_⟩
    cases Except.ok.inj same
    exact there

theorem crashGuarded_loadCredentials (h : Consistent s) (listed : List ManagedProfile) :
    CrashGuarded (fun result t => t = s ∧ ∀ secrets, result = .ok secrets →
      ∀ managed ∈ listed, ∀ secret, s.vault managed.id.reference.value = some secret →
        secret ∈ secrets) (ProfileManager.loadCredentials listed) s := by
  induction listed with
  | nil => exact ⟨h, rfl, fun _ _ _ mem => by cases mem⟩
  | cons managed rest ih =>
    refine crashGuarded_bind (crashGuarded_credentialForTest h) (fun e t _ reached => ⟨reached.1, nofun⟩)
      fun secret t holds reached => ?_
    obtain ⟨rfl, first⟩ := reached
    refine crashGuarded_bind ih (fun e t _ reached => ⟨reached.1, nofun⟩) fun secrets u holds reached => ?_
    obtain ⟨rfl, others⟩ := reached
    refine ⟨holds, rfl, fun all same other mem found there => ?_⟩
    cases Except.ok.inj same
    rcases List.mem_cons.mp mem with rfl | later
    · rw [first secret rfl] at there
      cases Option.some.inj there
      exact List.mem_cons_self
    · exact List.mem_cons_of_mem _ (others secrets rfl other later found there)

/-- A snapshot without pending records lists every linked profile as stored. -/
theorem snapshot_stored {d : SettingsDocument} {snapshot : ProfileSnapshot}
    (taken : d.snapshot = .ok snapshot) (settled : snapshot.pendingRecovery = 0)
    (linked : d.credentialOf id ≠ none) :
    d.credentialRecovery = [] ∧ ∃ managed ∈ snapshot.profiles,
      managed.id = id ∧ managed.credentialState = .stored := by
  unfold SettingsDocument.snapshot at taken
  split at taken
  next => cases taken
  next =>
    cases Except.ok.inj taken
    have none : d.credentialRecovery = [] := List.length_eq_zero_iff.mp settled
    refine ⟨none, ?_⟩
    unfold SettingsDocument.credentialOf at linked
    cases found : d.profiles.find? id with
    | none =>
      rw [found] at linked
      exact absurd rfl linked
    | some profile =>
      rw [found, Option.bind_some] at linked
      have entry := d.profiles.mem_entries_iff.mpr found
      refine ⟨_, List.mem_map.mpr ⟨(id, profile), entry, rfl⟩, rfl, ?_⟩
      have stored : profile.credential.isSome = true := Option.isSome_iff_ne_none.mpr linked
      simp [SettingsDocument.credentialState, none, stored]

theorem crashGuarded_redaction (h : Consistent s) :
    CrashGuarded (fun result t => ∀ secrets, result = .ok secrets →
      ∀ name secret, t.vault name = some secret → secret ∈ secrets)
      ProfileManager.configuredCredentialsForRedaction s := by
  have read : CrashGuarded (fun result t => t = s ∧ ∀ snapshot, result = .ok snapshot →
      s.document.snapshot = .ok snapshot) (ProfileManager.stored ProfileStore.snapshot) s := by
    have inner : CrashGuarded (fun result t => t = s ∧ ∀ snapshot, result = .ok snapshot →
        s.document.snapshot = .ok snapshot) ProfileStore.snapshot s := by
      refine crashGuarded_bind (crashGuarded_parsed h) (fun e t _ reached => ⟨reached.1, nofun⟩)
        fun d t holds reached => ?_
      obtain ⟨rfl, same⟩ := reached
      cases same d rfl
      exact crashGuarded_done holds ⟨rfl, fun snapshot result => result⟩
    refine crashGuarded_mapError inner fun result t reached => ⟨reached.1, fun snapshot same => ?_⟩
    cases result with
    | error e => cases same
    | ok value =>
      cases Except.ok.inj same
      exact reached.2 _ rfl
  refine crashGuarded_bind read (fun _ _ _ _ => nofun) fun snapshot t holds reached => ?_
  obtain ⟨rfl, taken⟩ := reached
  split
  next => exact crashGuarded_done holds nofun
  next settled =>
    refine Safe.mono (crashGuarded_loadCredentials holds _) fun result u _ reached => ?_
    obtain ⟨rfl, all⟩ := reached
    intro secrets same name secret there
    have quiet : snapshot.pendingRecovery = 0 := by simpa using settled
    have present : u.vault name ≠ none := by
      rw [there]
      exact Option.some_ne_none _
    rcases holds.entries name present with ⟨p, linked, rfl⟩ | ⟨record, mem, rfl⟩
    · obtain ⟨-, managed, mem, rfl, stored⟩ := snapshot_stored (taken snapshot rfl) quiet linked
      refine all secrets same managed ?_ secret there
      simp [mem, stored]
    · have free : u.document.credentialRecovery = [] := by
        have snapped := taken snapshot rfl
        unfold SettingsDocument.snapshot at snapped
        split at snapped
        next => cases snapped
        next =>
          cases Except.ok.inj snapped
          exact List.length_eq_zero_iff.mp quiet
      rw [free] at mem
      cases mem

end Redaction

/-- A management operation run from one state and left in another: completed, or interrupted
between two of its steps. Profiles are inserted and edited without a linkage of their own. -/
inductive ProfileStep (validateProfile : ProviderProfile → Except ProfileManagementError Unit) :
    ProfileWorld → ProfileWorld → Prop
  | upsert {s t : ProfileWorld} {id : ProfileId} {profile : ProviderProfile}
      (fresh : profile.credential = none)
      (run : Visits profileEnvironment (ProfileManager.upsert validateProfile id profile) s t) :
      ProfileStep validateProfile s t
  | duplicate {s t : ProfileWorld} {source destination : ProfileId}
      (run : Visits profileEnvironment
        (ProfileManager.duplicate validateProfile source destination) s t) :
      ProfileStep validateProfile s t
  | activate {s t : ProfileWorld} {chosen : Option ProfileId}
      (run : Visits profileEnvironment (ProfileManager.activate chosen) s t) :
      ProfileStep validateProfile s t
  | setDefaultModel {s t : ProfileWorld} {id : ProfileId} {model : Option String}
      (run : Visits profileEnvironment (ProfileManager.setDefaultModel id model) s t) :
      ProfileStep validateProfile s t
  | setAgentDefaults {s t : ProfileWorld} {id : ProfileId} {model : String} {effort : Option String}
      (run : Visits profileEnvironment (ProfileManager.setAgentDefaults id model effort) s t) :
      ProfileStep validateProfile s t
  | saveCredential {s t : ProfileWorld} {id : ProfileId} {secret : String}
      (run : Visits profileEnvironment (ProfileManager.saveCredential id secret) s t) :
      ProfileStep validateProfile s t
  | replaceCredential {s t : ProfileWorld} {id : ProfileId} {secret : String}
      (run : Visits profileEnvironment (ProfileManager.replaceCredential id secret) s t) :
      ProfileStep validateProfile s t
  | disconnect {s t : ProfileWorld} {id : ProfileId}
      (run : Visits profileEnvironment (ProfileManager.disconnect id) s t) :
      ProfileStep validateProfile s t
  | delete {s t : ProfileWorld} {id : ProfileId}
      (run : Visits profileEnvironment (ProfileManager.delete id) s t) :
      ProfileStep validateProfile s t
  | recoverPending {s t : ProfileWorld}
      (run : Visits profileEnvironment ProfileManager.recoverPending s t) :
      ProfileStep validateProfile s t

/-- The states that runs of management operations reach from an empty document and vault. -/
inductive ProfileReachable
    (validateProfile : ProviderProfile → Except ProfileManagementError Unit) : ProfileWorld → Prop
  | start : ProfileReachable validateProfile ⟨.new, fun _ => none⟩
  | step {s t : ProfileWorld} (reached : ProfileReachable validateProfile s)
      (next : ProfileStep validateProfile s t) : ProfileReachable validateProfile t

section Reachable

variable {validateProfile : ProviderProfile → Except ProfileManagementError Unit}

theorem profileStep_consistent (h : Consistent s) (next : ProfileStep validateProfile s t) :
    Consistent t := by
  cases next with
  | upsert fresh run => exact (harmless_upsert h fresh).visits run
  | duplicate run => exact (harmless_duplicate h _).visits run
  | activate run => exact (harmless_activate h _).visits run
  | setDefaultModel run => exact (harmless_setDefaultModel h _).visits run
  | setAgentDefaults run => exact (harmless_setAgentDefaults h _ _).visits run
  | saveCredential run => exact (harmless_saveCredential h _).visits run
  | replaceCredential run => exact (harmless_replaceCredential h _).visits run
  | disconnect run => exact (harmless_disconnect h).visits run
  | delete run => exact (harmless_delete h).visits run
  | recoverPending run => exact (crashGuarded_recoverPending h).visits run

theorem profileReachable_consistent (reached : ProfileReachable validateProfile s) :
    Consistent s := by
  induction reached with
  | start => exact Consistent.start
  | step _ next ih => exact profileStep_consistent ih next

end Reachable

/-- A declared profile links the vault entry of this name. -/
def LinksEntry (d : SettingsDocument) (p : ProfileId) (name : String) : Prop :=
  ∃ profile reference, d.profiles.find? p = some profile ∧ profile.credential = some reference ∧
    reference.value = name

/-- Every entry is linked once or announced by a record, and every link has its entry. -/
structure Accounted (s : ProfileWorld) : Prop where
  entries : ∀ name, s.vault name ≠ none →
    (∃! p, LinksEntry s.document p name) ∨
      ∃ record ∈ s.document.credentialRecovery, record.reference.value = name
  apart : ∀ record ∈ s.document.credentialRecovery, ∀ p,
    ¬ LinksEntry s.document p record.reference.value
  backed : ∀ p name, LinksEntry s.document p name → s.vault name ≠ none
  active : ∀ p, s.document.activeProfile = some p → ∃ profile,
    s.document.profiles.find? p = some profile

theorem linksEntry_iff (h : Consistent s) {p : ProfileId} {name : String} :
    LinksEntry s.document p name ↔
      s.document.credentialOf p ≠ none ∧ name = p.reference.value := by
  constructor
  · rintro ⟨profile, reference, found, linked, rfl⟩
    have credential : s.document.credentialOf p = some reference := by
      rw [SettingsDocument.credentialOf_of_find? found, linked]
    refine ⟨?_, by rw [h.own p reference credential]⟩
    rw [credential]
    exact Option.some_ne_none _
  · rintro ⟨linked, rfl⟩
    obtain ⟨reference, credential⟩ := Option.ne_none_iff_exists'.mp linked
    obtain ⟨profile, found, own⟩ := Option.bind_eq_some_iff.mp credential
    refine ⟨profile, reference, found, own, ?_⟩
    rw [h.own p reference credential]

theorem Consistent.accounted (h : Consistent s) : Accounted s where
  entries name there := by
    rcases h.entries name there with ⟨p, linked, rfl⟩ | ⟨record, mem, rfl⟩
    · refine .inl ⟨p, (linksEntry_iff h).mpr ⟨linked, rfl⟩, fun q other => ?_⟩
      have same := ((linksEntry_iff h).mp other).2
      exact ProfileId.reference_injective (CredentialReference.ext_value same.symm)
    · exact .inr ⟨record, mem, by rw [h.named record mem]⟩
  apart record mem p linked := by
    obtain ⟨present, same⟩ := (linksEntry_iff h).mp linked
    rw [h.named record mem] at same
    have equal := ProfileId.reference_injective (CredentialReference.ext_value same)
    rw [← equal, h.unlinked record mem] at present
    exact present rfl
  backed p name linked := by
    obtain ⟨present, rfl⟩ := (linksEntry_iff h).mp linked
    exact h.backed p present
  active p chosen := Option.isSome_iff_exists.mp (h.active p chosen)

/-- In every state of every run, however operations are interrupted and whatever errors document
and vault report, entries and links account for each other; a recovery that leaves nothing pending
leaves exactly the linked entries, and the credentials for redaction are all that the vault holds. -/
theorem profileManager_crash_safe
    (validateProfile : ProviderProfile → Except ProfileManagementError Unit) (s : ProfileWorld)
    (reached : ProfileReachable validateProfile s) :
    Accounted s ∧
    (∀ t, Returns profileEnvironment ProfileManager.recoverPending s (.ok 0) t →
      ∀ name, t.vault name ≠ none ↔ ∃ p, LinksEntry t.document p name) ∧
    ∀ t secrets,
      Returns profileEnvironment ProfileManager.configuredCredentialsForRedaction s
        (.ok secrets) t →
      ∀ name secret, t.vault name = some secret → secret ∈ secrets := by
  have h := profileReachable_consistent reached
  refine ⟨h.accounted, fun t returned name => ?_, fun t secrets returned =>
    (crashGuarded_redaction h).returns returned secrets rfl⟩
  have clear := (crashGuarded_recoverPending h).returns returned rfl
  have after := (crashGuarded_recoverPending h).visits returned.visits
  constructor
  · intro there
    rcases after.entries name there with ⟨p, linked, rfl⟩ | ⟨record, mem, -⟩
    · exact ⟨p, (linksEntry_iff after).mpr ⟨linked, rfl⟩⟩
    · rw [clear] at mem
      cases mem
  · rintro ⟨p, linked⟩
    exact after.accounted.backed p name linked

def sampleProfile : ProfileId := ⟨"p", by decide⟩

def sampleDeclared : ProfileWorld where
  document := { SettingsDocument.new with
    profiles := SortedMap.empty.insert sampleProfile .gemini }
  vault := fun _ => none

/-- The save of the profile's credential is announced and the secret already in the vault. -/
def interruptedSave : ProfileWorld where
  document := sampleDeclared.document.pushRecovery
    ⟨sampleProfile, sampleProfile.reference, .uncommittedSave⟩
  vault := Function.update (fun _ => none) sampleProfile.reference.value (some "s")

theorem reachable_sampleDeclared : ProfileReachable (fun _ => .ok ()) sampleDeclared := by
  have run : Visits profileEnvironment
      (ProfileManager.upsert (fun _ => .ok ()) sampleProfile .gemini)
      ⟨.new, fun _ => none⟩ sampleDeclared := .step (t := sampleDeclared) ⟨.inl ⟨rfl, rfl⟩, rfl⟩ .here
  exact .step .start (.upsert rfl run)

theorem call_save_sample (v : FakeVault) (reference : CredentialReference) :
    v.call (.save reference.value "s") =
      (.ok (.saved reference), Function.update v reference.value (some "s")) := by
  have valid : validateSecret "s" = .ok () := by decide
  show v.save reference.value "s" = _
  unfold FakeVault.save
  rw [valid, reference.new_value]

theorem visits_interruptedSave : Visits profileEnvironment
    (ProfileManager.saveCredential sampleProfile "s") sampleDeclared interruptedSave := by
  have read : Returns profileEnvironment
      (ProfileManager.stored (ProfileStore.profile sampleProfile)) sampleDeclared
      (.ok .gemini) sampleDeclared := .step ⟨rfl, .inl rfl⟩ .done
  have begun : Returns profileEnvironment (ProfileManager.stored
      (ProfileStore.beginSave sampleProfile sampleProfile.reference)) sampleDeclared
      (.ok ⟨sampleProfile, sampleProfile.reference, .uncommittedSave⟩)
      ⟨interruptedSave.document, sampleDeclared.vault⟩ :=
    .step ⟨rfl, .inl rfl⟩
      (.step (t := ⟨interruptedSave.document, sampleDeclared.vault⟩) ⟨.inl ⟨rfl, rfl⟩, rfl⟩ .done)
  have called : Visits profileEnvironment (ProfileManager.storeSecret
      ⟨sampleProfile, sampleProfile.reference, .uncommittedSave⟩ "s")
      ⟨interruptedSave.document, sampleDeclared.vault⟩ interruptedSave :=
    .step (t := interruptedSave) ⟨rfl, .inl (call_save_sample _ _).symm⟩ .here
  unfold ProfileManager.saveCredential
  rw [deterministicReference_eq]
  refine read.andThen_visits ?_
  exact begun.andThen_visits called

theorem reachable_interruptedSave : ProfileReachable (fun _ => .ok ()) interruptedSave :=
  .step reachable_sampleDeclared (.saveCredential visits_interruptedSave)

theorem profileManager_crash_safe_interrupted : Accounted interruptedSave :=
  (profileManager_crash_safe (fun _ => .ok ()) _ reachable_interruptedSave).1

end AutoHarness
