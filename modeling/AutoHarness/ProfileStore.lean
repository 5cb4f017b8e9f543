import AutoHarness.EffectProgram
import AutoHarness.SettingsDocument
import AutoHarness.Vault

namespace AutoHarness

inductive ProfileStoreError where
  | io
  | invalid (reason : String)
  | unknownProfile
deriving DecidableEq, Repr

inductive StoredCredentialState where
  | disconnected
  | stored
  | recoveryPending
deriving DecidableEq, Repr

structure ManagedProfile where
  id : ProfileId
  profile : ProviderProfile
  active : Bool
  credentialState : StoredCredentialState
deriving DecidableEq

structure ProfileSnapshot where
  profiles : List ManagedProfile
  pendingRecovery : Nat

namespace SettingsDocument

variable (d : SettingsDocument)

def credentialState (id : ProfileId) (profile : ProviderProfile) : StoredCredentialState :=
  if d.credentialRecovery.any fun record => record.profile = id then .recoveryPending
  else if profile.credential.isSome then .stored
  else .disconnected

/-- `ProfileStore::snapshot`: an active profile that is not declared does not resolve. -/
def snapshot : Except ProfileStoreError ProfileSnapshot :=
  if d.activeProfile.any fun id => (d.profiles.find? id).isNone then .error .io
  else .ok {
    profiles := d.profiles.entries.map fun entry =>
      ⟨entry.1, entry.2, d.activeProfile = some entry.1, d.credentialState entry.1 entry.2⟩
    pendingRecovery := d.credentialRecovery.length }

def profile (id : ProfileId) : Except ProfileStoreError ProviderProfile :=
  match d.snapshot with
  | .error e => .error e
  | .ok snapshot =>
    match snapshot.profiles.find? fun candidate => candidate.id = id with
    | none => .error .unknownProfile
    | some candidate => .ok candidate.profile

def pushRecovery (record : CredentialRecoveryRecord) : SettingsDocument :=
  { d with
    credentialRecovery :=
      (d.credentialRecovery.filter fun candidate => candidate.reference ≠ record.reference) ++
        [record] }

def removeRecovery (record : CredentialRecoveryRecord) : SettingsDocument :=
  { d with
    credentialRecovery := d.credentialRecovery.filter fun candidate => candidate ≠ record }

/-- The linkage that a replaced profile keeps. -/
def keptCredential (existing replacement : ProviderProfile) : Option CredentialReference :=
  match existing.credential with
  | some reference => some reference
  | none => replacement.credential

def upsertProfile (id : ProfileId) (replacement : ProviderProfile) :
    Except ProfileStoreError SettingsDocument :=
  match d.profiles.find? id with
  | none => .ok { d with profiles := d.profiles.insert id replacement }
  | some existing =>
    if existing.credential.isSome ∧ existing.kind ≠ replacement.kind then
      .error (.invalid "disconnect the stored credential before changing provider kind")
    else .ok { d with
      profiles := d.profiles.insert id
        { replacement with credential := keptCredential existing replacement } }

def setActiveProfile : Option ProfileId → Except ProfileStoreError SettingsDocument
  | some id =>
    if (d.profiles.find? id).isNone then .error .unknownProfile
    else .ok { d with activeProfile := some id }
  | none => .ok { d with activeProfile := none }

/-- Set the linkage of a declared profile. -/
def linkCredential (id : ProfileId) (credential : Option CredentialReference) :
    Except ProfileStoreError SettingsDocument :=
  match d.profiles.find? id with
  | none => .error .unknownProfile
  | some profile => .ok { d with profiles := d.profiles.insert id { profile with credential } }

def commitSave (record : CredentialRecoveryRecord) : Except ProfileStoreError SettingsDocument :=
  (d.linkCredential record.profile (some record.reference)).map fun linked =>
    linked.removeRecovery record

def disconnectWith (record : CredentialRecoveryRecord) :
    Except ProfileStoreError SettingsDocument :=
  (d.linkCredential record.profile none).map fun unlinked => unlinked.pushRecovery record

def deleteWith (record : CredentialRecoveryRecord) : Except ProfileStoreError SettingsDocument :=
  match d.profiles.find? record.profile with
  | none => .error .unknownProfile
  | some _ => .ok ({ d with
      profiles := d.profiles.erase record.profile
      activeProfile := if d.activeProfile = some record.profile then none
        else d.activeProfile }.pushRecovery record)

def profileLinks (id : ProfileId) (reference : CredentialReference) : Bool :=
  (d.profiles.find? id).any fun profile => profile.credential = some reference

end SettingsDocument

/-- What a profile operation asks of the document file and of the vault. -/
inductive ProfileEffect where
  | readDocument
  | writeDocument (mutate : SettingsDocument → Except ProfileStoreError SettingsDocument)
  | callVault (operation : VaultOperation)

def ProfileEffect.Reply : ProfileEffect → Type
  | .readDocument => Except ProfileStoreError SettingsDocument
  | .writeDocument _ => Except ProfileStoreError Unit
  | .callVault _ => Except VaultError VaultReply

/-- Programs over the document and the vault. -/
abbrev ProfileProgram (ε α : Type) := EffectProgram.Fallible ProfileEffect ProfileEffect.Reply ε α

namespace ProfileStore

def parsed : ProfileProgram ProfileStoreError SettingsDocument :=
  EffectProgram.emit (ρ := ProfileEffect.Reply) ProfileEffect.readDocument

def mutateDocument (mutate : SettingsDocument → Except ProfileStoreError SettingsDocument) :
    ProfileProgram ProfileStoreError Unit :=
  EffectProgram.emit (ρ := ProfileEffect.Reply) (ProfileEffect.writeDocument mutate)

def ofResult {ε α : Type} (result : Except ε α) : ProfileProgram ε α := .done result

def snapshot : ProfileProgram ProfileStoreError ProfileSnapshot := do
  let d ← parsed
  ofResult d.snapshot

def profile (id : ProfileId) : ProfileProgram ProfileStoreError ProviderProfile := do
  let d ← parsed
  ofResult (d.profile id)

def upsertProfile (id : ProfileId) (replacement : ProviderProfile) :
    ProfileProgram ProfileStoreError Unit :=
  mutateDocument fun d => d.upsertProfile id replacement

def setActiveProfile (id : Option ProfileId) : ProfileProgram ProfileStoreError Unit :=
  mutateDocument fun d => d.setActiveProfile id

def beginSave (id : ProfileId) (reference : CredentialReference) :
    ProfileProgram ProfileStoreError CredentialRecoveryRecord := do
  let _ ← profile id
  mutateDocument fun d => .ok (d.pushRecovery ⟨id, reference, .uncommittedSave⟩)
  pure ⟨id, reference, .uncommittedSave⟩

def commitSave (record : CredentialRecoveryRecord) : ProfileProgram ProfileStoreError Unit :=
  mutateDocument fun d => d.commitSave record

def unlink (id : ProfileId) (linked : CredentialReference) :
    ProfileProgram ProfileStoreError (Option CredentialRecoveryRecord) := do
  let reference ← ofResult ((CredentialReference.new linked.value).mapError .invalid)
  mutateDocument fun d => d.disconnectWith ⟨id, reference, .delete⟩
  pure (some ⟨id, reference, .delete⟩)

def beginDisconnect (id : ProfileId) :
    ProfileProgram ProfileStoreError (Option CredentialRecoveryRecord) := do
  let profile ← profile id
  match profile.credential with
  | none => pure none
  | some reference => unlink id reference

def beginDelete (id : ProfileId) : ProfileProgram ProfileStoreError CredentialRecoveryRecord := do
  let _ ← profile id
  let reference ← ofResult ((deterministicReference id).mapError .invalid)
  mutateDocument fun d => d.deleteWith ⟨id, reference, .delete⟩
  pure ⟨id, reference, .delete⟩

def finishRecovery (record : CredentialRecoveryRecord) : ProfileProgram ProfileStoreError Unit :=
  mutateDocument fun d => .ok (d.removeRecovery record)

def recoveryRecords : ProfileProgram ProfileStoreError (List CredentialRecoveryRecord) := do
  let d ← parsed
  pure d.credentialRecovery

def profileLinks (id : ProfileId) (reference : CredentialReference) :
    ProfileProgram ProfileStoreError Bool := do
  let d ← parsed
  pure (d.profileLinks id reference)

end ProfileStore

end AutoHarness
