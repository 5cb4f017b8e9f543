import AutoHarness.ProfileStore

namespace AutoHarness

inductive ProfileManagementError where
  | store (error : ProfileStoreError)
  | vault (error : VaultError)
  | conflict (reason : String)
  | credentialNotStored
  | recoveryPending
deriving DecidableEq, Repr

namespace ProfileManager

open ProfileStore (ofResult)

/-- A store operation inside a management operation. -/
def stored {α : Type} (p : ProfileProgram ProfileStoreError α) :
    ProfileProgram ProfileManagementError α :=
  EffectProgram.mapError .store p

/-- The reply of the vault, as a value. -/
def callVault {ε : Type} (operation : VaultOperation) :
    ProfileProgram ε (Except VaultError VaultReply) :=
  EffectProgram.bind
    (EffectProgram.emit (ρ := ProfileEffect.Reply) (ProfileEffect.callVault operation))
    fun reply => .done (.ok reply)

variable (validateProfile : ProviderProfile → Except ProfileManagementError Unit)

def upsert (id : ProfileId) (profile : ProviderProfile) :
    ProfileProgram ProfileManagementError Unit := do
  ofResult (validateProfile profile)
  stored (ProfileStore.upsertProfile id profile)

def copyProfile (source destination : ProfileId) : ProfileProgram ProfileManagementError Unit := do
  let profile ← stored (ProfileStore.profile source)
  ofResult (validateProfile profile.withoutCredential)
  stored (ProfileStore.upsertProfile destination profile.withoutCredential)

/-- Only a destination that reads back counts as existing. -/
def duplicate (source destination : ProfileId) : ProfileProgram ProfileManagementError Unit :=
  EffectProgram.bind (ProfileStore.profile destination) fun
    | .ok _ => .done (.error (.conflict "the destination profile already exists"))
    | .error _ => copyProfile validateProfile source destination

def activate (profile : Option ProfileId) : ProfileProgram ProfileManagementError Unit :=
  stored (ProfileStore.setActiveProfile profile)

def setDefaultModel (id : ProfileId) (model : Option String) :
    ProfileProgram ProfileManagementError Unit := do
  let profile ← stored (ProfileStore.profile id)
  let configured ← ofResult ((profile.withDefaultModel model).mapError fun reason =>
    .store (.invalid reason))
  stored (ProfileStore.upsertProfile id configured)

def withAgentDefaults (profile : ProviderProfile) (model : String) (effort : Option String) :
    Except String ProviderProfile := do
  let profile ← profile.withDefaultModel (some model)
  profile.withDefaultReasoningEffort effort

def setAgentDefaults (id : ProfileId) (model : String) (effort : Option String) :
    ProfileProgram ProfileManagementError Unit := do
  let profile ← stored (ProfileStore.profile id)
  let configured ← ofResult ((withAgentDefaults profile model effort).mapError fun reason =>
    .store (.invalid reason))
  stored (ProfileStore.upsertProfile id configured)

/-- The document write that ends a save; its failure leaves the recovery record. -/
def commitSave (record : CredentialRecoveryRecord) :
    ProfileProgram ProfileManagementError CredentialReference :=
  EffectProgram.bind (ProfileStore.commitSave record) fun
    | .ok _ => .done (.ok record.reference)
    | .error _ => .done (.error .recoveryPending)

def storeSecret (record : CredentialRecoveryRecord) (secret : String) :
    ProfileProgram ProfileManagementError CredentialReference := do
  match ← callVault (.save record.reference.value secret) with
  | .error e => ofResult (.error (.vault e))
  | .ok _ => commitSave record

def saveCredential (id : ProfileId) (secret : String) :
    ProfileProgram ProfileManagementError CredentialReference := do
  let profile ← stored (ProfileStore.profile id)
  if profile.credential.isSome then
    ofResult (.error (.conflict "a stored credential already exists; replace it explicitly"))
  else do
    let reference ← ofResult ((deterministicReference id).mapError fun reason =>
      .store (.invalid reason))
    let record ← stored (ProfileStore.beginSave id reference)
    storeSecret record secret

/-- The reference that a profile links. -/
def linkedReference (profile : ProviderProfile) :
    Except ProfileManagementError CredentialReference :=
  match profile.credential with
  | none => .error .credentialNotStored
  | some reference =>
    (CredentialReference.new reference.value).mapError fun reason => .store (.invalid reason)

def replaceCredential (id : ProfileId) (secret : String) :
    ProfileProgram ProfileManagementError Unit := do
  let profile ← stored (ProfileStore.profile id)
  let reference ← ofResult (linkedReference profile)
  let reply ← callVault (.replace reference secret)
  ofResult ((reply.map fun _ => ()).mapError .vault)

/-- Delete the vault entry, then drop the recovery record; an entry that is already absent counts
as deleted. -/
def finishVaultDelete (record : CredentialRecoveryRecord) :
    ProfileProgram ProfileManagementError Unit := do
  match ← callVault (.delete record.reference) with
  | .ok _ => EffectProgram.mapError (fun _ => .recoveryPending) (ProfileStore.finishRecovery record)
  | .error .missingEntry =>
    EffectProgram.mapError (fun _ => .recoveryPending) (ProfileStore.finishRecovery record)
  | .error _ => ofResult (.error .recoveryPending)

def disconnect (id : ProfileId) : ProfileProgram ProfileManagementError Unit := do
  match ← stored (ProfileStore.beginDisconnect id) with
  | none => pure ()
  | some record => finishVaultDelete record

def delete (id : ProfileId) : ProfileProgram ProfileManagementError Unit := do
  let record ← stored (ProfileStore.beginDelete id)
  finishVaultDelete record

def credentialForTest (id : ProfileId) : ProfileProgram ProfileManagementError String := do
  let profile ← stored (ProfileStore.profile id)
  let reference ← ofResult (linkedReference profile)
  match ← callVault (.load reference) with
  | .ok (.loaded secret) => pure secret
  | .ok _ => ofResult (.error .credentialNotStored)
  | .error e => ofResult (.error (.vault e))

def loadCredentials : List ManagedProfile → ProfileProgram ProfileManagementError (List String)
  | [] => pure []
  | managed :: rest => do
    let secret ← credentialForTest managed.id
    let secrets ← loadCredentials rest
    pure (secret :: secrets)

def configuredCredentialsForRedaction : ProfileProgram ProfileManagementError (List String) := do
  let snapshot ← stored ProfileStore.snapshot
  if snapshot.pendingRecovery ≠ 0 then ofResult (.error .recoveryPending)
  else
    loadCredentials <|
      (snapshot.profiles.mergeSort fun left right => left.id ≤ right.id).filter fun managed =>
        managed.credentialState = .stored

/-- Whether an uncommitted save turns out to be linked after all. -/
def alreadyLinked (record : CredentialRecoveryRecord) :
    ProfileProgram ProfileManagementError Bool :=
  match record.kind with
  | .uncommittedSave => stored (ProfileStore.profileLinks record.profile record.reference)
  | .delete => pure false

def reconcile (record : CredentialRecoveryRecord) (linked : Bool) :
    ProfileProgram ProfileManagementError Unit :=
  if linked then stored (ProfileStore.finishRecovery record) else finishVaultDelete record

/-- Reconcile record after record and count those that remain pending. -/
def recoverRecords : List CredentialRecoveryRecord → Nat →
    ProfileProgram ProfileManagementError Nat
  | [], remaining => pure remaining
  | record :: rest, remaining => do
    let linked ← alreadyLinked record
    EffectProgram.bind (reconcile record linked) fun
      | .ok _ => recoverRecords rest remaining
      | .error _ => recoverRecords rest (remaining + 1)

def recoverPending : ProfileProgram ProfileManagementError Nat := do
  let records ← stored ProfileStore.recoveryRecords
  recoverRecords records 0

end ProfileManager

end AutoHarness
