import AutoHarness.Credential
import AutoHarness.Chunks

namespace AutoHarness

/-- Errors surfaced by the credential-vault port. -/
inductive VaultError where
  | missingEntry
  | unavailable
  | invalidSecret (reason : String)
  | platform (detail : String)
deriving DecidableEq, Repr

def maxSecretBytes : Nat := 32 * 1024

def validateSecret (secret : String) : Except VaultError Unit :=
  if secret.isEmpty then .error (.invalidSecret "credentials must not be empty")
  else if secret.utf8ByteSize > maxSecretBytes then .error (.invalidSecret "credential is too long")
  else if !secret.toList.all isAsciiGraphic then
    .error (.invalidSecret "credentials must contain visible ASCII characters only")
  else .ok ()

/-- A call of the credential-vault port. -/
inductive VaultOperation where
  | save (reference secret : String)
  | load (reference : CredentialReference)
  | replace (reference : CredentialReference) (secret : String)
  | delete (reference : CredentialReference)

inductive VaultReply where
  | saved (reference : CredentialReference)
  | loaded (secret : String)
  | done
deriving DecidableEq

/-- The name of the entry that a call is about. -/
def VaultOperation.name : VaultOperation → String
  | .save reference _ => trim reference
  | .load reference => reference.value
  | .replace reference _ => reference.value
  | .delete reference => reference.value

/-- The in-process vault: one secret under each reference. -/
abbrev FakeVault := String → Option String

namespace FakeVault

variable (vault : FakeVault)

def save (reference secret : String) : Except VaultError VaultReply × FakeVault :=
  match validateSecret secret with
  | .error e => (.error e, vault)
  | .ok _ =>
    match CredentialReference.new reference with
    | .error reason => (.error (.invalidSecret reason), vault)
    | .ok stored => (.ok (.saved stored), Function.update vault stored.value (some secret))

def load (reference : CredentialReference) : Except VaultError VaultReply × FakeVault :=
  match vault reference.value with
  | some secret => (.ok (.loaded secret), vault)
  | none => (.error .missingEntry, vault)

def replace (reference : CredentialReference) (secret : String) :
    Except VaultError VaultReply × FakeVault :=
  match validateSecret secret with
  | .error e => (.error e, vault)
  | .ok _ =>
    if (vault reference.value).isNone then (.error .missingEntry, vault)
    else (.ok .done, Function.update vault reference.value (some secret))

def delete (reference : CredentialReference) : Except VaultError VaultReply × FakeVault :=
  (.ok .done, Function.update vault reference.value none)

def call : VaultOperation → Except VaultError VaultReply × FakeVault
  | .save reference secret => vault.save reference secret
  | .load reference => vault.load reference
  | .replace reference secret => vault.replace reference secret
  | .delete reference => vault.delete reference

end FakeVault

structure ValidSecret (secret : String) : Prop where
  nonempty : secret.toList ≠ []
  short : secret.toList.length ≤ maxSecretBytes
  graphic : ∀ c ∈ secret.toList, isAsciiGraphic c = true

theorem validateSecret_eq_ok_iff {secret : String} :
    validateSecret secret = .ok () ↔ ValidSecret secret := by
  unfold validateSecret
  split
  next h =>
    refine ⟨nofun, fun v => ?_⟩
    rw [String.isEmpty_iff] at h
    exact absurd (by rw [h]; rfl) v.nonempty
  next filled =>
    split
    next long =>
      refine ⟨nofun, fun v => ?_⟩
      have size := utf8ByteSize_of_graphic v.graphic
      rw [String.ofList_toList] at size
      have short := v.short
      omega
    next short =>
      split
      next h =>
        refine ⟨nofun, fun v => ?_⟩
        have all : secret.toList.all isAsciiGraphic = true := List.all_eq_true.mpr v.graphic
        rw [all] at h
        cases h
      next h =>
        have graphic : ∀ c ∈ secret.toList, isAsciiGraphic c = true := by simpa using h
        have size := utf8ByteSize_of_graphic graphic
        rw [String.ofList_toList] at size
        refine ⟨fun _ => ⟨fun empty => filled ?_, by omega, graphic⟩, fun _ => rfl⟩
        rw [String.isEmpty_iff]
        exact String.toList_inj.mp empty

end AutoHarness
