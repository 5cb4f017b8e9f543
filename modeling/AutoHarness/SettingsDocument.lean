import AutoHarness.Credential
import AutoHarness.Preferences
import AutoHarness.SortedMap
import Mathlib.Data.String.Basic

namespace AutoHarness

/-- Profile names are ordered as the strings they wrap. -/
instance : LinearOrder ProfileId where
  le p q := p.value ≤ q.value
  lt p q := p.value < q.value
  le_refl p := le_refl p.value
  le_trans p q r := le_trans (a := p.value) (b := q.value) (c := r.value)
  lt_iff_le_not_ge p q := lt_iff_le_not_ge (a := p.value) (b := q.value)
  le_antisymm _ _ hpq hqp := ProfileId.ext_value (le_antisymm hpq hqp)
  le_total p q := le_total p.value q.value
  toDecidableLE p q := inferInstanceAs (Decidable (p.value ≤ q.value))
  toDecidableLT p q := inferInstanceAs (Decidable (p.value < q.value))
  toDecidableEq := inferInstance

inductive ProviderKind where
  | gemini
  | router
  | codexCli
deriving DecidableEq, Repr

/-- Non-secret connection fields for one named provider configuration. -/
structure ProviderProfile where
  kind : ProviderKind
  baseUrl : Option String
  project : Option String
  authHeader : Option String
  modelsPath : Option String
  chatPath : Option String
  defaultModel : Option String
  defaultReasoningEffort : Option String
  credential : Option CredentialReference
deriving DecidableEq

namespace ProviderProfile

def gemini : ProviderProfile := ⟨.gemini, none, none, none, none, none, none, none, none⟩

def codexCli : ProviderProfile := ⟨.codexCli, none, none, none, none, none, none, none, none⟩

def withoutCredential (profile : ProviderProfile) : ProviderProfile :=
  { profile with credential := none }

def withDefaultModel (profile : ProviderProfile) (model : Option String) :
    Except String ProviderProfile :=
  if model.any fun text => isBlank text || text.utf8ByteSize > 256 || text.toList.any isControl then
    .error "default model identifier is invalid"
  else .ok { profile with defaultModel := model }

def supportedReasoningEfforts : List String :=
  ["none", "minimal", "low", "medium", "high", "xhigh", "max"]

def withDefaultReasoningEffort (profile : ProviderProfile) (effort : Option String) :
    Except String ProviderProfile :=
  if effort.any fun value => value ∉ supportedReasoningEfforts then
    .error "default reasoning effort is invalid"
  else .ok { profile with defaultReasoningEffort := effort }

end ProviderProfile

inductive CredentialRecoveryKind where
  | uncommittedSave
  | delete
deriving DecidableEq, Repr

/-- Durable recovery action for a mutation of document and vault. -/
structure CredentialRecoveryRecord where
  profile : ProfileId
  reference : CredentialReference
  kind : CredentialRecoveryKind
deriving DecidableEq

/-- The typed settings document; its schema version is always the current one. -/
structure SettingsDocument where
  provider : Option ProviderKind
  profiles : SortedMap ProfileId ProviderProfile
  activeProfile : Option ProfileId
  credentialRecovery : List CredentialRecoveryRecord
  localProfile : LocalProfile

def SettingsDocument.new : SettingsDocument := ⟨none, .empty, none, [], .new⟩

end AutoHarness
