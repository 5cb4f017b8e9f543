import AutoHarness.FallibleRun
import AutoHarness.SettingsResolver
import Mathlib.Data.Option.Basic

open FallibleRun (bind_eq_ok_iff)

namespace AutoHarness

open Serde SettingsParser

section Decoding

variable {value : JsonValue} {document : SettingsDocument}

/-- What stands for the display label of a layer. -/
def displayLabelAt (value : JsonValue) : Option JsonValue :=
  (member documentNames "local_profile" value).bind (member localProfileNames "display_label")

def preferencesAt (value : JsonValue) : Option JsonValue :=
  (member documentNames "local_profile" value).bind (member localProfileNames "preferences")

/-- What stands for the submit behaviour in the layout of a schema version. -/
def composerAt (version : Nat) (value : JsonValue) : Option JsonValue :=
  if version < settingsSchemaVersion then
    (preferencesAt value).bind (member legacyNames "composer_submit_behavior")
  else ((preferencesAt value).bind (member preferenceNames "shared")).bind
    (member sharedNames "composer_submit_behavior")

theorem sharedPreferences_composer {shared : SharedPreferences}
    (h : sharedPreferences value = some shared) :
    shared.composerSubmitBehavior = none ↔
      Silent (member sharedNames "composer_submit_behavior" value) := by
  unfold sharedPreferences at h
  simp only [Option.bind_eq_bind, Option.bind_eq_some_iff] at h
  obtain ⟨-, -, theme, -, color, -, motion, -, density, -, stamp, -, composer, hc, rest⟩ := h
  cases Option.some.inj rest
  exact optional_none_iff hc

theorem legacyPreferences_composer {preferences : LocalPreferences}
    (h : legacyPreferences value = some preferences) :
    preferences.shared.composerSubmitBehavior = none ↔
      Silent (member legacyNames "composer_submit_behavior" value) := by
  unfold legacyPreferences at h
  simp only [Option.bind_eq_bind, Option.bind_eq_some_iff] at h
  obtain ⟨-, -, theme, -, color, -, glyph, -, motion, -, density, -, layout, -, stamp, -, composer, hc,
    status, -, rest⟩ := h
  cases Option.some.inj rest
  exact optional_none_iff hc

theorem localPreferences_composer {preferences : LocalPreferences}
    (h : localPreferences value = some preferences) :
    preferences.shared.composerSubmitBehavior = none ↔
      Silent ((member preferenceNames "shared" value).bind
        (member sharedNames "composer_submit_behavior")) := by
  unfold localPreferences at h
  simp only [Option.bind_eq_bind, Option.bind_eq_some_iff] at h
  obtain ⟨-, -, shared, hs, gui, -, terminal, -, rest⟩ := h
  cases Option.some.inj rest
  cases present : member preferenceNames "shared" value with
  | none =>
    rw [present] at hs
    cases Option.some.inj hs
    simp [SharedPreferences.empty, Silent]
  | some inner =>
    rw [present] at hs
    exact sharedPreferences_composer hs

theorem localProfile_leaves {profile : LocalProfile} (h : localProfile value = some profile) :
    (profile.displayLabel = none ↔ Silent (member localProfileNames "display_label" value)) ∧
      (profile.preferences.shared.composerSubmitBehavior = none ↔
        Silent (((member localProfileNames "preferences" value).bind
          (member preferenceNames "shared")).bind
            (member sharedNames "composer_submit_behavior"))) := by
  unfold localProfile at h
  simp only [Option.bind_eq_bind, Option.bind_eq_some_iff] at h
  obtain ⟨-, -, label, hl, preferences, hp, rest⟩ := h
  cases Option.some.inj rest
  refine ⟨optional_none_iff hl, ?_⟩
  cases present : member localProfileNames "preferences" value with
  | none =>
    rw [present] at hp
    cases Option.some.inj hp
    simp [LocalPreferences.new, SharedPreferences.empty, Silent]
  | some inner =>
    rw [present] at hp
    exact localPreferences_composer hp

theorem legacyLocalProfile_leaves {profile : LocalProfile}
    (h : legacyLocalProfile value = some profile) :
    (profile.displayLabel = none ↔ Silent (member localProfileNames "display_label" value)) ∧
      (profile.preferences.shared.composerSubmitBehavior = none ↔
        Silent ((member localProfileNames "preferences" value).bind
          (member legacyNames "composer_submit_behavior"))) := by
  unfold legacyLocalProfile at h
  simp only [Option.bind_eq_bind, Option.bind_eq_some_iff] at h
  obtain ⟨-, -, label, hl, preferences, hp, rest⟩ := h
  cases Option.some.inj rest
  refine ⟨optional_none_iff hl, ?_⟩
  cases present : member localProfileNames "preferences" value with
  | none =>
    rw [present] at hp
    cases Option.some.inj hp
    simp [LocalPreferences.new, SharedPreferences.empty, Silent]
  | some inner =>
    rw [present] at hp
    exact legacyPreferences_composer hp

/-- An absent or `null` profile is the empty one; any other is read in its layout. -/
theorem versionedLocalProfile_cases {version : Nat} {field present : Option JsonValue}
    {profile : LocalProfile} (hp : optional some field = some present)
    (h : versionedLocalProfile version present = some profile) :
    (profile = .new ∧ Silent field) ∨ ∃ inner, field = some inner ∧
      (if version < settingsSchemaVersion then legacyLocalProfile inner else localProfile inner) =
        some profile := by
  have silent := optional_none_iff hp
  cases present with
  | none => exact .inl ⟨(Option.some.inj h).symm, silent.mp rfl⟩
  | some inner =>
    unfold Serde.optional at hp
    split at hp
    next => cases hp
    next => cases hp
    next => exact .inr ⟨inner, by simpa using hp, h⟩

theorem silent_bind_member {field : Option JsonValue} (h : Silent field) (names : List String)
    (name : String) : field.bind (member names name) = none := by
  unfold Silent at h
  split at h
  next => rfl
  next => rfl
  next => exact h.elim

/-- What a document holds, from the fields of its JSON value. -/
structure Decoded (value : JsonValue) (document : SettingsDocument) : Prop where
  version : ∃ version present,
    required supportedVersion (member documentNames "schema_version" value) = some version ∧
    optional some (member documentNames "local_profile" value) = some present ∧
    versionedLocalProfile version present = some document.localProfile
  provider : optional providerKind (member documentNames "provider" value) = some document.provider
  profiles : orDefault SettingsParser.profiles .empty (member documentNames "profiles" value) =
    some document.profiles
  active : optional profileId (member documentNames "active_profile" value) =
    some document.activeProfile

theorem settingsDocument_decoded (h : settingsDocument value = some document) :
    Decoded value document := by
  unfold settingsDocument at h
  simp only [Option.bind_eq_bind, Option.bind_eq_some_iff] at h
  obtain ⟨-, -, version, hv, provider, hp, profiles, hs, active, ha, recovery, -, present, hl,
    profile, hf, rest⟩ := h
  cases Option.some.inj rest
  exact ⟨⟨version, present, hv, hl, hf⟩, hp, hs, ha⟩

theorem supportedVersion_declared {fields : List (String × JsonValue)} {version : Nat}
    (h : required supportedVersion (member documentNames "schema_version" (.object fields)) =
      some version) : declaredVersion (.object fields) = version := by
  unfold required at h
  split at h
  next => cases h
  next inner present =>
    have found : JsonValue.get? "schema_version" (.object fields) = some inner := present
    unfold supportedVersion unsigned at h
    simp only [Option.bind_eq_bind, Option.bind_eq_some_iff] at h
    obtain ⟨number, hn, -, -, rest⟩ := h
    cases Option.some.inj rest
    unfold declaredVersion
    rw [found]
    split at hn
    next count =>
      split at hn
      next =>
        cases Option.some.inj hn
        rfl
      next => cases hn
    next => cases hn

/-- The two reserved leaves of an accepted layer are read from exactly these places. -/
theorem decoded_leaves {fields : List (String × JsonValue)}
    (h : Decoded (.object fields) document) :
    (document.localProfile.displayLabel = none ↔ Silent (displayLabelAt (.object fields))) ∧
      (document.localProfile.preferences.shared.composerSubmitBehavior = none ↔
        Silent (composerAt (declaredVersion (.object fields)) (.object fields))) := by
  obtain ⟨version, present, hv, hl, hf⟩ := h.version
  rw [supportedVersion_declared hv]
  unfold displayLabelAt composerAt preferencesAt
  obtain ⟨empty, silent⟩ | ⟨inner, found, read⟩ := versionedLocalProfile_cases hl hf
  · rw [empty]
    simp only [silent_bind_member silent, Option.bind_none, ite_self]
    exact ⟨by simp [LocalProfile.new, Silent],
      by simp [LocalProfile.new, LocalPreferences.new, SharedPreferences.empty, Silent]⟩
  · rw [found]
    by_cases legacy : version < settingsSchemaVersion
    · rw [if_pos legacy] at read ⊢
      exact legacyLocalProfile_leaves read
    · rw [if_neg legacy] at read ⊢
      exact localProfile_leaves read

end Decoding

section Filter

variable {fields : List (String × JsonValue)} {document : SettingsDocument}

theorem validateKeys_ok {check : String → JsonValue → Except SettingsError Unit}
    (h : validateKeys check (.object fields) = .ok ()) :
    ∀ field ∈ fields, check field.1 field.2 = .ok () := by
  change fields.forM (fun field => check field.1 field.2) = .ok () at h
  induction fields with
  | nil => simp
  | cons field rest ih =>
    obtain ⟨⟨⟩, first, later⟩ := bind_eq_ok_iff.mp h
    intro other mem
    rcases List.mem_cons.mp mem with rfl | mem
    · exact first
    · exact ih later other mem

theorem workspaceDocument_key {version : Nat} {key : String} {value : JsonValue}
    (h : validateWorkspaceDocument version (.object fields) = .ok ())
    (mem : (key, value) ∈ fields) : key = "schema_version" ∨ key = "local_profile" := by
  have passed := validateKeys_ok h _ mem
  by_cases first : key = "schema_version"
  · exact .inl first
  · by_cases second : key = "local_profile"
    · exact .inr second
    · simp [first, second] at passed

theorem workspaceDocument_absent {version : Nat} {name : String}
    (h : validateWorkspaceDocument version (.object fields) = .ok ())
    (notVersion : name ≠ "schema_version") (notProfile : name ≠ "local_profile") :
    member documentNames name (.object fields) = none := by
  refine lookup_eq_none ?_
  rintro ⟨key, value⟩ mem same
  have allowed := workspaceDocument_key h mem
  simp only at same
  rw [same] at allowed
  exact allowed.elim notVersion notProfile

/-- What an accepted workspace layer is made of. -/
theorem readLayer_workspace {value : JsonValue}
    (h : readLayer .workspaceFile value = .ok document) :
    ∃ fields, value = .object fields ∧
      validateWorkspaceDocument (declaredVersion value) value = .ok () ∧
      settingsDocument value = some document := by
  unfold readLayer at h
  split at h
  next => cases h
  next object =>
    split at h
    next => cases h
    next =>
      obtain ⟨⟨⟩, admitted, decoded⟩ := bind_eq_ok_iff.mp h
      have read : settingsDocument value = some document := by
        unfold decodeLayer at decoded
        split at decoded
        next => cases decoded
        next found => rw [found, Except.ok.inj decoded]
      cases value with
      | object fields => exact ⟨fields, rfl, admitted, read⟩
      | _ => simp [JsonValue.isObject] at object

/-- No accepted workspace layer names a provider, a profile or an active profile. -/
theorem readLayer_workspace_silent {value : JsonValue}
    (h : readLayer .workspaceFile value = .ok document) :
    document.provider = none ∧ document.activeProfile = none ∧ document.profiles = .empty := by
  obtain ⟨fields, rfl, admitted, read⟩ := readLayer_workspace h
  have decoded := settingsDocument_decoded read
  have provider := decoded.provider
  have active := decoded.active
  have profiles := decoded.profiles
  rw [workspaceDocument_absent admitted (by decide) (by decide)] at provider active profiles
  exact ⟨(Option.some.inj provider).symm, (Option.some.inj active).symm,
    (Option.some.inj profiles).symm⟩

end Filter

section Refusals

variable {value : JsonValue} {e : SettingsError}

/-- The key filter fails in one way only. -/
def Refusal (e : SettingsError) : Prop := ∃ key, e = .disallowedWorkspaceKey key

theorem validateKeys_refusal {check : String → JsonValue → Except SettingsError Unit}
    (refuses : ∀ key inner e, check key inner = .error e → Refusal e)
    (h : validateKeys check value = .error e) : Refusal e := by
  cases value with
  | object fields =>
    change fields.forM (fun field => check field.1 field.2) = .error e at h
    induction fields with
    | nil => cases h
    | cons field rest ih =>
      change (check field.1 field.2 >>= fun _ => rest.forM fun field => check field.1 field.2) = _ at h
      cases first : check field.1 field.2 with
      | error reason =>
        rw [first] at h
        cases Except.error.inj h
        exact refuses _ _ _ first
      | ok passed =>
        rw [first] at h
        exact ih h
  | _ => cases h

theorem validateGroup_refusal {group : String} {permitted : List String}
    (h : validateWorkspacePreferenceGroup group permitted value = .error e) : Refusal e := by
  refine validateKeys_refusal ?_ h
  intro key inner e failed
  split at failed
  next => cases failed
  next => exact ⟨_, (Except.error.inj failed).symm⟩

theorem validatePreferences_refusal {version : Nat}
    (h : validateWorkspacePreferences version value = .error e) : Refusal e := by
  unfold validateWorkspacePreferences at h
  split at h
  next =>
    refine validateKeys_refusal ?_ h
    intro key inner e failed
    split at failed
    next => cases failed
    next => exact ⟨_, (Except.error.inj failed).symm⟩
  next =>
    refine validateKeys_refusal ?_ h
    intro key inner e failed
    split at failed
    next => exact validateGroup_refusal failed
    next =>
      split at failed
      next => exact validateGroup_refusal failed
      next =>
        split at failed
        next => exact validateGroup_refusal failed
        next => exact ⟨_, (Except.error.inj failed).symm⟩

theorem validateWorkspaceDocument_refusal {version : Nat}
    (h : validateWorkspaceDocument version value = .error e) : Refusal e := by
  refine validateKeys_refusal ?_ h
  intro key inner e failed
  split at failed
  next => cases failed
  next =>
    split at failed
    next =>
      refine validateKeys_refusal ?_ failed
      intro name leaf e failed
      split at failed
      next => exact validatePreferences_refusal failed
      next => exact ⟨_, (Except.error.inj failed).symm⟩
    next => exact ⟨_, (Except.error.inj failed).symm⟩

end Refusals

section Objects

variable {check : String → JsonValue → Except SettingsError Unit} {names : List String}
  {name : String} {value inner : JsonValue}

/-- An array is the one shape that the filter does not look into and a struct is read from. -/
def NotArray : Option JsonValue → Prop
  | some (.array _) => False
  | _ => True

theorem validateKeys_member (h : validateKeys check value = .ok ()) (shape : NotArray (some value))
    (found : member names name value = some inner) : check name inner = .ok () := by
  cases value with
  | object fields => exact validateKeys_ok h _ (lookup_mem found)
  | array items => exact shape.elim
  | _ => cases found

theorem validateKeys_absent (h : validateKeys check value = .ok ()) (shape : NotArray (some value))
    (refused : ∀ inner, check name inner ≠ .ok ()) : member names name value = none := by
  cases found : member names name value with
  | none => rfl
  | some inner => exact absurd (validateKeys_member h shape found) (refused inner)

theorem workspacePreferences_silent {version : Nat}
    (h : validateWorkspacePreferences version value = .ok ()) (shape : NotArray (some value))
    (group : NotArray (member preferenceNames "shared" value)) :
    Silent (if version < settingsSchemaVersion then
        member legacyNames "composer_submit_behavior" value
      else (member preferenceNames "shared" value).bind
        (member sharedNames "composer_submit_behavior")) := by
  unfold validateWorkspacePreferences at h
  split at h
  next legacy =>
    rw [if_pos legacy, validateKeys_absent h shape (by simp [workspaceLegacyKeys])]
    trivial
  next current =>
    rw [if_neg current]
    cases found : member preferenceNames "shared" value with
    | none => trivial
    | some inner =>
      rw [found] at group
      have passed := validateKeys_member h shape found
      simp only [if_pos] at passed
      rw [Option.bind_some, validateKeys_absent passed group (by simp [workspaceSharedKeys])]
      trivial

/-- Without an array in one of the three places the filter keeps the reserved leaves out. -/
theorem validateWorkspaceDocument_silent {version : Nat}
    (h : validateWorkspaceDocument version value = .ok ()) (document : NotArray (some value))
    (profile : NotArray (member documentNames "local_profile" value))
    (preferences : NotArray (preferencesAt value))
    (shared : NotArray ((preferencesAt value).bind (member preferenceNames "shared"))) :
    Silent (displayLabelAt value) ∧ Silent (composerAt version value) := by
  unfold displayLabelAt composerAt
  unfold preferencesAt at *
  cases found : member documentNames "local_profile" value with
  | none => simp [Silent]
  | some inner =>
    rw [found] at profile preferences shared
    simp only [Option.bind_some] at preferences shared ⊢
    have passed := validateKeys_member h document found
    simp only [if_pos, String.reduceEq, if_false] at passed
    refine ⟨?_, ?_⟩
    · rw [validateKeys_absent passed profile (by simp)]
      trivial
    · cases chosen : member localProfileNames "preferences" inner with
      | none => simp [Silent]
      | some leaf =>
        rw [chosen] at preferences shared
        have admitted := validateKeys_member passed profile chosen
        exact workspacePreferences_silent admitted preferences shared

end Objects

end AutoHarness
